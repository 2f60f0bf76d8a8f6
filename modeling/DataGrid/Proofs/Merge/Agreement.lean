import DataGrid.Proofs.Merge.Phases
import DataGrid.Proofs.Merge.World

/-! The same attempt on two catalogs. If the catalogs agree on the failures and on the objects at
the two paths of a merge, then a merge with an object at the master path gets the same answers on
both. It ends with the same result, and at the two paths it leaves the same objects but for the
time at which a replica was attached. -/
namespace DataGrid

/-- The object without the times of its replicas. -/
def DataObject.timeless (o : DataObject) : DataObject :=
  { o with replicas := o.replicas.map fun r => { r with modified := 0 } }

namespace Merge
open Catalog (Memory)
open Catalog.Memory

/-- The hosts answer by the request alone. -/
def Hosts.AnswerBy {τ : Type} (hosts : Hosts τ)
    (answer : Remote.Request → Except Remote.Failure Remote.Output) : Prop :=
  ∀ m q t, (hosts m q t).1 = answer q

variable {τ α β : Type} {hosts : Hosts τ}

/-- On related catalogs the attempt ends with one result and on related catalogs. -/
def Paired (hosts : Hosts τ) (pre : Memory → Memory → Prop) (x : Attempt α)
    (post : Memory → Memory → Prop) : Prop :=
  ∀ s s' : Memory × τ, pre s.1 s'.1 →
    (x.run.run (world hosts) s).1 = (x.run.run (world hosts) s').1 ∧
      post (x.run.run (world hosts) s).2.1 (x.run.run (world hosts) s').2.1

theorem Paired.ends {pre post : Memory → Memory → Prop} {x : Attempt α}
    (h : Paired hosts pre x post) {s s' u u' : Memory × τ} {r r' : Except Error α}
    (start : pre s.1 s'.1) (ends : Ends hosts x s r u) (ends' : Ends hosts x s' r' u') : r = r' ∧ post u.1 u'.1 := by
  have out := h s s' start
  rw [ends, ends'] at out
  exact out

theorem Paired.bind {pre mid post : Memory → Memory → Prop} {x : Attempt α} {f : α → Attempt β}
    (hx : Paired hosts pre x mid) (stop : ∀ n m, mid n m → post n m)
    (hf : ∀ a, Paired hosts mid (f a) post) : Paired hosts pre (x >>= f) post := by
  intro s s' hpre
  obtain ⟨same, hmid⟩ := hx s s' hpre
  rw [ExceptT.run_bind, Dialogue.run_bind, Dialogue.run_bind, ← same]
  cases (x.run.run (world hosts) s).1 with
  | error e => exact ⟨rfl, stop _ _ hmid⟩
  | ok a => exact hf a _ _ hmid

theorem paired_known {pre post : Memory → Memory → Prop} (k : Except Error α)
    (stop : ∀ n m, pre n m → post n m) : Paired hosts pre (known k) post :=
  fun s s' hpre => ⟨rfl, stop s.1 s'.1 hpre⟩

/-- A call that both catalogs answer alike. -/
theorem paired_ask {pre post : Memory → Memory → Prop} {step : Step} {target : String}
    {c : Catalog.Call}
    (same : ∀ n m, pre n m → (n.answer c).map Prod.fst = (m.answer c).map Prod.fst)
    (stay : ∀ n m, pre n m → post n m)
    (go : ∀ n m, pre n m → ∀ a n' m', n.answer c = .ok (a, n') → m.answer c = .ok (a, m') →
      post n' m') :
    Paired hosts pre (ask step target c) post := by
  intro s s' hpre
  have run (s : Memory × τ) : (ask step target c).run.run (world hosts) s =
      (((Memory.serve c s.1).1).mapError (·.toError step target), (Memory.serve c s.1).2, s.2) :=
    rfl
  have same := same s.1 s'.1 hpre
  rw [run, run, serve_eq_settle, serve_eq_settle]
  cases hn : s.1.answer c with
  | error f =>
    rw [hn] at same
    cases hm : s'.1.answer c with
    | error f' =>
      rw [hm] at same
      cases same
      exact ⟨rfl, stay _ _ hpre⟩
    | ok out =>
      rw [hm] at same
      contradiction
  | ok out =>
    obtain ⟨a, n'⟩ := out
    rw [hn] at same
    cases hm : s'.1.answer c with
    | error f' =>
      rw [hm] at same
      contradiction
    | ok out =>
      obtain ⟨a', m'⟩ := out
      rw [hm] at same
      cases same
      exact ⟨rfl, go _ _ hpre a n' m' hn hm⟩

theorem paired_command {pre : Memory → Memory → Prop}
    {answer : Remote.Request → Except Remote.Failure Remote.Output} (fixed : hosts.AnswerBy answer)
    (step : Step) (q : Remote.Request) : Paired hosts pre (command step q) pre := by
  intro s s' hpre
  have run (s : Memory × τ) : (command step q).run.run (world hosts) s =
      ((((hosts s.1 q s.2).1).mapError (·.toError step q)).map fun _ => (),
        s.1, (hosts s.1 q s.2).2) :=
    rfl
  rw [run, run, fixed, fixed]
  exact ⟨rfl, hpre⟩

/-! The two relations of a merge. The left catalog may have more collections, those in `extra`. -/

structure Alike (extra : String → Prop) (obj master : String) (n m : Memory) : Prop where
  failures : n.failures = m.failures
  candidate : n.objects[obj]? = m.objects[obj]?
  present : n.objects[master]? = m.objects[master]?
  collections : ∀ c, c ∈ n.collections ↔ extra c ∨ c ∈ m.collections

/-- Alike but for the times of replicas. -/
structure Near (extra : String → Prop) (obj master : String) (n m : Memory) : Prop where
  failures : n.failures = m.failures
  candidate : n.objects[obj]?.map DataObject.timeless = m.objects[obj]?.map DataObject.timeless
  present : n.objects[master]?.map DataObject.timeless = m.objects[master]?.map DataObject.timeless
  collections : ∀ c, c ∈ n.collections ↔ extra c ∨ c ∈ m.collections

variable {extra : String → Prop} {obj master : String} {n m : Memory}

theorem Alike.near (h : Alike extra obj master n m) : Near extra obj master n m :=
  ⟨h.failures, congrArg _ h.candidate, congrArg _ h.present, h.collections⟩

/-! Catalogs that agree on the failures and on an object answer alike about it. -/

section
variable {path : String} (failures : n.failures = m.failures)
  (here : n.objects[path]? = m.objects[path]?)
include failures here

theorem answer_checksum_congr :
    (n.answer (.checksum path)).map Prod.fst = (m.answer (.checksum path)).map Prod.fst := by
  simp only [answer, checksum, allow, failures, here]
  cases m.failures .checksum with
  | some status => rfl
  | none => cases m.objects[path]? <;> rfl

theorem answer_primary_congr :
    (n.answer (.primary path)).map Prod.fst = (m.answer (.primary path)).map Prod.fst := by
  simp only [answer, primary, allow, failures, here]
  cases m.failures .objectInfo with
  | some status => rfl
  | none => cases m.objects[path]?.bind DataObject.primary? <;> rfl

theorem answer_attach_congr {source dest : Replica} (at_path : dest.path = path) :
    (n.answer (.attach source dest)).map Prod.fst =
      (m.answer (.attach source dest)).map Prod.fst := by
  subst at_path
  simp only [answer, attach, allow, failures]
  cases m.failures .registerReplica with
  | some status => rfl
  | none =>
    by_cases same : source.path = dest.path
    · rw [same, here]
      cases m.objects[dest.path]? with
      | none => simp
      | some o =>
        cases hr : o.replicas.any fun r =>
            r.file == dest.file && r.resource.name == dest.resource.name with
        | true => simp [hr]
        | false =>
          simp [hr]
          rfl
    · simp [same]

theorem answer_annotate_congr {name value : String} :
    (n.answer (.annotate path name value)).map Prod.fst =
      (m.answer (.annotate path name value)).map Prod.fst := by
  simp only [answer, annotate, allow, failures, here]
  cases m.failures .setAttribute with
  | some status => rfl
  | none => cases m.objects[path]? <;> rfl

end

theorem answer_remove_congr {path : String} {force : Bool} (failures : n.failures = m.failures)
    (here : n.objects.contains path = m.objects.contains path) :
    (n.answer (.remove path force)).map Prod.fst =
      (m.answer (.remove path force)).map Prod.fst := by
  simp only [answer, remove, allow, failures, here]
  cases m.failures .unlink with
  | some status => rfl
  | none => cases m.objects.contains path <;> rfl

theorem Near.put {o o' : DataObject} (h : Near extra obj master n m) (path : String)
    (same : o.timeless = o'.timeless) : Near extra obj master (n.put path o) (m.put path o') where
  failures := h.failures
  candidate := by
    rw [getElem?_put, getElem?_put]
    split
    · exact congrArg some same
    · exact h.candidate
  present := by
    rw [getElem?_put, getElem?_put]
    split
    · exact congrArg some same
    · exact h.present
  collections := h.collections

theorem Near.drop (h : Near extra obj master n m) (path : String) :
    Near extra obj master (n.drop path) (m.drop path) where
  failures := h.failures
  candidate := by
    rw [getElem?_drop, getElem?_drop]
    split
    · rfl
    · exact h.candidate
  present := by
    rw [getElem?_drop, getElem?_drop]
    split
    · rfl
    · exact h.present
  collections := h.collections

theorem Alike.at {path : String} (h : Alike extra obj master n m)
    (here : path = obj ∨ path = master) : n.objects[path]? = m.objects[path]? := by
  rcases here with rfl | rfl
  · exact h.candidate
  · exact h.present

theorem paired_knownChecksum {path : String} (here : path = obj ∨ path = master) :
    Paired hosts (Alike extra obj master) (knownChecksum path)
      (Alike extra obj master) := by
  unfold knownChecksum
  refine Paired.bind (paired_ask ?_ (fun _ _ h => h) ?_) (fun _ _ h => h)
    fun c => paired_known _ fun _ _ h => h
  · exact fun n m h => answer_checksum_congr h.failures (h.at here)
  · intro n m h a n' m' hn hm
    obtain ⟨-, rfl⟩ := answer_checksum_iff.mp hn
    obtain ⟨-, rfl⟩ := answer_checksum_iff.mp hm
    exact h

theorem paired_primary {path : String} (here : path = obj ∨ path = master) {step : Step}
    {target : String} :
    Paired hosts (Alike extra obj master) (ask step target (.primary path))
      (Alike extra obj master) := by
  refine paired_ask ?_ (fun _ _ h => h) ?_
  · exact fun n m h => answer_primary_congr h.failures (h.at here)
  · intro n m h a n' m' hn hm
    obtain ⟨-, rfl⟩ := answer_primary_iff.mp hn
    obtain ⟨-, rfl⟩ := answer_primary_iff.mp hm
    exact h

/-- Only the time of the new replica depends on the catalog as a whole. -/
theorem paired_attach {step : Step} {target : String} {source dest : Replica}
    (here : dest.path = master) :
    Paired hosts (Alike extra obj master) (ask step target (.attach source dest))
      (Near extra obj master) := by
  refine paired_ask ?_ (fun _ _ h => h.near) ?_
  · exact fun n m h => answer_attach_congr h.failures (h.at (.inr rfl)) here
  · intro n m h a n' m' hn hm
    obtain ⟨-, -, o, ho, -, rfl⟩ := attach_eq_ok_iff.mp (answer_attach_iff.mp hn)
    obtain ⟨-, -, o', ho', -, rfl⟩ := attach_eq_ok_iff.mp (answer_attach_iff.mp hm)
    rw [h.at (.inr here), ho'] at ho
    cases ho
    exact h.near.put dest.path (by simp [DataObject.timeless])

theorem paired_remove {step : Step} {target : String} {force : Bool} :
    Paired hosts (Near extra obj master) (ask step target (.remove obj force))
      (Near extra obj master) := by
  refine paired_ask ?_ (fun _ _ h => h) ?_
  · intro n m h
    have here := congrArg Option.isSome h.candidate
    exact answer_remove_congr h.failures (by simpa using here)
  · intro n m h a n' m' hn hm
    obtain ⟨-, -, rfl⟩ := remove_eq_ok_iff.mp (answer_remove_iff.mp hn)
    obtain ⟨-, -, rfl⟩ := remove_eq_ok_iff.mp (answer_remove_iff.mp hm)
    exact h.drop obj

theorem paired_annotate {step : Step} {target name value : String} :
    Paired hosts (Alike extra obj master) (ask step target (.annotate obj name value))
      (Near extra obj master) := by
  refine paired_ask ?_ (fun _ _ h => h.near) ?_
  · exact fun n m h => answer_annotate_congr h.failures h.candidate
  · intro n m h a n' m' hn hm
    obtain ⟨-, o, ho, rfl⟩ := annotate_eq_ok_iff.mp (answer_annotate_iff.mp hn)
    obtain ⟨-, o', ho', rfl⟩ := annotate_eq_ok_iff.mp (answer_annotate_iff.mp hm)
    rw [h.candidate, ho'] at ho
    cases ho
    exact h.near.put obj rfl

variable {answer : Remote.Request → Except Remote.Failure Remote.Output}
  (fixed : hosts.AnswerBy answer)
include fixed

theorem paired_prepare :
    Paired hosts (Alike extra obj master) (prepare obj master) (Alike extra obj master) := by
  have keep (n m : Memory) (h : Alike extra obj master n m) : Alike extra obj master n m := h
  unfold prepare
  refine (paired_primary (.inl rfl)).bind keep fun copy => ?_
  refine (paired_primary (.inr rfl)).bind keep fun kept => ?_
  refine (paired_known _ keep).bind keep fun physical => ?_
  refine (paired_known _ keep).bind keep fun ⟨parent, leaf⟩ => ?_
  refine (paired_command fixed _ _).bind keep fun _ => ?_
  refine (paired_command fixed _ _).bind keep fun _ => ?_
  exact paired_known _ keep

theorem paired_link :
    Paired hosts (Alike extra obj master) (link obj master) (Near extra obj master) := by
  have keep (n m : Memory) (h : Near extra obj master n m) : Near extra obj master n m := h
  rw [link_eq]
  refine (paired_prepare fixed).bind (fun _ _ h => h.near) fun ⟨copy, kept, physical⟩ => ?_
  change Paired hosts (Alike extra obj master) (register obj master copy kept physical) _
  have attach : Paired hosts (Alike extra obj master) (ask .registerReplica physical
      (.attach kept { copy with file := physical, path := master })) (Near extra obj master) :=
    paired_attach rfl
  unfold register
  exact attach.bind keep fun _ => paired_remove.bind keep fun _ => paired_known _ keep

/-- With an object at the master path, a merge does the same on both catalogs. -/
theorem paired_reconcile (rules : Rules) :
    Paired hosts (Alike extra obj master) (reconcile rules obj master)
      (Near extra obj master) := by
  have near (n m : Memory) (h : Alike extra obj master n m) : Near extra obj master n m := h.near
  unfold reconcile
  refine (paired_knownChecksum (.inl rfl)).bind near fun own => ?_
  refine (paired_knownChecksum (.inr rfl)).bind near fun kept => ?_
  cases own with
  | none => exact paired_known _ near
  | some own =>
    cases kept with
    | none => exact paired_known _ near
    | some kept =>
      by_cases same : own = kept
      · simp only [same, if_true]
        exact paired_link fixed
      · simp only [same, if_false]
        exact paired_annotate.bind (fun _ _ h => h) fun _ => paired_known _ fun _ _ h => h

end Merge
end DataGrid
