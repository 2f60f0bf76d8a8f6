import DataGrid.Proofs.Catalog.Room
import DataGrid.Proofs.Merge.Agreement
import DataGrid.Proofs.Merge.Course

/-! A whole merge on two tidy catalogs, one of which may have more collections than the other. It
takes the same branch on both, and if it has to make room, the walk ends alike; so it has the same
result, leaves the same objects at its two paths and opens the same collections. -/
namespace DataGrid.Merge
open Catalog (Memory)
open Catalog.Memory
open DataGrid.Path (Proper place ladder)
variable {τ : Type} {hosts : Hosts τ} {rules : Rules} {obj current coll master : String}
  {n m : Memory} {z s : List Char} {rest : List (List Char)}

theorem firstSegment_place (h : Proper (z :: rest)) :
    firstSegment (place (z :: rest)) = place [z] := by
  have name := (Path.takeWhile_name (h z List.mem_cons_self).2 _ (Path.head?_spell rest)).1
  have same : (fun d => !Path.isSlash d) = fun d : Char => d != '/' := rfl
  rw [same] at name
  rw [firstSegment, Path.toList_place, Path.spell_cons]
  simp only [name]
  simp [place, Path.spell_cons]

theorem parentAndName_place (h : Proper (z :: rest ++ [s])) :
    Directory.parentAndName (place (z :: rest ++ [s])) =
      .ok (place (z :: rest), String.ofList s) := by
  rw [Directory.parentAndName, Path.split?_place h]
  rfl

/-- The walk for a plain master path starts at the top of its tree. -/
theorem ensureParent_place (h : Proper (z :: rest ++ [s])) (mode : UInt32) :
    Directory.ensureParent (firstSegment (place (z :: rest ++ [s]))) (place (z :: rest ++ [s]))
        mode =
      Directory.ensure (place [z]) (place ([z] ++ rest)) (mode ||| Directory.traverseBits) := by
  have start : firstSegment (place (z :: rest ++ [s])) = place [z] := firstSegment_place h
  rw [start, Directory.ensureParent, parentAndName_place h]
  rfl

/-- The failure to make room. -/
def noRoom (master : String) (e : Error) : Error :=
  .catalog .collCreate master e.status e.message

theorem run_makeRoom (tidy : Tidy m) (works : m.failures .lookup = none)
    (proper : Proper (z :: rest ++ [s])) (t : τ) :
    ∃ r m', (makeRoom rules (place (z :: rest ++ [s]))).run.run (world hosts) (m, t) =
        (r.mapError (noRoom (place (z :: rest ++ [s]))), m', t) ∧ Room [z] rest m r m' := by
  have upper : Proper ([z] ++ rest) := proper.left
  obtain ⟨r, m', run, room⟩ := room_of_run_ensure (rules.directoryMode ||| Directory.traverseBits)
    tidy works (List.cons_ne_nil z []) upper
  refine ⟨r.map fun _ => (), m', ?_, room⟩
  rw [makeRoom, ExceptT.run_mk, Dialogue.run_bind, ensureParent_place proper, run_onCollections,
    run]
  cases r <;> rfl

/-- A move goes on from the room that it has made. -/
theorem run_move (tidy : Tidy m) (works : m.failures .lookup = none)
    (proper : Proper (z :: rest ++ [s])) (t : τ) :
    ∃ r m', Room [z] rest m r m' ∧
      (move rules obj (place (z :: rest ++ [s]))).run.run (world hosts) (m, t) =
        match r with
        | .error e => (.error (noRoom (place (z :: rest ++ [s])) e), m', t)
        | .ok () => (rename obj (place (z :: rest ++ [s]))).run.run (world hosts) (m', t) := by
  obtain ⟨r, m', run, room⟩ := run_makeRoom tidy works proper t
  refine ⟨r, m', room, ?_⟩
  rw [move_eq, ExceptT.run_bind, Dialogue.run_bind, run]
  cases r <;> rfl

/-- A merge with a master path first looks up the object there, and takes the branch. -/
theorem run_object (hpath : destination obj current coll = .ok master) (s : Memory × τ) :
    (object rules obj current coll).run.run (world hosts) s =
      match s.1.failures .lookup with
      | some status => (.error (.catalog .lookup master status "injected lookup failure"), s)
      | none =>
        if s.1.objects[master]?.isSome then (reconcile rules obj master).run.run (world hosts) s
        else (move rules obj master).run.run (world hosts) s := by
  have answer : world hosts (.inl (.identify master)) s = (s.1.identify master, s) :=
    congrArg (fun a => (a.1, a.2, s.2)) (serve_identify master s.1)
  unfold object
  rw [hpath]
  change Dialogue.run (world hosts) (Dialogue.ask (.inl (.identify master)) _) s = _
  rw [Dialogue.run_ask, answer, identify, allow]
  cases s.1.failures .lookup with
  | some status => rfl
  | none => cases s.1.objects[master]? <;> rfl

/-! Renaming after room has been made. -/

structure Ready (extra : String → Prop) (obj master : String) (n m : Memory) : Prop
    extends Alike extra obj master n m where
  free : master ∈ n.collections ↔ master ∈ m.collections
  homed : Path.parent master ∈ n.collections ↔ Path.parent master ∈ m.collections

variable {extra : String → Prop}

theorem answer_move_congr (h : Ready extra obj master n m) :
    (n.answer (.move obj master)).map Prod.fst = (m.answer (.move obj master)).map Prod.fst := by
  have vacant : n.objects.contains master = m.objects.contains master := by
    simpa using congrArg Option.isSome h.present
  have same {c : String} (iff : c ∈ n.collections ↔ c ∈ m.collections) :
      n.collections.contains c = m.collections.contains c := by
    rw [Bool.eq_iff_iff, Std.TreeSet.contains_iff_mem, Std.TreeSet.contains_iff_mem, iff]
  simp only [answer, Memory.move, allow, h.failures, h.candidate, vacant, same h.free, same h.homed]
  cases m.failures .rename with
  | some status => rfl
  | none =>
    cases m.objects[obj]? with
    | none => rfl
    | some o =>
      cases m.objects.contains master <;> cases m.collections.contains master <;>
        cases m.collections.contains (Path.parent master) <;> rfl

theorem Near.rehome (h : Near extra obj master n m) (o : DataObject) :
    Near extra obj master (n.rehome obj master o) (m.rehome obj master o) where
  failures := h.failures
  candidate := by
    rw [getElem?_rehome, getElem?_rehome]
    simp
  present := by
    rw [getElem?_rehome, getElem?_rehome]
    simp
  collections := h.collections

theorem paired_rename : Paired hosts (Ready extra obj master) (rename obj master)
    (Near extra obj master) := by
  have keep (n m : Memory) (h : Near extra obj master n m) : Near extra obj master n m := h
  have asked : Paired hosts (Ready extra obj master) (ask .rename obj (.move obj master))
      (Near extra obj master) := by
    refine paired_ask (fun _ _ h => answer_move_congr h) (fun _ _ h => h.near) ?_
    intro n m h a n' m' hn hm
    obtain ⟨-, o, ho, -, -, -, rfl⟩ := move_eq_ok_iff.mp (answer_move_iff.mp hn)
    obtain ⟨-, o', ho', -, -, -, rfl⟩ := move_eq_ok_iff.mp (answer_move_iff.mp hm)
    rw [h.candidate, ho'] at ho
    cases ho
    exact h.near.rehome o
  unfold rename
  exact asked.bind keep fun _ => paired_known _ keep

/-- The left catalog may have more collections, but they matter neither to the walk nor to the
renaming of `obj` to the path that `z`, the rest and `s` spell. -/
structure Compatible (z : List Char) (rest : List (List Char)) (s : List Char) (obj : String)
    (n m : Memory) : Prop extends Wider [z] rest n m where
  tidy : Tidy n
  tidy' : Tidy m
  failures : n.failures = m.failures
  candidate : n.objects[obj]? = m.objects[obj]?
  present : n.objects[place (z :: rest ++ [s])]? = m.objects[place (z :: rest ++ [s])]?
  target : place (z :: rest ++ [s]) ∈ n.collections → place (z :: rest ++ [s]) ∈ m.collections

theorem Compatible.alike (h : Compatible z rest s obj n m) :
    Alike (· ∈ n.collections) obj (place (z :: rest ++ [s])) n m where
  failures := h.failures
  candidate := h.candidate
  present := h.present
  collections c := (or_iff_left_of_imp (h.wider c)).symm

theorem Compatible.rooms (h : Compatible z rest s obj n m) (proper : Proper (z :: rest ++ [s]))
    {r r' : Except Error Unit} {n' m' : Memory} (room : Room [z] rest n r n')
    (room' : Room [z] rest m r' m') :
    r = r' ∧ Alike (· ∈ n.collections) obj (place (z :: rest ++ [s])) n' m' := by
  obtain ⟨same, collections⟩ := Room.agree h.toWider h.tidy h.tidy' (List.cons_ne_nil z [])
    proper.left room room'
  obtain ⟨objects, undisturbed⟩ := room.unchanged
  obtain ⟨objects', undisturbed'⟩ := room'.unchanged
  refine ⟨same, ?_, ?_, ?_, collections⟩
  · rw [undisturbed.failures, undisturbed'.failures, h.failures]
  · rw [objects, objects', h.candidate]
  · rw [objects, objects', h.present]

/-- Once there is room on both catalogs, they answer the renaming alike. -/
theorem Compatible.ready (h : Compatible z rest s obj n m) (proper : Proper (z :: rest ++ [s]))
    {n' m' : Memory} (alike : Alike (· ∈ n.collections) obj (place (z :: rest ++ [s])) n' m')
    (room' : Room [z] rest m (.ok ()) m') :
    Ready (· ∈ n.collections) obj (place (z :: rest ++ [s])) n' m' := by
  have home : Path.parent (place (z :: rest ++ [s])) = place (z :: rest) := by
    rw [Path.parent_place proper, if_neg (List.cons_ne_nil z rest)]
  have above (there : place (z :: rest) ∈ n.collections) : place (z :: rest) ∈ m'.collections := by
    by_cases top : rest = []
    · rw [top] at there ⊢
      exact room'.kept _ (h.start there)
    · exact room'.destination top
  refine { alike with free := ?_, homed := ?_ }
  · rw [alike.collections]
    exact or_iff_right_of_imp fun there => room'.kept _ (h.target there)
  · rw [home, alike.collections]
    exact or_iff_right_of_imp above

/-- A merge has the same result on compatible catalogs. -/
theorem object_agree {answer : Remote.Request → Except Remote.Failure Remote.Output}
    (fixed : hosts.AnswerBy answer) (proper : Proper (z :: rest ++ [s]))
    (hpath : destination obj current coll = .ok (place (z :: rest ++ [s])))
    (h : Compatible z rest s obj n m) {t t' : τ} {r r' : Except Error Outcome}
    {u u' : Memory × τ} (ends : Ends hosts (object rules obj current coll) (n, t) r u)
    (ends' : Ends hosts (object rules obj current coll) (m, t') r' u') :
    r = r' ∧ Near (· ∈ n.collections) obj (place (z :: rest ++ [s])) u.1 u'.1 := by
  rw [Ends, run_object hpath] at ends ends'
  simp only [h.failures, h.present] at ends
  cases works : m.failures .lookup with
  | some status =>
    rw [works] at ends ends'
    cases ends
    cases ends'
    exact ⟨rfl, h.alike.near⟩
  | none =>
    rw [works] at ends ends'
    by_cases present : m.objects[place (z :: rest ++ [s])]?.isSome
    · simp only [present, if_true] at ends ends'
      exact (paired_reconcile fixed rules).ends h.alike ends ends'
    · simp only [present] at ends ends'
      have works' : n.failures .lookup = none := by rw [h.failures, works]
      obtain ⟨r, n', room, run⟩ := run_move h.tidy works' proper t
      obtain ⟨r', m', room', run'⟩ := run_move h.tidy' works proper t'
      obtain ⟨rfl, alike⟩ := h.rooms proper room room'
      simp only [Bool.false_eq_true, if_false] at ends ends'
      rw [run] at ends
      rw [run'] at ends'
      cases r with
      | error e =>
        cases ends
        cases ends'
        exact ⟨rfl, alike.near⟩
      | ok a => exact paired_rename.ends (h.ready proper alike room') ends ends'

theorem rename_collections {s s' : Memory × τ} {r : Except Error Outcome}
    (h : Ends hosts (rename obj master) s r s') : s'.1.collections = s.1.collections := by
  rw [rename, ends_bind_iff] at h
  rcases h with ⟨e, hask, -⟩ | ⟨a, mid, hask, hpure⟩
  · rw [(ask_failed hask).1]
  · obtain ⟨-, rfl⟩ := ends_pure_iff.mp hpure
    obtain ⟨-, o, -, -, -, -, hm⟩ := move_eq_ok_iff.mp (answer_move_iff.mp (ask_done hask).1)
    rw [hm, rehome_collections]

/-- A merge opens no collections but on the way to its master path, and none if creations fail. -/
theorem object_grown (tidy : Tidy m) (proper : Proper (z :: rest ++ [s]))
    (hpath : destination obj current coll = .ok (place (z :: rest ++ [s]))) {t : τ}
    {r : Except Error Outcome} {u : Memory × τ}
    (h : Ends hosts (object rules obj current coll) (m, t) r u) {c : String}
    (hc : c ∈ u.1.collections) :
    c ∈ m.collections ∨
      m.failures .collCreate = none ∧ ∃ rung ∈ ladder [z] rest, c = place rung := by
  rw [Ends, run_object hpath] at h
  cases works : m.failures .lookup with
  | some status =>
    rw [works] at h
    cases h
    exact .inl hc
  | none =>
    rw [works] at h
    cases present : m.objects[place (z :: rest ++ [s])]? with
    | some kept =>
      simp only [present, Option.isSome_some, if_true] at h
      rw [(reconcile_course h).collections_of_present present] at hc
      exact .inl hc
    | none =>
      obtain ⟨r, m', room, run⟩ := run_move tidy works proper t
      simp only [present, Option.isSome_none, Bool.false_eq_true, if_false] at h
      rw [run] at h
      cases r with
      | error e =>
        cases h
        exact room.grown hc
      | ok a =>
        rw [rename_collections h] at hc
        exact room.grown hc

end DataGrid.Merge
