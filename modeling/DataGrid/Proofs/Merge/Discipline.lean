import DataGrid.Merge.Object
import DataGrid.Proofs.Conduct
import DataGrid.Proofs.Dialogue
import DataGrid.Proofs.Directory.Scans

/-! The order of the calls of a merge, whatever a catalog and hosts of any kind answer. Each call
has to be earned by the answers before it: a command by equal checksums, the mark by different
ones, the renaming by a vacant master path, and the unlinking by everything that makes the copy
a replica of the master object. A failure is the last exchange and the result names its step;
only the walk above the master path looks past failures, and no rows there mean no object. -/
namespace DataGrid.Merge
open Dialogue (Exchange Keeps)

/-- The catalog's answer to a call that succeeds. -/
abbrev told (c : Catalog.Call) (a : c.Result) : Exchange interface := ⟨.inl c, .ok a⟩

/-- The host's answer to a command that succeeds. -/
abbrev ran (q : Remote.Request) (out : Remote.Output) : Exchange interface := ⟨.inr q, .ok out⟩

inductive Branch where
  | moving
  | flagging
  | linking

/-- The branch of a merge that alone makes the call. -/
def branch? : interface.Call → Option Branch
  | .inl (.makeCollection _) | .inl (.move _ _) => some .moving
  | .inl (.annotate _ _ _) => some .flagging
  | .inl (.attach _ _) | .inl (.remove _ _) | .inr _ => some .linking
  | .inl (.identify _) | .inl (.hasCollection _) | .inl (.checksum _) | .inl (.primary _) => none

/-- The last call of each branch. -/
def Final : interface.Call → Prop
  | .inl (.move _ _) | .inl (.annotate _ _ _) | .inl (.remove _ _) => True
  | _ => False

/-- The step that a failure of the call is a failure of. -/
def stepOf : interface.Call → Step
  | .inl (.identify _) | .inl (.hasCollection _) => .lookup
  | .inl (.makeCollection _) => .collCreate
  | .inl (.move _ _) => .rename
  | .inl (.remove _ _) => .unlink
  | .inl (.checksum _) => .checksum
  | .inl (.primary _) => .objectInfo
  | .inl (.attach _ _) => .registerReplica
  | .inl (.annotate _ _ _) => .setAttribute
  | .inr ⟨_, .mkdir _ _⟩ => .remoteMkdir
  | .inr ⟨_, .link _ _⟩ => .remoteLink

def Failed : Exchange interface → Prop
  | ⟨.inl _, answer⟩ => ∃ f, answer = .error f
  | ⟨.inr _, answer⟩ => ∃ f, answer = .error f

/-- The failures that do not end a merge: a look above the master path, and no rows at it. -/
def Tolerated (master : String) : Exchange interface → Prop
  | ⟨.inl (.hasCollection coll), _⟩ => Path.Above coll master
  | ⟨.inl (.identify path), answer⟩ =>
    Path.Above path master ∨ path = master ∧ answer = .error .noRows
  | _ => False

section
variable (obj master : String) (past : List (Exchange interface))

def Agreed : Prop :=
  ∃ sum, sum ≠ "" ∧
    [told (.checksum obj) (some sum), told (.checksum master) (some sum)].Sublist past

def Disagreed (value : String) : Prop :=
  ∃ own, own ≠ "" ∧ value ≠ "" ∧ own ≠ value ∧
    [told (.checksum obj) (some own), told (.checksum master) (some value)].Sublist past

def Vacant : Prop :=
  told (.identify master) none ∈ past ∨ ⟨.inl (.identify master), .error .noRows⟩ ∈ past

/-- All that makes the copy a replica of the master object has succeeded, in this order. -/
def Registered : Prop :=
  ∃ sum copy kept physical parent made linked, sum ≠ "" ∧
    [told (.checksum obj) (some sum), told (.checksum master) (some sum),
      told (.primary obj) copy, told (.primary master) kept,
      ran ⟨copy.resource.address, .mkdir parent true⟩ made,
      ran ⟨copy.resource.address, .link copy.file physical⟩ linked,
      told (.attach kept { copy with file := physical, path := master }) ()].Sublist past

/-- What must have been answered before the call. -/
def Earned : interface.Call → Prop
  | .inl (.remove path _) => path = obj ∧ Registered obj master past
  | .inr _ => Agreed obj master past
  | .inl (.annotate path _ value) => path = obj ∧ Disagreed obj master past value
  | .inl (.move source dest) => source = obj ∧ dest = master ∧ Vacant master past
  | _ => True

/-- The rule: so far nothing has failed for good, no branch has come to its end and no other
branch has been entered, and the call is earned. -/
structure Allowed (c : interface.Call) : Prop where
  settled : ∀ e ∈ past, Failed e → Tolerated master e
  ongoing : ∀ e ∈ past, ¬ Final e.call
  branch : ∀ e ∈ past, ∀ b b', branch? e.call = some b → branch? c = some b' → b = b'
  earned : Earned obj master past c

end

/-- A failure for good is the failure that the result reports. -/
def Blamed (master : String) (r : Except Error α) (past : List (Exchange interface)) : Prop :=
  ∀ e ∈ past, Failed e → ¬ Tolerated master e →
    ∃ error, r = .error error ∧ error.step? = some (stepOf e.call)

/-- The merge is on its way, in the given branch or before all branches. -/
def Going (master : String) (b : Branch) (past : List (Exchange interface)) : Prop :=
  ∀ e ∈ past, (Failed e → Tolerated master e) ∧ ¬ Final e.call ∧
    (branch? e.call = none ∨ branch? e.call = some b)

variable {obj master : String} {past : List (Exchange interface)} {b : Branch} {α β : Type}

theorem Going.append (h : Going master b past) {e : Exchange interface}
    (settled : Failed e → Tolerated master e) (ongoing : ¬ Final e.call)
    (branch : branch? e.call = none ∨ branch? e.call = some b) :
    Going master b (past ++ [e]) := by
  intro e' he'
  rcases List.mem_append.mp he' with he' | he'
  · exact h e' he'
  · obtain rfl := List.mem_singleton.mp he'
    exact ⟨settled, ongoing, branch⟩

theorem Going.allowed (h : Going master b past) {c : interface.Call}
    (branch : branch? c = none ∨ branch? c = some b) (earned : Earned obj master past c) :
    Allowed obj master past c where
  settled e he := (h e he).1
  ongoing e he := (h e he).2.1
  branch e he b₁ b₂ h₁ h₂ := by
    rcases (h e he).2.2 with he | he <;> rcases branch with hc | hc <;> simp_all
  earned := earned

theorem not_failed_told {c : Catalog.Call} {a : c.Result} : ¬ Failed (told c a) := by
  rintro ⟨f, hf⟩
  cases hf

theorem not_failed_ran {q : Remote.Request} {out : Remote.Output} : ¬ Failed (ran q out) := by
  rintro ⟨f, hf⟩
  cases hf

/-- If nothing before has failed for good, at most the last exchange is to blame. -/
theorem Going.blamed (h : Going master b past) {e : Exchange interface} {r : Except Error α}
    (last : Failed e → Tolerated master e ∨
      ∃ error, r = .error error ∧ error.step? = some (stepOf e.call)) :
    Blamed master r (past ++ [e]) := by
  intro e' he' failed final
  rcases List.mem_append.mp he' with he' | he'
  · exact absurd ((h e' he').1 failed) final
  · obtain rfl := List.mem_singleton.mp he'
    exact (last failed).resolve_left final

/-- A call of the catalog is followed by the rest, or blamed. -/
theorem ask_keeps {step : Step} {target : String} {c : Catalog.Call} {f : c.Result → Attempt β}
    (going : Going master b past) (branch : branch? (.inl c) = none ∨ branch? (.inl c) = some b)
    (earned : Earned obj master past (.inl c)) (hstep : stepOf (.inl c) = step)
    (rest : ∀ a, (f a).run.Keeps (Allowed obj master) (Blamed master) (past ++ [told c a])) :
    (ask step target c >>= f).run.Keeps (Allowed obj master) (Blamed master) past := by
  refine ⟨going.allowed branch earned, ?_⟩
  rintro (e | a)
  · exact going.blamed fun _ => .inr ⟨_, rfl, congrArg some hstep.symm⟩
  · exact rest a

theorem command_keeps {step : Step} {q : Remote.Request} {f : Unit → Attempt β}
    (going : Going master .linking past) (agreed : Agreed obj master past)
    (hstep : stepOf (.inr q) = step)
    (rest : ∀ out, (f ()).run.Keeps (Allowed obj master) (Blamed master) (past ++ [ran q out])) :
    (command step q >>= f).run.Keeps (Allowed obj master) (Blamed master) past := by
  refine ⟨going.allowed (.inr rfl) agreed, ?_⟩
  rintro (e | out)
  · exact going.blamed fun _ => .inr ⟨_, rfl, congrArg some hstep.symm⟩
  · exact rest out

/-- What is known without asking adds nothing; its error ends the merge with nothing to blame. -/
theorem known_keeps {k : Except Error α} {f : α → Attempt β} (going : Going master b past)
    (rest : ∀ a, k = .ok a → (f a).run.Keeps (Allowed obj master) (Blamed master) past) :
    (known k >>= f).run.Keeps (Allowed obj master) (Blamed master) past := by
  cases k with
  | error e => exact fun e' he' failed final => absurd ((going e' he').1 failed) final
  | ok a => exact rest a rfl

theorem Going.told (h : Going master b past) {c : Catalog.Call} (a : c.Result)
    (ongoing : ¬ Final (.inl c)) (branch : branch? (.inl c) = none ∨ branch? (.inl c) = some b) :
    Going master b (past ++ [told c a]) :=
  h.append (fun failed => absurd failed not_failed_told) ongoing branch

theorem Going.ran (h : Going master .linking past) (q : Remote.Request) (out : Remote.Output) :
    Going master .linking (past ++ [ran q out]) :=
  h.append (fun failed => absurd failed not_failed_ran) id (.inr rfl)

/-- Once the checksums are known to be equal, linking keeps the rule to its end. -/
theorem link_keeps {sum : String} (going : Going master .linking past) (filled : sum ≠ "")
    (equal : [told (.checksum obj) (some sum), told (.checksum master) (some sum)].Sublist past) :
    (link obj master).run.Keeps (Allowed obj master) (Blamed master) past := by
  have more {l tail : List (Exchange interface)} (h : l.Sublist tail) (e : Exchange interface) :
      (l ++ [e]).Sublist (tail ++ [e]) := h.append (List.Sublist.refl [e])
  unfold link
  refine ask_keeps going (.inl rfl) trivial rfl fun copy => ?_
  replace going := going.told (c := .primary obj) copy id (.inl rfl)
  replace equal := more equal (told (.primary obj) copy)
  refine ask_keeps going (.inl rfl) trivial rfl fun kept => ?_
  replace going := going.told (c := .primary master) kept id (.inl rfl)
  replace equal := more equal (told (.primary master) kept)
  refine known_keeps going fun physical _ => known_keeps going fun ⟨parent, leaf⟩ _ => ?_
  have agreed : Agreed obj master _ := ⟨sum, filled, (List.sublist_append_left _ _).trans equal⟩
  refine command_keeps going agreed rfl fun made => ?_
  replace going := going.ran ⟨copy.resource.address, .mkdir parent true⟩ made
  replace equal := more equal (ran ⟨copy.resource.address, .mkdir parent true⟩ made)
  have agreed : Agreed obj master _ := ⟨sum, filled, (List.sublist_append_left _ _).trans equal⟩
  refine command_keeps going agreed rfl fun linked => ?_
  replace going := going.ran ⟨copy.resource.address, .link copy.file physical⟩ linked
  replace equal := more equal (ran ⟨copy.resource.address, .link copy.file physical⟩ linked)
  refine ask_keeps going (.inr rfl) trivial rfl fun done => ?_
  replace going := going.told (c := .attach kept { copy with file := physical, path := master })
    done id (.inr rfl)
  replace equal := more equal
    (told (.attach kept { copy with file := physical, path := master }) done)
  have registered : Registered obj master _ :=
    ⟨sum, copy, kept, physical, parent, made, linked, filled, equal⟩
  refine ask_keeps going (.inr rfl) ⟨rfl, registered⟩ rfl fun gone => ?_
  exact going.blamed fun failed => absurd failed not_failed_told

theorem Going.done (h : Going master b past) (r : Except Error α) : Blamed master r past :=
  fun e he failed final => absurd ((h e he).1 failed) final

theorem filter_isEmpty_eq_some {c : Option String} {sum : String}
    (h : c.filter (fun s => !s.isEmpty) = some sum) : c = some sum ∧ sum ≠ "" := by
  rw [Option.filter_eq_some_iff] at h
  simpa using h

theorem reconcile_keeps (rules : Rules) (going : ∀ b, Going master b past) :
    (reconcile rules obj master).run.Keeps (Allowed obj master) (Blamed master) past := by
  simp only [reconcile, knownChecksum, bind_assoc, pure_bind]
  refine ask_keeps (going .linking) (.inl rfl) trivial rfl fun own => ?_
  replace going b := (going b).told (c := .checksum obj) own id (.inl rfl)
  refine ask_keeps (going .linking) (.inl rfl) trivial rfl fun kept => ?_
  replace going b := (going b).told (c := .checksum master) kept id (.inl rfl)
  have both : [told (.checksum obj) own, told (.checksum master) kept].Sublist
      (past ++ [told (.checksum obj) own] ++ [told (.checksum master) kept]) := by
    simp
  cases ho : own.filter fun s => !s.isEmpty with
  | none => exact (going .linking).done _
  | some sum =>
    obtain ⟨rfl, filled⟩ := filter_isEmpty_eq_some ho
    cases hk : kept.filter fun s => !s.isEmpty with
    | none => exact (going .linking).done _
    | some sum' =>
      obtain ⟨rfl, filled'⟩ := filter_isEmpty_eq_some hk
      by_cases same : sum = sum'
      · subst same
        simp only [if_true]
        exact link_keeps (going .linking) filled both
      · simp only [same, if_false]
        have differ : Disagreed obj master _ sum' := ⟨sum, filled, filled', same, both⟩
        refine ask_keeps (going .flagging) (.inr rfl) ⟨rfl, differ⟩ rfl fun marked => ?_
        exact (going .flagging).blamed fun failed => absurd failed not_failed_told

/-- The walk above the master path has met with no failure that counts, or with one to create a
collection at its end. -/
def Walked {ε : Type} (master : String) : Except ε α → List (Exchange interface) → Prop
  | .ok _, past => Going master .moving past ∧ Vacant master past
  | .error _, past => ∀ e ∈ past, Failed e → Tolerated master e ∨ stepOf e.call = .collCreate

theorem Vacant.append (h : Vacant master past) (e : Exchange interface) :
    Vacant master (past ++ [e]) :=
  h.imp (List.mem_append_left [e]) (List.mem_append_left [e])

theorem walked_of_going {ε : Type} (going : Going master .moving past)
    (vacant : Vacant master past) (r : Except ε α) : Walked master r past := by
  cases r with
  | error e => exact fun e' he' failed => .inl ((going e' he').1 failed)
  | ok a => exact ⟨going, vacant⟩

/-- A look above the master path is no failure, whatever is answered. -/
theorem look_keeps {path : String} (above : Path.Above path master)
    (going : Going master .moving past) (vacant : Vacant master past) :
    (onCatalog (Catalog.look path)).Keeps (Allowed obj master)
      (fun _ past => Going master .moving past ∧ Vacant master past) past := by
  constructor
  · exact going.allowed (.inl rfl) trivial
  intro answer
  have going₁ := going.append (e := ⟨.inl (.hasCollection path), answer⟩) (fun _ => above) id
    (.inl rfl)
  rcases answer with e | found
  · exact ⟨going₁, vacant.append _⟩
  cases found with
  | true => exact ⟨going₁, vacant.append _⟩
  | false =>
    constructor
    · exact going₁.allowed (.inl rfl) trivial
    intro answer
    have going₂ := going₁.append (e := ⟨.inl (.identify path), answer⟩) (fun _ => .inl above) id
      (.inl rfl)
    rcases answer with e | id
    · exact ⟨going₂, (vacant.append _).append _⟩
    cases id with
    | none => exact ⟨going₂, (vacant.append _).append _⟩
    | some id => exact ⟨going₂, (vacant.append _).append _⟩

/-- A step of a walk is the calls that it stands for. -/
theorem onCollections_ask (c : Directory.Call)
    (next : Directory.Answer c → Dialogue Directory.interface α) :
    onCatalog (Catalog.onCollections (.ask c next)) =
      onCatalog (Catalog.asDirectory c) >>= fun a => onCatalog (Catalog.onCollections (next a)) :=
  Dialogue.translate_bind _ _ _

theorem survey_keeps {places : List String} (above : ∀ d ∈ places, Path.Above d master)
    (missing : List String) (going : Going master .moving past) (vacant : Vacant master past) :
    (onCatalog (Catalog.onCollections (Directory.survey places missing))).Keeps
      (Allowed obj master) (fun _ past => Going master .moving past ∧ Vacant master past) past := by
  induction places generalizing missing past with
  | nil => exact ⟨going, vacant⟩
  | cons d ds ih =>
    rw [Directory.survey, onCollections_ask]
    apply (look_keeps (above d List.mem_cons_self) going vacant).bind
    rintro (e | st) past' ⟨going, vacant⟩
    · exact ih (fun d' hd' => above d' (List.mem_cons_of_mem d hd')) (d :: missing) going vacant
    · exact ⟨going, vacant⟩

theorem create_keeps {mode : UInt32} (places : List String) (count : Nat)
    (going : Going master .moving past) (vacant : Vacant master past) :
    (onCatalog (Catalog.onCollections (Directory.create mode places count))).Keeps
      (Allowed obj master) (Walked master) past := by
  induction places generalizing count past with
  | nil => exact ⟨going, vacant⟩
  | cons d ds ih =>
    rw [Directory.create, onCollections_ask]
    refine ⟨going.allowed (.inr rfl) trivial, ?_⟩
    rintro (e | made)
    · intro e' he' failed
      rcases List.mem_append.mp he' with he' | he'
      · exact .inl ((going e' he').1 failed)
      · obtain rfl := List.mem_singleton.mp he'
        exact .inr rfl
    · exact ih (count + 1) (going.told (c := .makeCollection d) made id (.inr rfl))
        (vacant.append _)

/-- The walk to the parent of the master path looks above it and then creates. -/
theorem ensureParent_keeps {mode : UInt32} {start : String} (going : Going master .moving past)
    (vacant : Vacant master past) :
    (onCatalog (Catalog.onCollections (Directory.ensureParent start master mode))).Keeps
      (Allowed obj master) (Walked master) past := by
  unfold Directory.ensureParent Directory.parentAndName
  cases hsplit : Path.split? master with
  | none => exact walked_of_going going vacant _
  | some parts =>
    obtain ⟨parent, leaf⟩ := parts
    simp only [Directory.ensure_eq]
    cases hroute : Directory.route? start parent with
    | none => exact walked_of_going going vacant _
    | some route =>
      simp only [onCatalog, Catalog.onCollections, Dialogue.left, Dialogue.translate_bind]
      have above : ∀ d ∈ route.reverse, Path.Above d master := fun d hd =>
        Path.above_of_mem_route hroute hsplit d (List.mem_reverse.mp hd)
      apply (survey_keeps above [] going vacant).bind
      rintro (e | missing) past' ⟨going, vacant⟩
      · exact walked_of_going going vacant _
      · exact create_keeps missing 0 going vacant

theorem move_keeps (rules : Rules) (going : Going master .moving past)
    (vacant : Vacant master past) :
    (move rules obj master).run.Keeps (Allowed obj master) (Blamed master) past := by
  have room : (makeRoom rules master).run.Keeps (Allowed obj master)
      (fun r past => Walked master r past ∧ ∀ e, r = .error e → e.step? = some .collCreate)
      past := by
    apply (ensureParent_keeps going vacant).bind
    rintro (e | n) past' walked
    · refine ⟨walked, ?_⟩
      rintro e' ⟨⟩
      rfl
    · refine ⟨walked, ?_⟩
      rintro e' ⟨⟩
  unfold move
  apply room.attempt_bind
  · rintro e past' ⟨stopped, step⟩ e' he' failed final
    refine ⟨e, rfl, ?_⟩
    rw [step e rfl, (stopped e' he' failed).resolve_left final]
  · rintro u past' ⟨⟨going, vacant⟩, -⟩
    refine ask_keeps going (.inr rfl) ⟨rfl, rfl, vacant⟩ rfl fun moved => ?_
    exact going.blamed fun failed => absurd failed not_failed_told

theorem object_keeps (rules : Rules) {current coll : String}
    (hpath : destination obj current coll = .ok master) :
    (object rules obj current coll).run.Keeps (Allowed obj master) (Blamed master) [] := by
  have start (b : Branch) : Going master b [] := fun e he => absurd he List.not_mem_nil
  unfold object
  rw [hpath]
  refine known_keeps (start .moving) fun path known => ?_
  cases known
  refine ⟨(start .moving).allowed (.inl rfl) trivial, ?_⟩
  rintro (e | id)
  · cases e with
    | noRows =>
      refine move_keeps rules ((start .moving).append (fun _ => .inr ⟨rfl, rfl⟩) id (.inl rfl)) ?_
      exact .inr List.mem_cons_self
    | failed status message => exact (start .moving).blamed fun _ => .inr ⟨_, rfl, rfl⟩
  · cases id with
    | none =>
      refine move_keeps rules ((start .moving).told (c := .identify master) none id (.inl rfl)) ?_
      exact .inl List.mem_cons_self
    | some number =>
      exact reconcile_keeps rules fun b =>
        (start b).told (c := .identify master) (some number) id (.inl rfl)

/-! What the rule says of a whole run. -/

/-- The trace of a merge that ends with the result is in order. -/
structure Disciplined (obj master : String) (trace : List (Exchange interface))
    (r : Except Error Outcome) : Prop where
  unlinked : ∀ before path force answer after,
    trace = before ++ ⟨.inl (.remove path force), answer⟩ :: after →
      path = obj ∧ Registered obj master before
  commanded : ∀ before q answer after, trace = before ++ ⟨.inr q, answer⟩ :: after →
    Agreed obj master before
  marked : ∀ before path name value answer after,
    trace = before ++ ⟨.inl (.annotate path name value), answer⟩ :: after →
      path = obj ∧ Disagreed obj master before value ∧
      ∀ e ∈ trace, branch? e.call = none ∨ branch? e.call = some .flagging
  renamed : ∀ before source dest answer after,
    trace = before ++ ⟨.inl (.move source dest), answer⟩ :: after →
      source = obj ∧ dest = master ∧ Vacant master before ∧
      (∀ coll made, ⟨.inl (.makeCollection coll), made⟩ ∈ before → made = .ok ()) ∧ after = [] ∧
      ∀ e ∈ trace, branch? e.call = none ∨ branch? e.call = some .moving
  aborted : ∀ before e after, trace = before ++ e :: after → Failed e → ¬ Tolerated master e →
    after = [] ∧ ∃ error, r = .error error ∧ error.step? = some (stepOf e.call)

section
variable {trace : List (Exchange interface)}
  (allowed : ∀ before e after, trace = before ++ e :: after → Allowed obj master before e.call)
include allowed

theorem branch_of_allowed {e e' : Exchange interface} (he : e ∈ trace) (he' : e' ∈ trace)
    (hb : branch? e.call = some b) : branch? e'.call = none ∨ branch? e'.call = some b := by
  cases hb' : branch? e'.call with
  | none => exact .inl rfl
  | some b' =>
    obtain ⟨before, after, rfl⟩ := List.append_of_mem he
    rcases List.mem_append.mp he' with he' | he'
    · have := (allowed before e after rfl).branch e' he' b' b hb' hb
      exact .inr (congrArg some this)
    rcases List.mem_cons.mp he' with rfl | he'
    · exact .inr (hb'.symm.trans hb)
    obtain ⟨mid, rest, rfl⟩ := List.append_of_mem he'
    have := (allowed (before ++ e :: mid) e' rest (by simp)).branch e (by simp) b b' hb hb'
    exact .inr (congrArg some this.symm)

theorem eq_nil_of_allowed {before after : List (Exchange interface)} {e : Exchange interface}
    (split : trace = before ++ e :: after)
    (last : Final e.call ∨ Failed e ∧ ¬ Tolerated master e) : after = [] := by
  cases after with
  | nil => rfl
  | cons e' rest =>
    have next := allowed (before ++ [e]) e' rest (by simp [split])
    have mem : e ∈ before ++ [e] := List.mem_append_right before List.mem_cons_self
    rcases last with final | ⟨failed, final⟩
    · exact absurd final (next.ongoing e mem)
    · exact absurd (next.settled e mem failed) final

theorem disciplined_of_allowed {r : Except Error Outcome} (blamed : Blamed master r trace) :
    Disciplined obj master trace r where
  unlinked before path force answer after split := (allowed before _ after split).earned
  commanded before q answer after split := (allowed before _ after split).earned
  marked before path name value answer after split := by
    obtain ⟨rfl, differ⟩ := (allowed before _ after split).earned
    have mem : ⟨.inl (.annotate path name value), answer⟩ ∈ trace := by
      simp [split]
    exact ⟨rfl, differ, fun e he => branch_of_allowed allowed mem he rfl⟩
  renamed before source dest answer after split := by
    have rule := allowed before _ after split
    obtain ⟨rfl, rfl, vacant⟩ := rule.earned
    have mem : ⟨.inl (.move source dest), answer⟩ ∈ trace := by
      simp [split]
    refine ⟨rfl, rfl, vacant, ?_, eq_nil_of_allowed allowed split (.inl trivial),
      fun e he => branch_of_allowed allowed mem he rfl⟩
    rintro coll (e | made) hmade
    · exact absurd (rule.settled _ hmade ⟨e, rfl⟩) id
    · rfl
  aborted before e after split failed final := by
    refine ⟨eq_nil_of_allowed allowed split (.inr ⟨failed, final⟩), ?_⟩
    exact blamed e (by rw [split]; simp) failed final

end

/-- Against any catalog and any hosts, a merge calls nothing if it has no master path, and keeps
the order of its steps if it has one. -/
theorem object_disciplined {σ : Type} (serve : Server σ interface) (s : σ) (rules : Rules)
    (obj current coll : String) :
    let merge := (object rules obj current coll).run
    match destination obj current coll with
    | .error e => merge.exchanges serve s = [] ∧ (merge.run serve s).1 = .error e
    | .ok master => Disciplined obj master (merge.exchanges serve s) (merge.run serve s).1 := by
  intro merge
  cases hpath : destination obj current coll with
  | error e =>
    have stop : merge = .done (.error e) := by
      simp only [merge, object, hpath]
      rfl
    rw [stop]
    exact ⟨rfl, rfl⟩
  | ok master =>
    obtain ⟨allowed, blamed⟩ := (object_keeps rules hpath).exchanges serve s
    simp only [List.nil_append] at allowed blamed
    exact disciplined_of_allowed allowed blamed

end DataGrid.Merge
