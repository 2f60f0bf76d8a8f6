import DataGrid.Proofs.Merge.Batch
import DataGrid.Proofs.Merge.Destination

/-! A batch against merges one by one. A batch takes the trailing slashes off both names and then
merges its paths with what is left; a merge by itself is given the names as they are spelled. The
two agree for every spelling, except that no name is left of the root: a batch from there refuses
each path, and merges by themselves do not. -/
namespace DataGrid.Merge
variable {σ : Type} {rules : Rules} {current master p path : String}

/-! The merges of a batch. -/

/-- A merge in a batch: the state that it finds, its result and the state that it leaves. -/
structure Tried (σ : Type) where
  path : String
  found : σ
  result : Except Error Outcome
  left : σ

/-- The merges of a batch, each in the state that the one before has left. -/
def tries (steps : Server σ interface) (rules : Rules) (current master : String) :
    List String → σ → List (Tried σ)
  | [], _ => []
  | p :: ps, s =>
    let out := (object rules p current master).run.run steps s
    ⟨p, s, out.1, out.2⟩ :: tries steps rules current master ps out.2

theorem run_results_eq_tries (steps : Server σ interface) (ps : List String) (s : σ) :
    ((results rules current master ps).run steps s).1 =
      (tries steps rules current master ps s).map fun t => (t.path, t.result) := by
  induction ps generalizing s with
  | nil => rfl
  | cons p ps ih =>
    rw [results, Dialogue.run_bind, Dialogue.run_bind, tries, List.map_cons, ← ih]
    rfl

theorem run_of_mem_tries {steps : Server σ interface} {ps : List String} {s : σ} {t : Tried σ}
    (h : t ∈ tries steps rules current master ps s) :
    (object rules t.path current master).run.run steps t.found = (t.result, t.left) := by
  induction ps generalizing s with
  | nil => exact absurd h List.not_mem_nil
  | cons p ps ih =>
    rcases List.mem_cons.mp h with rfl | later
    · rfl
    · exact ih later

/-- A batch that reports has listed its paths, and the report counts what came of the merges. -/
theorem merges_of_report {queries : Server σ Query.interface} {steps : Server σ interface}
    {s s' : σ} {budget : Nat} {report : Report}
    (reported : (collection rules budget current master).run (queries.sum steps) s =
      (some (.ok report), s')) :
    ∃ paths mid, (list rules budget (Path.trim current)).run queries s =
        (some (.ok paths), mid) ∧
      let merges := tries steps rules (Path.trim current) (Path.trim master)
        (candidates (Path.trim current) (Path.trim master) paths) mid
      report = tally (merges.map fun t => (t.path, t.result)) := by
  by_cases refused : Refused current master
  · obtain ⟨message, h⟩ := names_of_refused refused
    rw [collection, h] at reported
    cases reported
  rw [collection, names_of_not_refused refused] at reported
  simp only [Dialogue.run_bind, Dialogue.run_left] at reported
  rcases read : (list rules budget (Path.trim current)).run queries s with
    ⟨none | e | paths, mid⟩ <;> rw [read] at reported
  · cases reported
  · cases reported
  · refine ⟨paths, mid, rfl, ?_⟩
    simp only [each_eq_results, Dialogue.run_bind, Dialogue.run_right, foldl_record,
      run_results_eq_tries] at reported
    cases reported
    rfl

/-! One merge, with the names as they are and without their trailing slashes. -/

/-- The same outcome in the same state, or errors with one code and one step. -/
def Agrees : Except Error Outcome × σ → Except Error Outcome × σ → Prop
  | (.ok a, s), (.ok b, t) => a = b ∧ s = t
  | (.error e, s), (.error f, t) => e.code = f.code ∧ e.step? = f.step? ∧ s = t
  | _, _ => False

theorem Agrees.refl (out : Except Error Outcome × σ) : Agrees out out := by
  obtain ⟨e | a, s⟩ := out
  · exact ⟨rfl, rfl, rfl⟩
  · exact ⟨rfl, rfl⟩

/-- Nothing agrees with a refusal but a refusal. -/
theorem agrees_refusal_iff {message : String} {s : σ} {out : Except Error Outcome × σ} :
    Agrees (.error (.input message), s) out ↔ ∃ message, out = (.error (.input message), s) := by
  obtain ⟨e | a, t⟩ := out
  · cases e <;> simp [Agrees, Error.code, Error.step?, eq_comm]
  · simp [Agrees]

theorem destination_trim (left : Path.trim current ≠ "") :
    destination p (Path.trim current) (Path.trim master) = .ok path ↔
      destination p current master = .ok path := by
  have filled : current ≠ "" := by
    rintro rfl
    exact left rfl
  have chars (name : String) :
      Path.trimChars (Path.trim name).toList = Path.trimChars name.toList := by
    rw [Path.trim, String.toList_ofList, Path.trimChars_trimChars]
  rw [destination_eq_ok_iff, destination_eq_ok_iff, chars, chars]
  simp only [ne_eq, left, filled, not_false_eq_true, true_and]

/-- Without a name there is no master path. -/
theorem destination_nameless (p master : String) :
    ∃ message, destination p "" master = .error (.input message) := by
  unfold destination
  rw [if_pos (by simp)]
  exact ⟨_, rfl⟩

/-- The names agree with their spellings if a name is left, and else where the merge is refused. -/
theorem agrees_trim_iff (steps : Server σ interface) (s : σ) :
    Agrees ((object rules p (Path.trim current) (Path.trim master)).run.run steps s)
      ((object rules p current master).run.run steps s) ↔
    Path.trim current ≠ "" ∨
      ∃ message, (object rules p current master).run.run steps s =
        (.error (.input message), s) := by
  by_cases left : Path.trim current = ""
  · obtain ⟨message, nameless⟩ := destination_nameless p (Path.trim master)
    rw [left, object_of_error rules nameless, Dialogue.run_done, agrees_refusal_iff]
    simp
  simp only [ne_eq, left, not_false_eq_true, true_or, iff_true]
  -- The two messages of a refusal may differ: one of the names can be blank without its slashes.
  cases spelled : destination p current master with
  | ok path =>
    have same : object rules p (Path.trim current) (Path.trim master) =
        object rules p current master := by
      unfold object
      rw [spelled, (destination_trim left).mpr spelled]
    rw [same]
    exact .refl _
  | error e =>
    obtain ⟨message, rfl⟩ := input_of_destination spelled
    rw [object_of_error rules spelled, Dialogue.run_done]
    cases trimmed : destination p (Path.trim current) (Path.trim master) with
    | ok path =>
      have := (destination_trim left).mp trimmed
      simp [spelled] at this
    | error e =>
      obtain ⟨message', rfl⟩ := input_of_destination trimmed
      rw [object_of_error rules trimmed, Dialogue.run_done]
      exact agrees_refusal_iff.mpr ⟨message, rfl⟩

/-- Against any catalog and any hosts, each merge of a batch agrees with the merge by itself in
the state that the batch has come to, if a name is left of the current collection without its
slashes, and else where the merge by itself is refused as well. -/
theorem batch_agrees_iff (queries : Server σ Query.interface) (steps : Server σ interface)
    (rules : Rules) (budget : Nat) (current master : String) (s s' : σ) (report : Report)
    (reported : (collection rules budget current master).run (queries.sum steps) s =
      (some (.ok report), s')) :
    ∃ paths mid, (list rules budget (Path.trim current)).run queries s =
        (some (.ok paths), mid) ∧
      let merges := tries steps rules (Path.trim current) (Path.trim master)
        (candidates (Path.trim current) (Path.trim master) paths) mid
      report = tally (merges.map fun t => (t.path, t.result)) ∧
      ∀ t ∈ merges, (Agrees (t.result, t.left)
          ((object rules t.path current master).run.run steps t.found) ↔
        Path.trim current ≠ "" ∨ ∃ message, (object rules t.path current master).run.run steps
          t.found = (.error (.input message), t.found)) := by
  obtain ⟨paths, mid, read, counted⟩ := merges_of_report reported
  refine ⟨paths, mid, read, counted, fun t tried => ?_⟩
  rw [← run_of_mem_tries tried]
  exact agrees_trim_iff steps t.found

namespace Sample

/-- A listing of one page, on which there is one object. -/
def onePage : Server (Catalog.Memory × Unit) Query.interface :=
  fun _ s => (.ok ⟨[["/z/c", "x"]], 0, 2⟩, s)

def batch (current master : String) : Option (Except Error Report) × (Catalog.Memory × Unit) :=
  (collection .usual 1 current master).run (onePage.sum (world willing)) (catalog ["/z/c/x"], ())

end Sample

/-- Slashes after both names. -/
theorem batch_agrees_after_slashes : ∃ t : Tried (Catalog.Memory × Unit),
    (Sample.batch "/z/c/" "/z/m//").1 = some (.ok { moved := 1 }) ∧
    t.result matches .ok (.moved _) ∧
    Agrees (t.result, t.left)
      ((object .usual t.path "/z/c/" "/z/m//").run.run (world Sample.willing) t.found) := by
  have moved : (Sample.batch "/z/c/" "/z/m//").1 = some (.ok { moved := 1 }) := by
    decide +kernel
  obtain ⟨paths, mid, read, counted, agrees⟩ := batch_agrees_iff Sample.onePage
    (world Sample.willing) .usual 1 "/z/c/" "/z/m//" (Sample.catalog ["/z/c/x"], ()) _ _
    (Prod.ext moved rfl)
  have one := congrArg Report.moved counted
  rw [tally, List.countP_map] at one
  obtain ⟨t, tried, kind⟩ := List.countP_pos_iff.mp (Nat.lt_of_lt_of_eq Nat.one_pos one)
  exact ⟨t, moved, kind, (agrees t tried).mpr (.inl (by decide))⟩

/-- From the root the batch refuses what a merge by itself moves. -/
theorem batch_from_root_refuses :
    (Sample.batch "/" "/z/m").1 = some (.ok { failures :=
      [⟨"/z/c/x", .input "object path and collection names must be non-empty"⟩] }) ∧
    ((object .usual "/z/c/x" "/" "/z/m").run.run (world Sample.willing)
      (Sample.catalog ["/z/c/x"], ())).1 = .ok (.moved "/z/m/z/c/x") := by
  decide +kernel

end DataGrid.Merge
