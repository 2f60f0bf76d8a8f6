import DataGrid.Proofs.Cursor.Listing
import DataGrid.Proofs.Merge.Phases
import DataGrid.Proofs.Merge.World
import DataGrid.Proofs.Text.ByteOrder
import Mathlib.Data.List.Induction
import Std.Data.TreeSet.Lemmas

/-! A batch merges each listed object once. The listing is read to its end before anything else is
asked; if it fails, so does the batch. What it names is put in order, each path once, and the
merges follow one another, whatever becomes of them. The report counts the outcomes of each kind
and keeps the failures in order. -/
namespace DataGrid.Merge
open Query (Row)
open Dialogue (Exchange Runs)
open Cursor (Listing)

variable {σ : Type} {rules : Rules} {current master coll p : String} {paths : Paths}

/-! The paths. -/

/-- The path of the object that a row names, if it lies in the tree of `coll`. -/
def Names (coll : String) (row : Row) (path : String) : Prop :=
  ∃ c name more, row = c :: name :: more ∧ Path.within c coll = true ∧
    path = Path.trim c ++ "/" ++ name

/-- A path below a master that is itself in the tree of the current collection. -/
def Settled (current master path : String) : Prop :=
  Path.within master current = true ∧ (master ++ "/").toList <+: path.toList

theorem mem_listRow {row : Row} : p ∈ listRow coll paths row ↔ Names coll row p ∨ p ∈ paths := by
  unfold listRow Names
  split
  · next c name more =>
    split
    · next inside =>
      rw [Std.TreeSet.mem_insert, Std.compare_eq_iff_eq, eq_comm]
      simp [inside]
    · next outside => simp [outside]
  · next short =>
    have unnamed : ¬ ∃ c name more, row = c :: name :: more ∧ Path.within c coll = true ∧
        p = Path.trim c ++ "/" ++ name := by
      rintro ⟨c, name, more, rfl, -⟩
      exact short c name more rfl
    simp only [unnamed, false_or]

theorem mem_foldl_listRow {rows : List Row} :
    p ∈ rows.foldl (listRow coll) paths ↔ (∃ row ∈ rows, Names coll row p) ∨ p ∈ paths := by
  induction rows generalizing paths with
  | nil => simp
  | cons row rows ih =>
    rw [List.foldl_cons, ih, mem_listRow, List.exists_mem_cons_iff, or_assoc, or_left_comm]

theorem mem_candidates :
    p ∈ candidates current master paths ↔ p ∈ paths ∧ ¬ Settled current master p := by
  unfold candidates Settled
  rw [List.mem_filter, Std.TreeSet.mem_toList, Bool.not_eq_true', ← Bool.not_eq_true,
    Bool.and_eq_true, List.isPrefixOf_iff_prefix]

theorem candidates_ascending (current master : String) (paths : Paths) :
    (candidates current master paths).Pairwise fun p q => Text.bytes p < Text.bytes q := by
  have ordered : paths.toList.Pairwise fun p q => compare p q = .lt :=
    Std.TreeSet.ordered_toList
  refine (ordered.imp fun before => ?_).filter _
  exact Text.bytes_lt_bytes (compareOfLessAndEq_eq_lt.mp before)

/-! The report. -/

/-- The outcomes of each kind, counted, and the failures in order. -/
def tally (outcomes : List (String × Except Error Outcome)) : Report where
  moved := outcomes.countP fun out => out.2 matches .ok (.moved _)
  linked := outcomes.countP fun out => out.2 matches .ok (.linked _ _)
  flagged := outcomes.countP fun out => out.2 matches .ok (.flagged _)
  checksumUnavailable := outcomes.countP fun out => out.2 matches .ok (.checksumUnavailable _ _)
  failures := outcomes.filterMap fun out =>
    match out.2 with
    | .error e => some ⟨out.1, e⟩
    | .ok _ => none

theorem tally_concat (outcomes : List (String × Except Error Outcome)) (p : String)
    (r : Except Error Outcome) : tally (outcomes ++ [(p, r)]) = (tally outcomes).record p r := by
  rcases r with e | (_ | _ | _ | _) <;> simp [tally, Report.record]

theorem foldl_record (outcomes : List (String × Except Error Outcome)) :
    outcomes.foldl (fun report out => report.record out.1 out.2) {} = tally outcomes := by
  induction outcomes using List.reverseRecOn with
  | nil => rfl
  | append_singleton outcomes out ih => rw [List.foldl_concat, ih, tally_concat]

theorem total_tally (outcomes : List (String × Except Error Outcome)) :
    (tally outcomes).total = outcomes.length := by
  induction outcomes using List.reverseRecOn with
  | nil => rfl
  | append_singleton outcomes out ih =>
    rw [tally_concat, List.length_append, List.length_singleton, ← ih]
    obtain ⟨p, e | (_ | _ | _ | _)⟩ := out <;> simp [Report.record, Report.total] <;> omega

theorem map_fst_run_results (steps : Server σ interface) (ps : List String) (s : σ) :
    ((results rules current master ps).run steps s).1.map Prod.fst = ps := by
  induction ps generalizing s with
  | nil => rfl
  | cons p ps ih =>
    rw [results, Dialogue.run_bind, Dialogue.run_bind]
    exact congrArg (p :: ·) (ih _)

theorem runs_each {steps : Server σ interface} {ps : List String} {s s' : σ}
    {merged : List (Exchange interface)} {outcomes : List (String × Except Error Outcome)}
    (h : Runs steps (results rules current master ps) s merged outcomes s') :
    Runs steps (each rules current master ps {}) s merged (tally outcomes) s' := by
  rw [each_eq_results, ← foldl_record, ← List.append_nil merged]
  exact h.bind (Dialogue.runs_done _ _ _)

/-! Whole batches. -/

/-- What the catalog answers to the listing of a collection. -/
abbrev Listed (queries : Server σ Query.interface) (rules : Rules) (coll : String) :
    σ → List (Exchange Query.interface) → Except Error (List Row) → σ → Prop :=
  Listing queries ["COLL_NAME", "DATA_NAME"] [.inTree "COLL_NAME" coll] rules.pageRows 0

variable {queries : Server σ Query.interface} {steps : Server σ interface} {s s' : σ}
  {asked : List (Exchange Query.interface)} {listing : Except Error (List Row)} {budget : Nat}

theorem runs_list (h : Listed queries rules coll s asked listing s')
    (enough : asked.length ≤ budget) :
    Runs queries (list rules budget coll) s asked
      (some (listing.map fun rows => rows.foldl (listRow coll) ∅)) s' := by
  obtain ⟨d, runs, same⟩ := Cursor.drain_of_listing (listRow coll) (by simp) h enough ∅
  rw [← same, list, ← List.append_nil asked]
  exact runs.bind (Dialogue.runs_done _ _ _)

/-- Names that are refused: one is blank, or both are of the same collection. -/
def Refused (current master : String) : Prop :=
  Text.allBlank current = true ∨ Text.allBlank master = true ∨ Path.trim current = Path.trim master

theorem names_of_refused (h : Refused current master) :
    ∃ message, names current master = .error (.input message) := by
  unfold names
  by_cases blank : (Text.allBlank current || Text.allBlank master) = true
  · exact ⟨_, if_pos blank⟩
  · rw [if_neg blank]
    rw [Bool.or_eq_true, not_or] at blank
    have same := (h.resolve_left blank.1).resolve_left blank.2
    exact ⟨_, if_pos same⟩

theorem names_of_not_refused (h : ¬ Refused current master) :
    names current master = .ok (Path.trim current, Path.trim master) := by
  simp only [Refused, not_or] at h
  obtain ⟨filled, filled', apart⟩ := h
  simp [names, filled, filled', apart]

/-- The paths that a batch merges, in the order of their bytes. -/
structure Picked (rows : List Row) (current master : String) (ps : List String) : Prop where
  mem_iff : ∀ p, p ∈ ps ↔ (∃ row ∈ rows, Names current row p) ∧ ¬ Settled current master p
  ascending : ps.Pairwise fun p q => Text.bytes p < Text.bytes q

theorem picked_candidates (rows : List Row) (current master : String) :
    Picked rows current master (candidates current master (rows.foldl (listRow current) ∅)) where
  mem_iff p := by simp [mem_candidates, mem_foldl_listRow]
  ascending := candidates_ascending current master _

/-- Names that are blank or of one collection are refused before anything is asked. Otherwise the
listing comes first, and its error is that of the batch. If it succeeds, each path that is picked
is merged exactly once, in order and whatever became of the others, and the report counts what came
of it. -/
theorem collection_merges_each_listed (queries : Server σ Query.interface)
    (steps : Server σ interface) (rules : Rules) (current master : String) (s : σ) (budget : Nat) :
    (Refused current master → ∃ message, Runs (queries.sum steps)
      (collection rules budget current master) s [] (some (.error (.input message))) s) ∧
    (¬ Refused current master → ∀ asked listing mid,
      Listed queries rules (Path.trim current) s asked listing mid → asked.length ≤ budget →
      match listing with
      | .error e => Runs (queries.sum steps) (collection rules budget current master) s
          (asked.map Exchange.left) (some (.error e)) mid
      | .ok rows => ∃ ps merged outcomes s',
          Picked rows (Path.trim current) (Path.trim master) ps ∧
          Runs steps (results rules (Path.trim current) (Path.trim master) ps) mid merged
            outcomes s' ∧
          outcomes.map Prod.fst = ps ∧ (tally outcomes).total = ps.length ∧
          Runs (queries.sum steps) (collection rules budget current master) s
            (asked.map Exchange.left ++ merged.map Exchange.right) (some (.ok (tally outcomes)))
            s') := by
  refine ⟨fun refused => ?_, fun accepted asked listing mid listed enough => ?_⟩
  · obtain ⟨message, h⟩ := names_of_refused refused
    rw [collection, h]
    exact ⟨message, Dialogue.runs_done _ _ _⟩
  · have read := (runs_list listed enough).left steps
    rw [collection, names_of_not_refused accepted]
    cases listing with
    | error e =>
      rw [← List.append_nil (asked.map Exchange.left)]
      exact read.bind (Dialogue.runs_done _ _ _)
    | ok rows =>
      let ps := candidates (Path.trim current) (Path.trim master)
        (rows.foldl (listRow (Path.trim current)) ∅)
      let merges := results rules (Path.trim current) (Path.trim master) ps
      have order : (merges.run steps mid).1.map Prod.fst = ps := map_fst_run_results steps ps mid
      have ran := Dialogue.runs_run steps merges mid
      refine ⟨ps, _, _, _, picked_candidates rows _ _, ran, order, ?_, ?_⟩
      · rw [total_tally, ← List.length_map, order]
      · refine read.bind ?_
        rw [← List.append_nil (List.map Exchange.right _)]
        exact ((runs_each ran).right queries).bind (Dialogue.runs_done _ _ _)

/-- A listing of two pages. -/
def Sample.twoPages : Server (Catalog.Memory × Unit) Query.interface := fun r s =>
  if r.continueIndex = 0 then (.ok ⟨[["/z/c/", "b"], ["/z/cc", "x"]], 4, 2⟩, s)
  else (.ok ⟨[["/z/c", "a", "more"], ["/z/c"]], 0, 2⟩, s)

/-- No object that is listed exists, and yet a merge of each is tried. -/
theorem stale_listing_is_worked_off :
    (∃ message, Runs (Sample.twoPages.sum (world Sample.willing))
      (collection .usual 2 "/z/c" "/z/c/") (Sample.catalog [], ()) []
      (some (.error (.input message))) (Sample.catalog [], ())) ∧
    ¬ Refused "/z/c/" "/z/m" ∧
    ∃ (asked : List (Exchange Query.interface)) (ps : List String)
      (merged : List (Exchange interface)) (outcomes : List (String × Except Error Outcome))
      (s' : Catalog.Memory × Unit),
      Picked [["/z/c/", "b"], ["/z/cc", "x"], ["/z/c", "a", "more"], ["/z/c"]] "/z/c" "/z/m" ps ∧
      outcomes.map Prod.fst = ps ∧
      Runs (Sample.twoPages.sum (world Sample.willing)) (collection .usual 2 "/z/c/" "/z/m")
        (Sample.catalog [], ()) (asked.map Exchange.left ++ merged.map Exchange.right)
        (some (.ok (tally outcomes))) s' := by
  have same : Refused "/z/c" "/z/c/" := .inr (.inr (by decide))
  have apart : ¬ Refused "/z/c/" "/z/m" := by
    rw [Refused]
    decide
  have listed : Listed Sample.twoPages .usual "/z/c" (Sample.catalog [], ()) _ _ _ :=
    .more rfl (by decide) (.last rfl (by decide))
  obtain ⟨refused, -⟩ := collection_merges_each_listed Sample.twoPages (world Sample.willing)
    .usual "/z/c" "/z/c/" (Sample.catalog [], ()) 2
  obtain ⟨-, accepted⟩ := collection_merges_each_listed Sample.twoPages (world Sample.willing)
    .usual "/z/c/" "/z/m" (Sample.catalog [], ()) 2
  obtain ⟨ps, merged, outcomes, s', picked, -, order, -, runs⟩ :=
    accepted apart _ _ _ listed (by decide)
  exact ⟨refused same, apart, _, ps, merged, outcomes, s', picked, order, runs⟩

end DataGrid.Merge
