import DataGrid.Proofs.Cursor.Paging
import DataGrid.Proofs.Directory.Places
import DataGrid.Proofs.Query.TreeCondition
import DataGrid.Query.Report
import Mathlib.Algebra.BigOperators.Group.List.Lemmas
import Mathlib.Algebra.Ring.Nat

/-! What the report on the contents of a collection says. The condition of its query lets in every
row of the tree and some others, the pages hand over all rows that it lets in, and the others are
passed over; so each object in the tree is counted once, under its type. The one thing that keeps
the report from an answer is a name whose pattern the engine does not take, once it is tried. -/
namespace DataGrid.Query
open Catalog Memory Predicate
open Cursor (Listing)
open Dialogue (Exchange)

variable {takes : Engine} {coll path : String} {o : DataObject} {types : List String}
  {counts : Counts} {m : Memory} {rows : List Row}

/-! Counting. -/

def tally (counts : Counts) (dataType : String) : Counts :=
  counts.insert dataType (counts.getD dataType 0 + 1)

/-- The type of the object in a row, if the object is in the tree. -/
def rowType? (coll : String) : Row → Option String
  | c :: dataType :: _ => if Path.within c coll then some dataType else none
  | _ => none

theorem foldl_countRow (coll : String) (rows : List Row) (counts : Counts) :
    rows.foldl (countRow coll) counts = (rows.filterMap (rowType? coll)).foldl tally counts := by
  induction rows generalizing counts with
  | nil => rfl
  | cons row rows ih =>
    rw [List.foldl_cons, ih]
    rcases row with _ | ⟨c, _ | ⟨dataType, row⟩⟩
    · rfl
    · rfl
    · by_cases within : Path.within c coll = true
      · simp [countRow, rowType?, within, tally]
      · simp [countRow, rowType?, within]

theorem getElem?_foldl_tally (types : List String) (counts : Counts) (t : String) :
    (types.foldl tally counts)[t]? =
      if types.count t = 0 then counts[t]? else some (counts.getD t 0 + types.count t) := by
  induction types generalizing counts with
  | nil => simp
  | cons s types ih =>
    rw [List.foldl_cons, ih, tally, Std.TreeMap.getElem?_insert, Std.TreeMap.getD_insert]
    by_cases same : s = t
    · subst same
      by_cases none : types.count s = 0
      · simp [none]
      · simp [none]
        omega
    · simp [same, List.count_cons_of_ne same]

/-- There is an entry for each type that occurs, with how often it occurs. -/
theorem getElem?_tallied (types : List String) (t : String) :
    (types.foldl tally ∅)[t]? = if types.count t = 0 then none else some (types.count t) := by
  rw [getElem?_foldl_tally]
  simp

/-- The entries add up. -/
theorem sum_tallied (types : List String) :
    ((types.foldl tally ∅).toList.map Prod.snd).sum = types.length := by
  have entry (t : String) (n : Nat) (mem : (t, n) ∈ (types.foldl tally ∅).toList) :
      n = types.count t := by
    rw [Std.TreeMap.mem_toList_iff_getElem?_eq_some, getElem?_tallied] at mem
    split at mem
    · cases mem
    · exact (Option.some.inj mem).symm
  have keys : (types.foldl tally ∅).keys.Perm types.dedup := by
    refine (List.perm_ext_iff_of_nodup Std.TreeMap.nodup_keys types.nodup_dedup).mpr fun t => ?_
    rw [Std.TreeMap.mem_keys, Std.TreeMap.mem_iff_isSome_getElem?, getElem?_tallied,
      List.mem_dedup, ← List.count_pos_iff]
    rcases Nat.eq_zero_or_pos (types.count t) with zero | some
    · simp [zero]
    · simp [some, Nat.ne_of_gt some]
  calc ((types.foldl tally ∅).toList.map Prod.snd).sum
      = ((types.foldl tally ∅).toList.map fun p => types.count p.1).sum := by
        refine congrArg List.sum (List.map_congr_left fun p mem => entry p.1 p.2 mem)
    _ = ((types.foldl tally ∅).keys.map fun t => types.count t).sum := by
        rw [← Std.TreeMap.map_fst_toList_eq_keys, List.map_map]
        rfl
    _ = (types.dedup.map fun t => types.count t).sum := (keys.map _).sum_eq
    _ = types.length := List.sum_map_count_dedup_eq_length types

/-! The condition for the tree. -/

theorem holds_inTree {column v : String} (quoteless : '\'' ∉ coll.toList) :
    holds takes (Condition.inTree column coll).predicate v =
      if v = Path.trim coll then .ok true
      else if takes (Path.trim coll ++ "/%") then .ok (like (Path.trim coll ++ "/%") v)
      else .error (.failed invalidArgument (notTaken (Path.trim coll ++ "/%"))) := by
  have root : '\'' ∉ (Path.trim coll).toList := by
    obtain ⟨slashes, split, -⟩ := Path.exists_append_trimChars coll.toList
    rw [split] at quoteless
    simpa [Path.trim] using fun mem => quoteless (List.mem_append_left slashes mem)
  exact holds_eq_of_even (by rw [List.count_eq_zero.mpr root]) (uncut_of_not_mem root) v

/-- A value in the tree on a single line is accepted, unless the pattern is refused. -/
theorem holds_inTree_of_within {column v : String} (quoteless : '\'' ∉ coll.toList)
    (answers : v = Path.trim coll ∨ takes (Path.trim coll ++ "/%") = true)
    (within : Path.within v coll = true) (line : '\n' ∉ v.toList) :
    holds takes (Condition.inTree column coll).predicate v = .ok true := by
  rw [holds_inTree quoteless]
  by_cases same : v = Path.trim coll
  · rw [if_pos same]
  · rw [if_neg same, if_pos (answers.resolve_left same)]
    obtain ⟨rest, split, first⟩ := exists_below within
    cases rest with
    | nil => exact absurd (by rw [← String.toList_inj, split, List.append_nil]) same
    | cons c rest =>
      obtain rfl : c = '/' := first c rfl
      have free : '\n' ∉ rest := fun mem => line (by simp [split, mem])
      have fits := (fits_below_iff (Path.trim coll).toList rest).mpr free
      rw [← split, ← like_iff, String.ofList_append, String.ofList_toList] at fits
      exact congrArg Except.ok fits

/-! The row of an object. -/

theorem cell?_collection (path : String) (o : DataObject) :
    cell? path o "COLL_NAME" = some (Path.parent path) := by
  have name : Text.upper "COLL_NAME" = "COLL_NAME" := by decide
  simp [cell?, name]

theorem cell?_dataType (path : String) (o : DataObject) :
    cell? path o "DATA_TYPE_NAME" = some ((o.primary?.map Replica.dataType).getD "") := by
  have name : Text.upper "DATA_TYPE_NAME" = "DATA_TYPE_NAME" := by decide
  simp [cell?, name]

theorem cell?_id (path : String) (o : DataObject) :
    cell? path o "DATA_ID" = some (toString o.id) := by
  have name : Text.upper "DATA_ID" = "DATA_ID" := by decide
  simp [cell?, name]

theorem meets_inTree (takes : Engine) (coll path : String) (o : DataObject) :
    meets takes path o [.inTree "COLL_NAME" coll] =
      holds takes (Condition.inTree "COLL_NAME" coll).predicate (Path.parent path) := by
  have value : cell path o (Condition.inTree "COLL_NAME" coll).column = .ok (Path.parent path) := by
    rw [cell, show (Condition.inTree "COLL_NAME" coll).column = "COLL_NAME" from rfl,
      cell?_collection]
  rw [meets, value]
  cases answer : holds takes (Condition.inTree "COLL_NAME" coll).predicate (Path.parent path) with
  | error e => simp [bind, Except.bind, answer]
  | ok b => cases b <;> simp [bind, Except.bind, answer, meets, pure, Except.pure]

theorem report_row (path : String) (o : DataObject) :
    reportColumns.mapM (cell path o) =
      .ok [Path.parent path, (o.primary?.map Replica.dataType).getD "", toString o.id] := by
  simp [reportColumns, cell, cell?_collection, cell?_dataType, cell?_id, pure, Except.pure, bind,
    Except.bind]

/-! What there is to count. -/

/-- The type of an object, if it is in the tree. -/
def typeIn? (coll : String) (object : String × DataObject) : Option String :=
  if Path.within (Path.parent object.1) coll then object.2.primary?.map Replica.dataType else none

/-- The number of objects of a type in the tree of a collection. -/
def countOf (m : Memory) (coll dataType : String) : Nat :=
  m.objects.toList.countP fun (path, o) =>
    Path.within (Path.parent path) coll && o.primary?.map Replica.dataType == some dataType

/-- The number of objects in the tree of a collection. -/
def sizeOf (m : Memory) (coll : String) : Nat :=
  m.objects.toList.countP fun (path, _) => Path.within (Path.parent path) coll

/-- The counts are those of the tree: an entry for each type that occurs in it, and no other. -/
structure Tells (m : Memory) (coll : String) (counts : Counts) : Prop where
  each : ∀ dataType, counts[dataType]? =
    if countOf m coll dataType = 0 then none else some (countOf m coll dataType)
  total : (counts.toList.map Prod.snd).sum = sizeOf m coll

/-- The engine takes the pattern for what is below the collection, or nothing is tried on it. -/
def Answerable (m : Memory) (coll : String) : Prop :=
  m.takes (Path.trim coll ++ "/%") = true ∨
    ∀ path ∈ m.objects, Path.parent path = Path.trim coll

theorem exists_primary (filled : o.replicas ≠ []) : ∃ r, o.primary? = some r := by
  obtain ⟨r, rs, replicas⟩ := List.exists_cons_of_ne_nil filled
  unfold DataObject.primary?
  rw [replicas]
  cases (r :: rs).find? fun r => r.freshness == .good with
  | none => exact ⟨r, rfl⟩
  | some good => exact ⟨good, rfl⟩

theorem tells_tallied (copies : ∀ object ∈ m.objects.toList, object.2.replicas ≠ []) :
    Tells m coll ((m.objects.toList.filterMap (typeIn? coll)).foldl tally ∅) := by
  constructor
  · intro t
    have count : (m.objects.toList.filterMap (typeIn? coll)).count t = countOf m coll t := by
      rw [List.count, List.countP_filterMap, countOf]
      refine List.countP_congr fun object mem => ?_
      cases within : Path.within (Path.parent object.1) coll with
      | false => simp [typeIn?, within]
      | true => cases primary : object.2.primary? <;> simp [typeIn?, within, primary]
    rw [getElem?_tallied, count]
  · rw [sum_tallied, List.length_filterMap_eq_countP, sizeOf]
    refine List.countP_congr fun object mem => ?_
    obtain ⟨r, primary⟩ := exists_primary (copies object mem)
    cases within : Path.within (Path.parent object.1) coll <;> simp [typeIn?, within, primary]

theorem line_not_mem_parent (line : '\n' ∉ path.toList) : '\n' ∉ (Path.parent path).toList := by
  by_cases none : Path.parent path = ""
  · simp [none]
  · obtain ⟨leaf, split⟩ := Path.exists_leaf_of_parent none
    rcases (Path.split?_eq_some split).2 with ⟨root, -⟩ | whole
    · rw [root]
      decide
    · exact fun mem => line (by rw [whole]; exact List.mem_append_left _ mem)

theorem mem_objects_of_mem_toList {object : String × DataObject}
    (mem : object ∈ m.objects.toList) : object.1 ∈ m.objects :=
  (mem_objects_iff m object.1).mpr ⟨object.2, Std.TreeMap.mem_toList_iff_getElem?_eq_some.mp mem⟩

section
variable (quoteless : '\'' ∉ coll.toList)
include quoteless

theorem meets_ok (answerable : Answerable m coll) (object : String × DataObject)
    (mem : object ∈ m.objects.toList) :
    ∃ b, meets m.takes object.1 object.2 [.inTree "COLL_NAME" coll] = .ok b := by
  rw [meets_inTree, holds_inTree quoteless]
  by_cases same : Path.parent object.1 = Path.trim coll
  · exact ⟨true, if_pos same⟩
  · have matched := answerable.resolve_right fun all =>
      same (all object.1 (mem_objects_of_mem_toList mem))
    exact ⟨_, by rw [if_neg same, if_pos matched]⟩

theorem meets_ok_or_error (long : ¬ takes (Path.trim coll ++ "/%") = true)
    (object : String × DataObject) :
    (∃ b, meets takes object.1 object.2 [.inTree "COLL_NAME" coll] = .ok b) ∨
      meets takes object.1 object.2 [.inTree "COLL_NAME" coll] =
        .error (.failed invalidArgument (notTaken (Path.trim coll ++ "/%"))) := by
  rw [meets_inTree, holds_inTree quoteless]
  by_cases same : Path.parent object.1 = Path.trim coll
  · exact .inl ⟨true, if_pos same⟩
  · exact .inr ((if_neg same).trans (if_neg long))

theorem rowsOf_refused (refused : ¬ Answerable m coll) :
    rowsOf m.takes reportColumns [.inTree "COLL_NAME" coll] m.objects.toList =
      .error (.failed invalidArgument (notTaken (Path.trim coll ++ "/%"))) := by
  simp only [Answerable, not_or, not_forall] at refused
  obtain ⟨long, path, present, other⟩ := refused
  obtain ⟨o, object⟩ := (mem_objects_iff m path).mp present
  refine rowsOf_error (fun object _ => meets_ok_or_error quoteless long object)
    (fun object _ => ⟨_, report_row object.1 object.2⟩)
    ⟨(path, o), Std.TreeMap.mem_toList_iff_getElem?_eq_some.mpr object, ?_⟩
  rw [meets_inTree, holds_inTree quoteless]
  exact (if_neg other).trans (if_neg long)

/-- The rows that are counted are those of the objects in the tree. -/
theorem filterMap_rowType? (answerable : Answerable m coll)
    (lines : ∀ path ∈ m.objects, '\n' ∉ path.toList)
    (copies : ∀ object ∈ m.objects.toList, object.2.replicas ≠ [])
    (found : rowsOf m.takes reportColumns [.inTree "COLL_NAME" coll] m.objects.toList = .ok rows) :
    rows.filterMap (rowType? coll) = m.objects.toList.filterMap (typeIn? coll) := by
  rw [eq_filterMap_of_rowsOf found, List.filterMap_filterMap]
  refine List.filterMap_congr fun object mem => ?_
  have row := mapM_cell?_of_mapM_cell (report_row object.1 object.2)
  obtain ⟨r, primary⟩ := exists_primary (copies object mem)
  have present := mem_objects_of_mem_toList mem
  cases within : Path.within (Path.parent object.1) coll with
  | true =>
    have answers := answerable.symm.imp_left fun here => here object.1 present
    have line := line_not_mem_parent (lines object.1 present)
    have met : holds m.takes (Condition.inTree "COLL_NAME" coll).predicate (Path.parent object.1) =
        .ok true :=
      holds_inTree_of_within quoteless answers within line
    rw [← meets_inTree m.takes coll object.1 object.2] at met
    simp [selected_of_meets met, row, rowType?, typeIn?, within, primary]
  | false =>
    simp only [row]
    split <;> simp [rowType?, typeIn?, within]

end

/-! The report. -/

theorem run_contentsReport {serve : Server Memory interface} {pageSize : Int32} {budget : Nat}
    {asked : List (Exchange interface)} {listing : Except Error (List Row)} {m' : Memory}
    (named : Text.allBlank coll = false)
    (h : Listing serve reportColumns [.inTree "COLL_NAME" coll] pageSize 0 m asked listing m')
    (enough : asked.length ≤ budget) :
    (contentsReport budget coll pageSize).run serve m =
      (some (listing.map fun rows => rows.foldl (countRow coll) ∅), m') := by
  obtain ⟨d, runs, same⟩ := Cursor.drain_of_listing (countRow coll) (by decide) h enough ∅
  have drained : ((reportCursor coll pageSize).drain (countPage coll) budget ∅).run serve m =
    (some d, m') := runs.2
  rw [contentsReport, named, ← same]
  simp only [Bool.false_eq_true, if_false, Dialogue.run_bind, drained]
  rfl

theorem inTree_congr {coll' : String} (same : Path.trim coll' = Path.trim coll) :
    Condition.inTree "COLL_NAME" coll' = .inTree "COLL_NAME" coll := by
  rw [Condition.inTree, Condition.inTree, same]

theorem countRow_congr {coll' : String} (same : Path.trim coll' = Path.trim coll) :
    countRow coll' = countRow coll := by
  have chars : Path.trimChars coll'.toList = Path.trimChars coll.toList := String.ofList_inj.mp same
  have within (c : String) : Path.within c coll' = Path.within c coll := by
    rw [Path.within, Path.within, chars]
  funext counts row
  unfold countRow
  simp only [within]

theorem run_refused (allowed : m.failures .query = none) (named : Text.allBlank coll = false)
    (quoteless : '\'' ∉ coll.toList) (refused : ¬ Answerable m coll) {pageSize : Int32}
    {budget : Nat} (positive : 0 < pageSize) (enough : m.pageBudget ≤ budget) :
    (contentsReport budget coll pageSize).run serveQuery m =
      (some (.error (.catalog .query (",".intercalate reportColumns) invalidArgument
        (notTaken (Path.trim coll ++ "/%")))), m) := by
  obtain ⟨asked, listing, few⟩ :=
    listing_of_refused allowed positive (rowsOf_refused quoteless refused)
  exact run_contentsReport named listing (Nat.le_trans few enough)

/-- The report counts every object in the tree of the collection under its type and no other, on
pages of any size and whatever slashes follow the name, and leaves nothing behind; unless it is
refused because its engine does not take the pattern. -/
theorem report_counts_tree (reachable : Reachable m) (allowed : m.failures .query = none)
    (named : Text.allBlank coll = false) (quoteless : '\'' ∉ coll.toList)
    (lines : ∀ path ∈ m.objects, '\n' ∉ path.toList) :
    (Answerable m coll → ∃ counts, Tells m coll counts ∧
      ∀ coll' pageSize budget, Path.trim coll' = Path.trim coll → Text.allBlank coll' = false →
        0 < pageSize → m.pageBudget ≤ budget →
        ∃ m', (contentsReport budget coll' pageSize).run serveQuery m = (some (.ok counts), m') ∧
          Restored m m' ∧ m'.pendingQueries = m.pendingQueries) ∧
    (¬ Answerable m coll → ∀ pageSize budget, 0 < pageSize → m.pageBudget ≤ budget →
      (contentsReport budget coll pageSize).run serveQuery m =
        (some (.error (.catalog .query (",".intercalate reportColumns) invalidArgument
          (notTaken (Path.trim coll ++ "/%")))), m)) := by
  have stocked := stocked_of_reachable reachable
  have copies (object : String × DataObject) (mem : object ∈ m.objects.toList) :
      object.2.replicas ≠ [] :=
    ((sound_of_reachable reachable).copies object.1 object.2
      (Std.TreeMap.mem_toList_iff_getElem?_eq_some.mp mem)).1
  constructor
  · intro answerable
    obtain ⟨rows, found⟩ := rowsOf_ok (meets_ok quoteless answerable)
      fun object _ => ⟨_, report_row object.1 object.2⟩
    refine ⟨_, tells_tallied copies, fun coll' pageSize budget same named' positive enough => ?_⟩
    rw [← inTree_congr same] at found
    obtain ⟨asked, m', listing, few, restored⟩ :=
      listing_of_rowsOf allowed positive stocked found
    refine ⟨m', ?_, restored, restored.pendingQueries⟩
    rw [run_contentsReport named' listing (Nat.le_trans few enough), countRow_congr same]
    rw [inTree_congr same] at found
    rw [← filterMap_rowType? quoteless answerable lines copies found, ← foldl_countRow]
    rfl
  · exact fun refused pageSize budget => run_refused allowed named quoteless refused

/-- An object in the tree of a name with wildcards, one that its pattern lets in as well, and two
runs: with a slash after the name and a page for each object, and without. -/
theorem report_counts_names_with_wildcards :
    let m := ((({} : Memory).withReplica (Sample.replica "/z/a_%/x")).2.withReplica
      (Sample.replica "/z/abc/y")).2
    ∃ counts m' m'', Tells m "/z/a_%" counts ∧ countOf m "/z/a_%" "" = 1 ∧
      (contentsReport m.pageBudget "/z/a_%/" 1).run serveQuery m = (some (.ok counts), m') ∧
      (contentsReport m.pageBudget "/z/a_%" 9).run serveQuery m = (some (.ok counts), m'') ∧
      Restored m m' ∧ Restored m m'' := by
  intro m
  have reachable : Reachable m := .replica _ (.replica _ (.empty _ _))
  have lines : ∀ path ∈ m.objects, '\n' ∉ path.toList := by
    simp only [← Std.TreeMap.mem_keys]
    decide +kernel
  have quoteless : '\'' ∉ "/z/a_%".toList := by decide
  obtain ⟨counts, tells, runs⟩ :=
    (report_counts_tree reachable rfl (by decide) quoteless lines).1 (.inl (by decide))
  obtain ⟨m', first, same, -⟩ := runs "/z/a_%/" 1 _ rfl (by decide) (by decide) (Nat.le_refl _)
  obtain ⟨m'', second, same', -⟩ := runs "/z/a_%" 9 _ rfl (by decide) (by decide) (Nat.le_refl _)
  exact ⟨counts, m', m'', tells, by decide +kernel, first, second, same, same'⟩

/-! A name whose pattern is not taken. -/

/-- Patterns with that many single wildcards are too large for the engine. -/
def Limited (takes : Engine) (n : Nat) : Prop :=
  ∀ pattern : String, n ≤ pattern.toList.count '_' → takes pattern = false

/-- A collection with that many wildcards in its name. -/
def Sample.wild (n : Nat) : String := "/z/" ++ String.ofList (List.replicate n '_')

/-- An object two levels below it. -/
def Sample.deep (takes : Engine) (n : Nat) : Memory :=
  (({ takes } : Memory).withReplica
    (Memory.Sample.replica (Sample.wild n ++ "/sub" ++ "/" ++ "x"))).2

variable {n : Nat}

theorem wild_toList (n : Nat) :
    (Sample.wild n).toList = ['/', 'z', '/'] ++ List.replicate n '_' := by
  simp [Sample.wild]

theorem trimChars_wild (filled : 0 < n) :
    Path.trimChars (Sample.wild n).toList = (Sample.wild n).toList := by
  refine Path.trimChars_of_last ?_
  rw [wild_toList, List.getLast?_append, List.getLast?_replicate, if_neg (Nat.ne_of_gt filled)]
  simp

theorem mem_deep_iff :
    path ∈ (Sample.deep takes n).objects ↔ path = Sample.wild n ++ "/sub" ++ "/" ++ "x" := by
  rw [eq_comm]
  simp [Sample.deep, withReplica, withCollection, Memory.Sample.replica]

theorem parent_deep (n : Nat) :
    Path.parent (Sample.wild n ++ "/sub" ++ "/" ++ "x") = Sample.wild n ++ "/sub" := by
  have named : Sample.wild n ++ "/sub" ≠ "" := by
    rw [ne_eq, ← String.toList_inj, String.toList_append, wild_toList]
    simp
  rw [Path.parent, Path.split?_slash (by decide), if_neg named]
  rfl

theorem within_deep (filled : 0 < n) :
    Path.within (Sample.wild n ++ "/sub") (Sample.wild n) = true := by
  have last : Path.trimChars ((Sample.wild n).toList ++ "/sub".toList) =
      (Sample.wild n).toList ++ "/sub".toList :=
    Path.trimChars_of_last (by rw [List.getLast?_append]; simp)
  rw [Path.within, String.toList_append, trimChars_wild filled, last, Path.below?,
    Text.stripLead?_append]
  rfl

theorem not_answerable_deep (limited : Limited takes n) (filled : 0 < n) :
    ¬ Answerable (Sample.deep takes n) (Sample.wild n) := by
  have same : Path.trim (Sample.wild n) = Sample.wild n := by
    rw [Path.trim, trimChars_wild filled, String.ofList_toList]
  rintro (taken | all)
  · have engine : (Sample.deep takes n).takes = takes := by
      simp [Sample.deep, withReplica, withCollection]
    have refused : takes (Sample.wild n ++ "/%") = false := by
      refine limited _ ?_
      rw [String.toList_append, wild_toList, List.count_append, List.count_append,
        List.count_replicate_self]
      omega
    rw [engine, same, refused] at taken
    contradiction
  · have here := all _ (mem_deep_iff.mpr rfl)
    rw [parent_deep, same, ← String.toList_inj, String.toList_append] at here
    have length := congrArg List.length here
    simp at length

/-- The report on a collection fails whose name has as many wildcards as the engine refuses, though
there is an object below it. -/
theorem refused_deep (limited : Limited takes n) (filled : 0 < n) :
    Reachable (Sample.deep takes n) ∧ (Sample.deep takes n).failures .query = none ∧
      Text.allBlank (Sample.wild n) = false ∧ '\'' ∉ (Sample.wild n).toList ∧
      (∀ path ∈ (Sample.deep takes n).objects, '\n' ∉ path.toList) ∧
      (∃ path ∈ (Sample.deep takes n).objects,
        Path.within (Path.parent path) (Sample.wild n) = true) ∧
      ∀ pageSize budget, 0 < pageSize → (Sample.deep takes n).pageBudget ≤ budget →
        (contentsReport budget (Sample.wild n) pageSize).run serveQuery (Sample.deep takes n) =
          (some (.error (.catalog .query (",".intercalate reportColumns) invalidArgument
            (notTaken (Path.trim (Sample.wild n) ++ "/%")))), Sample.deep takes n) := by
  have allowed : (Sample.deep takes n).failures .query = none := by
    simp [Sample.deep, withReplica, withCollection]
  have blank : Text.allBlank (Sample.wild n) = false := by
    rw [Text.allBlank, wild_toList]
    rfl
  have quoteless : '\'' ∉ (Sample.wild n).toList := by
    rw [wild_toList]
    simp
  refine ⟨.replica _ (.empty _ _), allowed, blank, quoteless, ?_, ?_, ?_⟩
  · intro path mem
    rw [mem_deep_iff.mp mem]
    simp [wild_toList]
  · refine ⟨_, mem_deep_iff.mpr rfl, ?_⟩
    rw [parent_deep]
    exact within_deep filled
  · intro pageSize budget
    exact run_refused allowed blank quoteless (not_answerable_deep limited filled)

/-- An engine for patterns with fewer wildcards. -/
def Sample.limited : Engine := fun pattern => pattern.toList.count '_' < 30000

theorem report_refuses_long_name :
    let m := Sample.deep Sample.limited 30000
    Reachable m ∧ m.failures .query = none ∧ Text.allBlank (Sample.wild 30000) = false ∧
      '\'' ∉ (Sample.wild 30000).toList ∧ (∀ path ∈ m.objects, '\n' ∉ path.toList) ∧
      (∃ path ∈ m.objects, Path.within (Path.parent path) (Sample.wild 30000) = true) ∧
      ∀ pageSize budget, 0 < pageSize → m.pageBudget ≤ budget →
        (contentsReport budget (Sample.wild 30000) pageSize).run serveQuery m =
          (some (.error (.catalog .query (",".intercalate reportColumns) invalidArgument
            (notTaken (Path.trim (Sample.wild 30000) ++ "/%")))), m) := by
  have limited : Limited Sample.limited 30000 := fun pattern many =>
    decide_eq_false (Nat.not_lt_of_le many)
  exact refused_deep limited (by decide)

end DataGrid.Query
