import DataGrid.Proofs.Directory.Walk
import DataGrid.Proofs.Merge.Batch
import DataGrid.Query.Report

/-! One relation of containment. A path contains another if the segments of the other go on from
its own, trailing slashes apart; up to such slashes this is a partial order. It is what every test
for a tree decides: of a query's rows, of the start of a directory walk and of a nested master. -/
namespace DataGrid

namespace Path

variable {p q r : String}

/-- The segments of the path without its trailing slashes, empty ones included. -/
def parts (p : String) : List (List Char) := segments (trimChars p.toList)

/-- The other path goes on from this one, segment by segment. -/
def Contains (root p : String) : Prop := parts root <+: parts p

instance (root p : String) : Decidable (Contains root p) := inferInstanceAs (Decidable (_ <+: _))

theorem Contains.refl (p : String) : Contains p p := List.prefix_refl _

theorem Contains.trans (h : Contains p q) (h' : Contains q r) : Contains p r :=
  List.IsPrefix.trans h h'

theorem parts_inj : parts p = parts q ↔ trim p = trim q := by
  rw [trim, trim, String.ofList_inj]
  constructor
  · intro same
    have joined := congrArg join same
    rwa [parts, parts, join_segments, join_segments] at joined
  · intro same
    rw [parts, parts, same]

theorem contains_antisymm_iff : Contains p q ∧ Contains q p ↔ trim p = trim q := by
  rw [← parts_inj]
  constructor
  · rintro ⟨h, h'⟩
    exact h.eq_of_length (Nat.le_antisymm h.length_le h'.length_le)
  · intro same
    rw [Contains, Contains, same]
    exact ⟨List.prefix_refl _, List.prefix_refl _⟩

theorem within_iff_contains {root : String} : within p root = true ↔ Contains root p :=
  isSome_below?_iff

end Path

open DataGrid.Path (Contains)
open Dialogue (Exchange Transcript)

namespace Directory

variable {start dest : String} {mode : UInt32} {calls : List (Exchange interface)}
  {result : Except Error Nat}

theorem isUnder_iff_contains :
    isUnder (Path.trimChars dest.toList) (Path.trimChars start.toList) = true ↔
      Contains start dest := by
  rw [isUnder_eq]
  exact Path.isSome_below?_iff

theorem boundary_iff_contains :
    Path.trim start ∈ Path.boundaries (Path.trim dest) ↔ Contains start dest := by
  rw [trim_mem_boundaries_iff, ← Option.isSome_iff_exists]
  exact Path.isSome_below?_iff

/-- A walk is refused as invalid before it begins or not at all. -/
theorem refused_iff (walk : Transcript (ensure start dest mode) calls result) :
    (∃ message, result = .error (.input message)) ↔ ¬ Contains start dest := by
  rw [← boundary_iff_contains]
  cases transcript_ensure_iff.mp walk with
  | outside apart => exact iff_of_true ⟨_, rfl⟩ apart
  | blocked inside => simp [inside]
  | stopped inside => simp [inside]
  | complete inside => simp [inside]

end Directory

namespace Query

/-- The rows of the tree are those that change the counts. -/
theorem countRow_ne_iff {coll c dataType : String} {more : Row} {counts : Counts} :
    countRow coll counts (c :: dataType :: more) ≠ counts ↔ Contains coll c := by
  rw [← Path.within_iff_contains, countRow]
  split
  · next inside =>
    refine iff_of_true (fun same => ?_) inside
    have entry := congrArg (·.getD dataType 0) same
    simp at entry
  · next outside => exact iff_of_false (not_not_intro rfl) outside

end Query

namespace Merge

/-- Only a master in the tree of the current collection has objects that are passed over. -/
theorem settled_iff {current master path : String} :
    Settled current master path ↔
      Contains current master ∧ (master ++ "/").toList <+: path.toList := by
  rw [Settled, Path.within_iff_contains]

end Merge

/-- All tests for a tree decide the containment of segments, which is a partial order but for
trailing slashes: the one for collections, the one of a directory walk with its case for the root,
the refusal of a walk, the choice of the rows that a report counts and of what a batch passes over
as merged already. -/
theorem tree_tests_agree (root path : String) :
    (Path.within path root = true ↔ Contains root path) ∧
    Directory.isUnder (Path.trimChars path.toList) (Path.trimChars root.toList) =
      Path.within path root ∧
    Path.within path path = true ∧
    (∀ deeper, Path.within path root = true → Path.within deeper path = true →
      Path.within deeper root = true) ∧
    (Path.within path root = true ∧ Path.within root path = true ↔
      Path.trim path = Path.trim root) ∧
    (∀ mode calls result, Transcript (Directory.ensure root path mode) calls result →
      ((∃ message, result = .error (.input message)) ↔ ¬ Contains root path)) ∧
    (∀ dataType more counts, Query.countRow root counts (path :: dataType :: more) ≠ counts ↔
      Contains root path) ∧
    ∀ paths obj, obj ∈ Merge.candidates root path paths ↔
      obj ∈ paths ∧ ¬ (Contains root path ∧ (path ++ "/").toList <+: obj.toList) := by
  refine ⟨Path.within_iff_contains, ?_, ?_, ?_, ?_, fun _ _ _ => Directory.refused_iff,
    fun _ _ _ => Query.countRow_ne_iff, ?_⟩
  · rw [Bool.eq_iff_iff, Directory.isUnder_iff_contains, Path.within_iff_contains]
  · exact Path.within_iff_contains.mpr (Contains.refl path)
  · intro deeper
    simp only [Path.within_iff_contains]
    exact Contains.trans
  · rw [Path.within_iff_contains, Path.within_iff_contains, and_comm, Path.contains_antisymm_iff,
      eq_comm]
  · intro paths obj
    rw [Merge.mem_candidates, Merge.settled_iff]

/-- The root, doubled slashes and a name that goes on from another. -/
theorem tree_tests_agree_on_spellings :
    Path.within "//z" "/" = true ∧ Path.within "//z/a//" "//z" = true ∧
    Path.within "//z/a//" "/" = true ∧
    (∃ message, Transcript (Directory.ensure "/z/a" "/z/ab" 0o750) [] (.error (.input message))) ∧
    ¬ Contains "/z/a" "/z/ab" := by
  obtain ⟨test, -, -, trans, -⟩ := tree_tests_agree "/" "//z"
  have below : Path.within "//z" "/" = true := test.mpr (by decide)
  have further : Path.within "//z/a//" "//z" = true := by decide
  obtain ⟨-, -, -, -, -, refused, -⟩ := tree_tests_agree "/z/a" "/z/ab"
  have walk : Transcript (Directory.ensure "/z/a" "/z/ab" 0o750) []
      (.error (.input "'/z/ab' is not below start directory '/z/a'")) := by
    rw [Directory.ensure_eq, Directory.route?_of_not_mem (by decide)]
    exact .done _
  exact ⟨below, further, trans _ below further, ⟨_, walk⟩, (refused _ _ _ walk).mp ⟨_, rfl⟩⟩

end DataGrid
