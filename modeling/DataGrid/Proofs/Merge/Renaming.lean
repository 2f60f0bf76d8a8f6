import DataGrid.Proofs.Merge.Destination

/-! Master paths as names for names. Between two collections, to take the master path is to put
one collection in the place of the other at the head of a path and to leave the rest as it is. So
it can be undone, two paths never have the same master path, and how many slashes follow the name
of a collection makes no difference. -/
namespace DataGrid

namespace Path

variable {path root : String}

/-- What is spelled by a place and more after a slash is in the tree of the place. -/
theorem within_of_above (above : Above (trim root) path) : within path root = true := by
  have boundary := trim_of_above above
  rw [trim_trim, ← mem_boundaries_iff] at boundary
  rwa [within, Option.isSome_iff_exists, ← Directory.trim_mem_boundaries_iff]

end Path

namespace Merge
open DataGrid.Path (Trims)

variable {obj obj' current coll path : String}

/-- The path is the first name, a slash and more, and the other path is the second name, a slash
and the same; slashes that follow the names do not count, and the second is absolute. -/
def Renames (current coll obj path : String) : Prop :=
  obj ≠ "" ∧ current ≠ "" ∧ coll ≠ "" ∧
    ∃ base root rel, Trims current base ∧ Trims coll root ∧ root.toList.head? = some '/' ∧
      rel ≠ "" ∧ obj = base ++ "/" ++ rel ∧ path = root ++ "/" ++ rel

theorem destination_eq_ok_iff_renames :
    destination obj current coll = .ok path ↔ Renames current coll obj path := by
  rw [destination_eq_ok_iff]
  constructor
  · rintro ⟨filled, absolute, rel, some, spelled, there⟩
    refine ⟨?_, filled, ?_, Path.trim current, Path.trim coll, String.ofList rel,
      Path.trims_iff.mpr rfl, Path.trims_iff.mpr rfl, ?_, ?_, ?_, ?_⟩
    · rintro rfl
      simp at spelled
    · rintro rfl
      simp [Path.trimChars, Text.dropEndWhile] at absolute
    · rwa [Path.trim, String.toList_ofList]
    · simpa using some
    · rw [← String.toList_inj, spelled]
      simp [Path.trim]
    · rw [← String.toList_inj, there]
      simp [Path.trim]
  · rintro ⟨-, filled, -, base, root, rel, bare, bare', absolute, some, rfl, rfl⟩
    rw [Path.trims_iff] at bare bare'
    subst bare bare'
    refine ⟨filled, by simpa [Path.trim] using absolute, rel.toList, by simpa using some, ?_, ?_⟩
    · simp [Path.trim]
    · simp [Path.trim]

theorem Renames.injective (h : Renames current coll obj path)
    (h' : Renames current coll obj' path) : obj = obj' := by
  obtain ⟨-, -, -, base, root, rel, bare, bare', -, -, rfl, rfl⟩ := h
  obtain ⟨-, -, -, _, _, rel', other, other', -, -, rfl, same⟩ := h'
  rw [Path.trims_iff] at bare bare' other other'
  subst bare bare' other other'
  rw [String.append_right_inj] at same
  rw [same]

/-- Back again, if the first name is absolute as well. -/
theorem Renames.symm (h : Renames current coll obj path)
    (absolute : (Path.trim current).toList.head? = some '/') : Renames coll current path obj := by
  obtain ⟨-, filled, filled', base, root, rel, bare, bare', -, some, rfl, rfl⟩ := h
  refine ⟨by simp, filled', filled, root, base, rel, bare', bare, ?_, some, rfl, rfl⟩
  rwa [Path.trims_iff.mp bare]

theorem Renames.within (h : Renames current coll obj path) : Path.within path coll = true := by
  obtain ⟨-, -, -, base, root, rel, -, bare, -, -, -, rfl⟩ := h
  rw [Path.trims_iff] at bare
  subst bare
  exact Path.within_of_above ⟨rel.toList, by simp⟩

theorem toOption_eq_some_iff {ε α : Type} {x : Except ε α} {a : α} :
    x.toOption = some a ↔ x = .ok a := by
  cases x <;> simp [Except.toOption]

/-- Apart from the text of an error, the answers are the same for names that differ in slashes. -/
theorem toOption_destination_congr {current' coll' : String} (filled : current = "" ↔ current' = "")
    (same : Path.trim current = Path.trim current') (same' : Path.trim coll = Path.trim coll') :
    (destination obj current coll).toOption = (destination obj current' coll').toOption := by
  have chars := String.ofList_inj.mp same
  have chars' := String.ofList_inj.mp same'
  apply Option.ext
  intro path
  rw [toOption_eq_some_iff, toOption_eq_some_iff, destination_eq_ok_iff,
    destination_eq_ok_iff, ne_eq, filled, chars, chars']

/-- Exactly which paths have a master path, and which one; that any other is refused as invalid
input; that two paths never have the same; that it lies in the tree of the master collection; that
slashes after either name change no more than the text of an error; and that the way back is the
same with the collections exchanged. -/
theorem destination_reversible (current coll : String) :
    (∀ obj path, destination obj current coll = .ok path ↔ Renames current coll obj path) ∧
    (∀ obj e, destination obj current coll = .error e → ∃ message, e = .input message) ∧
    (∀ obj obj' path, destination obj current coll = .ok path →
      destination obj' current coll = .ok path → obj = obj') ∧
    (∀ obj path, destination obj current coll = .ok path → Path.within path coll = true) ∧
    (∀ obj n, current ≠ "" →
      (destination obj (current ++ String.ofList (List.replicate n '/')) coll).toOption =
        (destination obj current coll).toOption) ∧
    (∀ obj n, (destination obj current (coll ++ String.ofList (List.replicate n '/'))).toOption =
      (destination obj current coll).toOption) ∧
    ∀ obj path, destination obj current coll = .ok path →
      (Path.trim current).toList.head? = some '/' → destination path coll current = .ok obj := by
  have renames {obj path : String} : destination obj current coll = .ok path →
    Renames current coll obj path := destination_eq_ok_iff_renames.mp
  refine ⟨fun _ _ => destination_eq_ok_iff_renames, fun _ _ => input_of_destination, ?_, ?_, ?_,
    ?_, ?_⟩
  · intro obj obj' path there there'
    exact (renames there).injective (renames there')
  · intro obj path there
    exact (renames there).within
  · intro obj n filled
    apply toOption_destination_congr
    · simp [filled]
    · exact Path.trim_append_slashes current n
    · rfl
  · intro obj n
    apply toOption_destination_congr Iff.rfl rfl
    exact Path.trim_append_slashes coll n
  · intro obj path there absolute
    exact destination_eq_ok_iff_renames.mpr ((renames there).symm absolute)

/-- A collection in the tree of the other, with slashes after the names and within the path. -/
theorem destination_there_and_back :
    destination "/z/a/b//x/" "/z/a//" "/z/a/b/" = .ok "/z/a/b/b//x/" ∧
    Path.within "/z/a/b/b//x/" "/z/a/b/" = true ∧
    destination "/z/a/b/b//x/" "/z/a/b/" "/z/a//" = .ok "/z/a/b//x/" := by
  obtain ⟨-, -, -, inside, -, -, back⟩ := destination_reversible "/z/a//" "/z/a/b/"
  have there : destination "/z/a/b//x/" "/z/a//" "/z/a/b/" = .ok "/z/a/b/b//x/" := rfl
  exact ⟨there, inside _ _ there, back _ _ there (by decide)⟩

end Merge
end DataGrid
