import DataGrid.Merge.Object
import DataGrid.Proofs.Directory.Places

/-! Master paths. A path has one if it goes on below the current collection and the master
collection is absolute: the same way below the master collection. Trailing slashes of the two
names count for nothing, except that no name is left of the root. The first segment of a master
path is above it, so that the walk above a master path always has a route. -/
namespace DataGrid.Merge
open Text
open DataGrid.Path (Above)

variable {obj current coll path : String}

theorem relative?_eq_some_iff {path coll rel : List Char} :
    relative? path coll = some rel ↔ path = coll ++ '/' :: rel ∧ rel ≠ [] := by
  rw [relative?]
  constructor
  · intro h
    split at h
    · next strip =>
      cases h
      exact ⟨eq_append_of_stripLead? strip, List.cons_ne_nil _ _⟩
    · contradiction
  · rintro ⟨rfl, some⟩
    obtain ⟨c, rest, rfl⟩ := List.exists_cons_of_ne_nil some
    simp [stripLead?_append]

theorem destination_eq_ok_iff : destination obj current coll = .ok path ↔
    current ≠ "" ∧ (Path.trimChars coll.toList).head? = some '/' ∧
      ∃ rel, rel ≠ [] ∧ obj.toList = Path.trimChars current.toList ++ '/' :: rel ∧
        path.toList = Path.trimChars coll.toList ++ '/' :: rel := by
  rw [destination]
  constructor
  · intro h
    split at h
    · contradiction
    · next filled =>
      simp only [Bool.or_eq_true, String.isEmpty_iff, not_or] at filled
      split at h
      · contradiction
      · next rel below =>
        obtain ⟨spelled, some⟩ := relative?_eq_some_iff.mp below
        simp only at h
        split at h
        · next absolute =>
          cases h
          exact ⟨filled.1.2, absolute, rel, some, spelled, String.toList_ofList⟩
        · contradiction
  · rintro ⟨filled, absolute, rel, some, spelled, there⟩
    have filledObj : obj ≠ "" := by
      rintro rfl
      simp at spelled
    have filledColl : coll ≠ "" := by
      rintro rfl
      simp [Path.trimChars, dropEndWhile] at absolute
    simp only [String.isEmpty_eq_false_iff.mpr filledObj, String.isEmpty_eq_false_iff.mpr filled,
      String.isEmpty_eq_false_iff.mpr filledColl, relative?_eq_some_iff.mpr ⟨spelled, some⟩,
      absolute, if_true, Bool.or_self, Bool.false_eq_true, if_false, Except.ok.injEq]
    rw [← there, String.ofList_toList]

theorem input_of_destination {e : Error} (h : destination obj current coll = .error e) :
    ∃ message, e = .input message := by
  rw [destination] at h
  split at h
  · cases h
    exact ⟨_, rfl⟩
  split at h
  · cases h
    exact ⟨_, rfl⟩
  simp only at h
  split at h
  · contradiction
  · cases h
    exact ⟨_, rfl⟩

/-- Without a master path nothing is asked. -/
theorem object_of_error {e : Error} (rules : Rules) (h : destination obj current coll = .error e) :
    (object rules obj current coll).run = .done (.error e) := by
  unfold object
  rw [h]
  rfl

/-- Both paths end with the same name below their collections. -/
theorem destination_eq_ok (h : destination obj current coll = .ok path) :
    ∃ rel, obj.toList = (Path.trim current).toList ++ '/' :: rel ∧
      path.toList = (Path.trim coll).toList ++ '/' :: rel := by
  obtain ⟨-, -, rel, -, spelled, there⟩ := destination_eq_ok_iff.mp h
  exact ⟨rel, by simpa [Path.trim] using spelled, by simpa [Path.trim] using there⟩

/-- An object is its own master exactly if both names are of one collection. -/
theorem destination_eq_self_iff (h : destination obj current coll = .ok path) :
    path = obj ↔ Path.trim current = Path.trim coll := by
  obtain ⟨rel, hobj, hpath⟩ := destination_eq_ok h
  constructor
  · intro same
    rw [same, hobj] at hpath
    exact String.toList_inj.mp (List.append_cancel_right hpath)
  · intro same
    rw [← same, ← hobj] at hpath
    exact String.toList_inj.mp hpath

/-! The way to a master path. -/

theorem firstSegment_above (h : destination obj current coll = .ok path) :
    firstSegment path ≠ "" ∧ Above (firstSegment path) path := by
  obtain ⟨-, absolute, rel, -, -, there⟩ := destination_eq_ok_iff.mp h
  cases root : Path.trimChars coll.toList with
  | nil => simp [root] at absolute
  | cons c cs =>
    obtain rfl : c = '/' := by simpa [root] using absolute
    rw [root, List.cons_append] at there
    -- The slash before the rest of the path ends the segment, if no slash before it does.
    have ends : '/' ∈ cs ++ '/' :: rel := by simp
    have whole := List.takeWhile_append_dropWhile (p := fun d => d != '/') (l := cs ++ '/' :: rel)
    have last := Path.head?_dropWhile_slash (cs ++ '/' :: rel)
    have same : (fun d => !Path.isSlash d) = fun d : Char => d != '/' := rfl
    rw [same] at last
    rw [firstSegment, there]
    refine ⟨by simp [← String.toList_inj], ?_⟩
    cases after : (cs ++ '/' :: rel).dropWhile fun d => d != '/' with
    | nil =>
      rw [List.dropWhile_eq_nil_iff] at after
      exact absurd (after '/' ends) (by decide)
    | cons d rest =>
      rw [after] at whole last
      obtain rfl := last d rfl
      exact ⟨rest, by rw [there, String.toList_ofList, List.cons_append, whole]⟩

/-- The walk above a master path has a route from its first segment to its parent. -/
theorem exists_route_of_destination (h : destination obj current coll = .ok path) :
    ∃ parent leaf route, Path.split? path = some (parent, leaf) ∧
      Directory.route? (firstSegment path) parent = some route := by
  obtain ⟨filled, above⟩ := firstSegment_above h
  cases split : Path.split? path with
  | none =>
    obtain ⟨rest, spelled⟩ := above
    have free := Path.split?_eq_none_iff.mp split
    simp [spelled] at free
  | some parts =>
    obtain ⟨parent, leaf⟩ := parts
    refine ⟨parent, leaf, Directory.stages (firstSegment path) parent, rfl,
      Directory.route?_of_mem (Path.mem_boundaries_iff.mpr ?_)⟩
    rcases above.of_split? split with none | same | higher
    · exact absurd none filled
    · exact .inl (by rw [same])
    · exact Path.trim_of_above higher

end DataGrid.Merge
