import DataGrid.Proofs.Catalog.Invariant
import DataGrid.Proofs.Cursor.Listing

/-! A query read to its end on a catalog in memory, with nobody else about. Its listing has the
rows that match, on pages of any size, and afterwards the catalog keeps rows for just the queries
that it kept rows for before. -/
namespace DataGrid.Catalog.Memory
open Query
open Cursor (Listing)
open Dialogue (Exchange)

variable {m m' m'' : Memory} {select : List String} {conditions : List Condition}
  {pageSize : Int32} {rows rest : List Row} {k : Int}

/-! Catalogs that can arise are stocked. -/

theorem Stocked.undisturbed (h : Stocked m) (same : Undisturbed m m') : Stocked m' := by
  constructor
  · rw [same.pending, same.issued]
    exact h.issued
  · rw [same.pending]
    exact h.filled

theorem Stocked.deliver (h : Stocked m) (limit : Nat) (select : List String) (rows : List Row) :
    Stocked (m.deliver limit select rows).2 := by
  by_cases short : rows.length ≤ limit
  · rw [deliver_last short]
    exact h
  · rw [deliver_more (Nat.lt_of_not_le short)]
    exact h.leave (by simpa using short)

theorem Stocked.serveQuery (h : Stocked m) (r : Request) : Stocked (serveQuery r m).2 := by
  rw [serveQuery_eq_settle]
  cases answered : m.query r with
  | error e => exact h
  | ok out =>
    rw [query, allow_bind_eq_ok_iff] at answered
    obtain ⟨-, answered⟩ := answered
    split at answered
    · cases answered
      exact h.forget r.continueIndex
    split at answered
    · contradiction
    split at answered
    · split at answered
      · contradiction
      · cases answered
        exact (h.forget r.continueIndex).deliver _ _ _
    · cases found : m.matching r with
      | error e =>
        rw [found] at answered
        contradiction
      | ok rows =>
        rw [found] at answered
        cases answered
        exact h.deliver _ _ _

theorem Stocked.withReplica (h : Stocked m) (r : Replica) : Stocked (m.withReplica r).2 := by
  rw [Memory.withReplica]
  split <;> exact ⟨h.issued, h.filled⟩

theorem stocked_of_reachable (h : Reachable m) : Stocked m := by
  induction h with
  | empty clock takes =>
    exact ⟨fun k mem => absurd mem (by simp), fun k rows left => by simp at left⟩
  | collection coll _ ih => exact ⟨ih.issued, ih.filled⟩
  | replica r _ ih => exact ih.withReplica r
  | failing step status _ ih => exact ⟨ih.issued, ih.filled⟩
  | repaired _ ih => exact ⟨ih.issued, ih.filled⟩
  | call c _ ih => exact ih.undisturbed (change_of_serve c _).undisturbed
  | query r _ ih => exact ih.serveQuery r

/-! What a query leaves behind. -/

/-- Rows are kept for the same queries, and nothing else differs but the count of indices. -/
structure Restored (m m' : Memory) : Prop where
  same : ∃ pending issued, m' = { m with pending, issued }
  kept : ∀ k : Int, m'.pending[k]? = m.pending[k]?

theorem Restored.refl (m : Memory) : Restored m m := ⟨⟨m.pending, m.issued, rfl⟩, fun _ => rfl⟩

theorem Restored.trans (h : Restored m m') (h' : Restored m' m'') : Restored m m'' := by
  obtain ⟨⟨pending, issued, rfl⟩, kept⟩ := h
  obtain ⟨⟨pending', issued', rfl⟩, kept'⟩ := h'
  exact ⟨⟨pending', issued', rfl⟩, fun k => (kept' k).trans (kept k)⟩

theorem Restored.objects (h : Restored m m') : m'.objects = m.objects := by
  obtain ⟨⟨pending, issued, rfl⟩, -⟩ := h
  rfl

theorem Restored.pendingQueries (h : Restored m m') : m'.pendingQueries = m.pendingQueries :=
  (Std.TreeMap.Equiv.of_forall_constGet?_eq h.kept).size_eq

/-- Rows that were left behind and taken out again leave no trace. -/
theorem restored_forget_leave (h : Stocked m) (rest : List Row) :
    Restored m ((m.leave rest).forget (m.issued + 1)) := by
  refine ⟨⟨_, _, rfl⟩, fun k => ?_⟩
  rw [getElem?_forget, getElem?_leave]
  split
  · next fresh =>
    subst fresh
    rw [Std.TreeMap.getElem?_eq_none (not_mem_fresh h)]
  · rfl

/-- From the request on that gives out the first of some rows, the pages have all of them. -/
theorem listing_of_deliver {s : Memory} (allowed : m.failures .query = none)
    (positive : 0 < pageSize) (stocked : Stocked m) (some : rows ≠ [])
    (answered : serveQuery ⟨select, conditions, pageSize, k⟩ s =
      (.ok (m.deliver pageSize.toInt.toNat select rows).1,
        (m.deliver pageSize.toInt.toNat select rows).2)) :
    ∃ asked m', Listing serveQuery select conditions pageSize k s asked (.ok rows) m' ∧
      asked.length ≤ rows.length ∧ Restored m m' := by
  -- on the number of rows, of which each page takes at least one
  induction length : rows.length using Nat.strongRecOn generalizing m s rows k with
  | ind n ih =>
    have filled := List.length_pos_iff.mpr some
    have limit := toNat_pos_of_pos positive
    by_cases short : rows.length ≤ pageSize.toInt.toNat
    · rw [deliver_last short] at answered
      exact ⟨_, _, .last answered (Int.le_refl 0), length ▸ filled, .refl m⟩
    · have long := Nat.lt_of_not_le short
      rw [deliver_more long] at answered
      have left : rows.drop pageSize.toInt.toNat ≠ [] := by simpa using long
      have shorter : (rows.drop pageSize.toInt.toNat).length < n := by
        rw [List.length_drop]
        omega
      have split := List.take_append_drop pageSize.toInt.toNat rows
      generalize rows.take pageSize.toInt.toNat = page at answered split
      generalize rows.drop pageSize.toInt.toNat = rest at answered split left shorter
      let mid := m.leave rest
      have index : (0 : Int) < m.issued + 1 := by omega
      have next := serveQuery_next (m := mid) (r := ⟨select, conditions, pageSize, m.issued + 1⟩)
        allowed positive rfl index ((getElem?_leave m rest _).trans (if_pos rfl))
      have after := (stocked.leave left).forget (m.issued + 1)
      have still : (mid.forget (m.issued + 1)).failures .query = none := allowed
      obtain ⟨asked, m', listing, few, restored⟩ := ih _ shorter still after left next rfl
      have whole := Listing.more answered index listing
      rw [Except.map, split] at whole
      refine ⟨_, m', whole, ?_, (restored_forget_leave stocked rest).trans restored⟩
      rw [List.length_cons]
      omega

/-- Where no row fails to be read, the listing of a query has the rows of the objects that meet its
conditions. -/
theorem listing_of_rowsOf (allowed : m.failures .query = none) (positive : 0 < pageSize)
    (stocked : Stocked m) (found : rowsOf m.takes select conditions m.objects.toList = .ok rows) :
    ∃ asked m', Listing serveQuery select conditions pageSize 0 m asked (.ok rows) m' ∧
      asked.length ≤ m.pageBudget ∧ Restored m m' := by
  have answered := serveQuery_first (r := ⟨select, conditions, pageSize, 0⟩) allowed positive rfl
  rw [matching, found] at answered
  cases rows with
  | nil => exact ⟨_, m, .nothing answered, Nat.succ_pos _, .refl m⟩
  | cons row rows =>
    obtain ⟨asked, m', listing, few, restored⟩ :=
      listing_of_deliver allowed positive stocked (List.cons_ne_nil row rows) answered
    refine ⟨asked, m', listing, Nat.le_succ_of_le (Nat.le_trans few ?_), restored⟩
    rw [eq_filterMap_of_rowsOf found, ← Std.TreeMap.length_toList]
    exact List.length_filterMap_le _ _

/-- Where one does, the query fails as that row does. -/
theorem listing_of_refused (allowed : m.failures .query = none) (positive : 0 < pageSize)
    {status : Int32} {message : String}
    (refused : rowsOf m.takes select conditions m.objects.toList =
      .error (.failed status message)) :
    ∃ asked, Listing serveQuery select conditions pageSize 0 m asked
        (.error (.catalog .query (",".intercalate select) status message)) m ∧
      asked.length ≤ m.pageBudget := by
  have answered := serveQuery_first (r := ⟨select, conditions, pageSize, 0⟩) allowed positive rfl
  rw [matching, refused] at answered
  exact ⟨_, .refused answered, Nat.succ_pos _⟩

end DataGrid.Catalog.Memory
