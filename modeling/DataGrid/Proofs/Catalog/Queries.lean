import DataGrid.Proofs.Catalog.Operations

/-! What a catalog in memory answers to a query. A first request is answered from the rows that
match at that time, a later one from the rows that were left behind under its index; what does
not fit on the page is left behind under a fresh index. A release forgets what was left behind.
Nothing else changes, and a request that fails changes nothing. -/
namespace DataGrid.Catalog.Memory
open Query

/-! The rows that match. -/

/-- The condition is on a column that there is, and its predicate holds of the value. -/
def passes (takes : Predicate.Engine) (path : String) (o : DataObject) (c : Condition) : Bool :=
  ((cell? path o c.column).bind fun value =>
    (Predicate.holds takes c.predicate value).toOption) == some true

def selected (takes : Predicate.Engine) (conditions : List Condition) (path : String)
    (o : DataObject) : Bool :=
  conditions.all (passes takes path o)

/-- The selected columns of all objects that meet the conditions, in the order of their paths. -/
def matched (m : Memory) (select : List String) (conditions : List Condition) : List Row :=
  m.objects.toList.filterMap fun (path, o) =>
    if selected m.takes conditions path o then select.mapM (cell? path o) else none

variable {takes : Predicate.Engine} {m : Memory} {path : String} {o : DataObject}
  {select : List String} {conditions : List Condition} {r : Request} {rows rest : List Row} {k : Int}

theorem cell?_of_cell {column value : String} (h : cell path o column = .ok value) :
    cell? path o column = some value := by
  rw [cell] at h
  split at h
  · next hv => cases h; exact hv
  · contradiction

theorem selected_of_meets {b : Bool} (h : meets takes path o conditions = .ok b) :
    selected takes conditions path o = b := by
  induction conditions with
  | nil => cases h; rfl
  | cons c cs ih =>
    rw [meets] at h
    cases hv : cell path o c.column with
    | error e => rw [hv] at h; cases h
    | ok value =>
      cases hp : Predicate.holds takes c.predicate value with
      | error e => rw [hv] at h; simp [hp, Bind.bind, Except.bind] at h
      | ok holds =>
        have head : passes takes path o c = holds := by
          simp [passes, cell?_of_cell hv, hp, Except.toOption]
        rw [hv] at h
        simp only [hp, Bind.bind, Except.bind] at h
        rw [selected, List.all_cons, head]
        cases holds with
        | true => exact ih h
        | false => cases h; rfl

theorem mapM_cell?_of_mapM_cell {row : Row} (h : select.mapM (cell path o) = .ok row) :
    select.mapM (cell? path o) = some row := by
  induction select generalizing row with
  | nil => cases h; rfl
  | cons column columns ih =>
    rw [List.mapM_cons] at h ⊢
    cases hv : cell path o column with
    | error e => rw [hv] at h; cases h
    | ok value =>
      cases hs : columns.mapM (cell path o) with
      | error e => rw [hv, hs] at h; cases h
      | ok values => rw [hv, hs] at h; cases h; rw [cell?_of_cell hv, ih hs]; rfl

theorem eq_filterMap_of_rowsOf {objects : List (String × DataObject)}
    (h : rowsOf takes select conditions objects = .ok rows) :
    rows = objects.filterMap fun (path, o) =>
      if selected takes conditions path o then select.mapM (cell? path o) else none := by
  induction objects generalizing rows with
  | nil => cases h; rfl
  | cons object others ih =>
    obtain ⟨path, o⟩ := object
    rw [rowsOf] at h
    cases hb : meets takes path o conditions with
    | error e => rw [hb] at h; cases h
    | ok b =>
      rw [hb] at h
      simp only [Bind.bind, Except.bind] at h
      simp only [List.filterMap_cons, selected_of_meets hb]
      cases b with
      | false => exact ih h
      | true =>
        cases hrow : select.mapM (cell path o) with
        | error e => simp [hrow] at h
        | ok row =>
          cases hrows : rowsOf takes select conditions others with
          | error e => simp [hrow, hrows] at h
          | ok more =>
            simp only [hrow, hrows, if_true, pure, Except.pure, Except.ok.injEq] at h
            rw [← h, ih hrows]
            simp [mapM_cell?_of_mapM_cell hrow]

/-- Where nothing fails to be read, nothing fails. -/
theorem rowsOf_ok {objects : List (String × DataObject)}
    (met : ∀ object ∈ objects, ∃ b, meets takes object.1 object.2 conditions = .ok b)
    (filled : ∀ object ∈ objects, ∃ row, select.mapM (cell object.1 object.2) = .ok row) :
    ∃ rows, rowsOf takes select conditions objects = .ok rows := by
  induction objects with
  | nil => exact ⟨[], rfl⟩
  | cons object objects ih =>
    obtain ⟨rows, read⟩ := ih (fun x mem => met x (List.mem_cons_of_mem _ mem))
      fun x mem => filled x (List.mem_cons_of_mem _ mem)
    obtain ⟨b, here⟩ := met object List.mem_cons_self
    obtain ⟨row, cells⟩ := filled object List.mem_cons_self
    rw [rowsOf, here]
    cases b with
    | false => exact ⟨rows, read⟩
    | true => exact ⟨row :: rows, by rw [cells, read]; rfl⟩

/-- Where only one thing fails, that is what the rows fail with. -/
theorem rowsOf_error {objects : List (String × DataObject)} {e : Failure}
    (met : ∀ object ∈ objects,
      (∃ b, meets takes object.1 object.2 conditions = .ok b) ∨
        meets takes object.1 object.2 conditions = .error e)
    (filled : ∀ object ∈ objects, ∃ row, select.mapM (cell object.1 object.2) = .ok row)
    (some : ∃ object ∈ objects, meets takes object.1 object.2 conditions = .error e) :
    rowsOf takes select conditions objects = .error e := by
  induction objects with
  | nil => simp at some
  | cons object objects ih =>
    rcases met object List.mem_cons_self with ⟨b, here⟩ | here
    · obtain ⟨refused, mem, fails⟩ := some
      have later : refused ∈ objects := by
        rcases List.mem_cons.mp mem with rfl | later
        · rw [here] at fails
          cases fails
        · exact later
      have others := ih (fun x mem => met x (List.mem_cons_of_mem _ mem))
        (fun x mem => filled x (List.mem_cons_of_mem _ mem)) ⟨refused, later, fails⟩
      obtain ⟨row, cells⟩ := filled object List.mem_cons_self
      rw [rowsOf, here]
      cases b with
      | false => exact others
      | true =>
        change (do let row ← select.mapM (cell object.1 object.2)
                   return row :: (← rowsOf takes select conditions objects)) = _
        rw [cells, others]
        rfl
    · rw [rowsOf, here]
      rfl

theorem eq_matched_of_matching (h : m.matching r = .ok rows) :
    rows = m.matched r.select r.conditions ∧ rows ≠ [] := by
  rw [matching] at h
  cases hrows : rowsOf m.takes r.select r.conditions m.objects.toList with
  | error e => rw [hrows] at h; cases h
  | ok found =>
    rw [hrows] at h
    cases found with
    | nil => cases h
    | cons row more =>
      cases h
      exact ⟨eq_filterMap_of_rowsOf hrows, by simp⟩

/-! What is left behind. -/

/-- Leaves rows behind under a fresh index. -/
def leave (m : Memory) (rest : List Row) : Memory :=
  { m with issued := m.issued + 1, pending := m.pending.insert (m.issued + 1) rest }

def forget (m : Memory) (k : Int) : Memory := { m with pending := m.pending.erase k }

@[simp] theorem getElem?_leave (m : Memory) (rest : List Row) (k : Int) :
    (m.leave rest).pending[k]? = if (m.issued : Int) + 1 = k then some rest else m.pending[k]? := by
  simp [leave, Std.TreeMap.getElem?_insert]

@[simp] theorem getElem?_forget (m : Memory) (j k : Int) :
    (m.forget j).pending[k]? = if j = k then none else m.pending[k]? := by
  simp [forget, Std.TreeMap.getElem?_erase]

/-- The rows that wait in the catalog wait under indices that were given out, and some wait. -/
structure Stocked (m : Memory) : Prop where
  issued : ∀ k ∈ m.pending, k ≤ m.issued
  filled : ∀ (k : Int) (rows : List Row), m.pending[k]? = some rows → rows ≠ []

theorem mem_pending_iff (m : Memory) (k : Int) :
    k ∈ m.pending ↔ ∃ rows, m.pending[k]? = some rows := by
  rw [Std.TreeMap.mem_iff_isSome_getElem?, Option.isSome_iff_exists]

theorem Stocked.forget (h : Stocked m) (k : Int) : Stocked (m.forget k) := by
  refine ⟨fun j hj => ?_, fun j rows hrows => ?_⟩
  · simp only [Memory.forget, Std.TreeMap.mem_erase] at hj
    exact h.issued j hj.2
  · rw [getElem?_forget] at hrows
    split at hrows
    · contradiction
    · exact h.filled j rows hrows

theorem Stocked.leave (h : Stocked m) (some : rest ≠ []) :
    Stocked (m.leave rest) := by
  refine ⟨fun j hj => ?_, fun j rows hrows => ?_⟩
  · simp only [Memory.leave, Std.TreeMap.mem_insert, Std.compare_eq_iff_eq] at hj ⊢
    rcases hj with rfl | hj
    · omega
    · have := h.issued j hj
      omega
  · rw [getElem?_leave] at hrows
    split at hrows
    · cases hrows
      exact some
    · exact h.filled j rows hrows

theorem not_mem_fresh (h : Stocked m) : (m.issued : Int) + 1 ∉ m.pending := by
  intro mem
  have := h.issued _ mem
  omega

theorem size_forget (h : k ∈ m.pending) : (m.forget k).pending.size + 1 = m.pending.size :=
  size_erase_add_one h

theorem size_leave (h : Stocked m) :
    (m.leave rest).pending.size = m.pending.size + 1 := by
  have fresh := not_mem_fresh h
  rw [← Std.TreeMap.contains_iff_mem, Bool.not_eq_true] at fresh
  simp [leave, Std.TreeMap.size_insert, fresh]

theorem deliver_last {limit : Nat} (short : rows.length ≤ limit) :
    m.deliver limit select rows = (⟨rows, 0, UInt64.ofNat select.length⟩, m) := by
  rw [deliver, List.drop_of_length_le short]

theorem deliver_more {limit : Nat} (long : limit < rows.length) :
    m.deliver limit select rows =
      (⟨rows.take limit, m.issued + 1, UInt64.ofNat select.length⟩,
        m.leave (rows.drop limit)) := by
  have more : rows.drop limit ≠ [] := by simpa using long
  rw [deliver]
  split
  · contradiction
  · rfl

theorem deliver_rows (m : Memory) (limit : Nat) (select : List String) (rows : List Row) :
    (m.deliver limit select rows).1.rows = rows.take limit := by
  by_cases short : rows.length ≤ limit
  · rw [deliver_last short, List.take_of_length_le short]
  · rw [deliver_more (Nat.lt_of_not_le short)]

theorem exists_deliver_eq (m : Memory) (limit : Nat) (select : List String) (rows : List Row) :
    ∃ pending issued, (m.deliver limit select rows).2 = { m with pending, issued } := by
  by_cases short : rows.length ≤ limit
  · rw [deliver_last short]
    exact ⟨m.pending, m.issued, rfl⟩
  · rw [deliver_more (Nat.lt_of_not_le short)]
    exact ⟨_, _, rfl⟩

/-! The answers. -/

/-- Only the rows that are left behind and their indices change. -/
theorem exists_serveQuery_eq (r : Request) (m : Memory) :
    ∃ pending issued, (serveQuery r m).2 = { m with pending, issued } := by
  rw [serveQuery_eq_settle]
  cases answered : m.query r with
  | error e => exact ⟨m.pending, m.issued, rfl⟩
  | ok out =>
    rw [query, allow_bind_eq_ok_iff] at answered
    obtain ⟨-, answered⟩ := answered
    split at answered
    · cases answered
      exact ⟨_, _, rfl⟩
    split at answered
    · contradiction
    split at answered
    · split at answered
      · contradiction
      · cases answered
        exact exists_deliver_eq _ _ _ _
    · cases found : m.matching r with
      | error e =>
        rw [found] at answered
        contradiction
      | ok rows =>
        rw [found] at answered
        cases answered
        exact exists_deliver_eq _ _ _ _

theorem serveQuery_failing {status : Int32} (h : m.failures .query = some status) :
    serveQuery r m = (.error (.failed status "injected query failure"), m) := by
  have failed : m.allow .query = .error (.failed status "injected query failure") := by
    rw [allow, h]
    rfl
  rw [serveQuery_eq_settle, query, failed]
  rfl

theorem limits_of_pos (positive : 0 < r.maxRows) :
    r.maxRows ≠ releaseLimit ∧ ¬ r.maxRows ≤ 0 := by
  refine ⟨?_, ?_⟩
  · intro same
    rw [same] at positive
    exact absurd positive (by decide)
  · rw [Int32.not_le]
    exact positive

theorem toNat_pos_of_pos {limit : Int32} (positive : 0 < limit) : 0 < limit.toInt.toNat := by
  have := Int32.lt_iff_toInt_lt.mp positive
  rw [Int32.toInt_zero] at this
  omega

section
variable (allowed : m.failures .query = none)
include allowed

theorem serveQuery_release (limit : r.maxRows = releaseLimit) :
    serveQuery r m =
      (.ok ⟨[], 0, UInt64.ofNat r.select.length⟩, m.forget r.continueIndex) := by
  rw [serveQuery_eq_settle, query, allow, allowed]
  simp only [Bind.bind, Except.bind, limit, if_true]
  rfl

variable (positive : 0 < r.maxRows)
include positive

theorem serveQuery_first (start : r.continueIndex = 0) :
    serveQuery r m = m.settle (do
      return m.deliver r.maxRows.toInt.toNat r.select (← m.matching r)) := by
  obtain ⟨page, limit⟩ := limits_of_pos positive
  rw [serveQuery_eq_settle, query, allow, allowed]
  simp only [Bind.bind, Except.bind, page, limit, start, if_false]
  rfl

theorem serveQuery_next (index : r.continueIndex = k) (later : 0 < k)
    (left : m.pending[k]? = some rows) :
    serveQuery r m =
      (.ok ((m.forget k).deliver r.maxRows.toInt.toNat r.select rows).1,
        ((m.forget k).deliver r.maxRows.toInt.toNat r.select rows).2) := by
  obtain ⟨page, limit⟩ := limits_of_pos positive
  rw [serveQuery_eq_settle, query, allow, allowed]
  simp only [Bind.bind, Except.bind, page, limit, index, later, left, if_false, if_true]
  rfl

end

end DataGrid.Catalog.Memory
