import DataGrid.Proofs.Catalog.Queries
import DataGrid.Proofs.Cursor.Protocol

/-! What a use of a cursor does to a catalog in memory. It changes nothing, or hands out a page
and leaves what does not fit behind under a fresh index, or gives back what was left behind; only
a release that the catalog refuses closes the cursor and leaves its rows where they are. -/
namespace DataGrid.Cursor
open Query
open Catalog (Memory)
open Catalog.Memory
open Dialogue (Exchange)

/-- The rows on a page of the cursor. -/
def limit (c : Cursor) : Nat := c.pageSize.toInt.toNat

/-- The page that the act brought, if it brought one. -/
def Act.page? : Act → Option Page
  | ⟨.first, _, .ok page⟩ | ⟨.next, _, .ok page⟩ => page
  | _ => none

/-- A request for release that was answered with an error. -/
def refused (e : Exchange Query.interface) : Bool :=
  e.call.maxRows == releaseLimit && !(index? e.answer).isSome

def refusals (sent : List (Exchange Query.interface)) : Nat := sent.countP refused

/-- A release that was in place. -/
def Act.Releases (a : Act) : Prop := a.use = .release ∧ a.sent ≠ []

/-- The act that a use is on this catalog. -/
def actOn (c : Cursor) (u : Use) (m : Memory) : Act :=
  ⟨u, (c.perform u).exchanges serveQuery m, ((c.perform u).run serveQuery m).1.1⟩

/-- Where the rows of a page come from, and the catalog once they are taken. -/
inductive Source (m : Memory) (c : Cursor) : Use → List Row → Memory → Prop
  | matched (idle : c.stage = .idle) (some : m.matched c.select c.conditions ≠ []) :
      Source m c .first (m.matched c.select c.conditions) m
  | left {k : Int} {rows : List Row} (opened : c.stage = .opened k)
      (left : m.pending[k]? = some rows) : Source m c .next rows (m.forget k)

/-- An act ends with a stage of the cursor and a catalog. -/
inductive Effect (m : Memory) (c : Cursor) (a : Act) : Stage → Memory → Prop
  | unchanged (quiet : a.page? = none) (none : refusals a.sent = 0) : Effect m c a c.stage m
  | unmatched (idle : c.stage = .idle) (quiet : a.page? = none) (none : refusals a.sent = 0) :
      Effect m c a .closed m
  | last {rows : List Row} {base : Memory} (source : Source m c a.use rows base)
      (short : rows.length ≤ c.limit) (page : a.page? = some ⟨c.select, rows⟩)
      (none : refusals a.sent = 0) : Effect m c a .closed base
  | more {rows : List Row} {base : Memory} (source : Source m c a.use rows base)
      (long : c.limit < rows.length) (page : a.page? = some ⟨c.select, rows.take c.limit⟩)
      (none : refusals a.sent = 0) :
      Effect m c a (.opened (base.issued + 1)) (base.leave (rows.drop c.limit))
  | released {k : Int} (opened : c.stage = .opened k) (releases : a.Releases)
      (quiet : a.page? = none) (none : refusals a.sent = 0) : Effect m c a .closed (m.forget k)
  | lost {k : Int} (opened : c.stage = .opened k) (releases : a.Releases)
      (quiet : a.page? = none) (one : refusals a.sent = 1) : Effect m c a .closed m

variable {m : Memory} {c : Cursor} {u : Use} {k : Int} {rows : List Row}

theorem limit_pos (size : 0 < c.pageSize) : 0 < c.limit := toNat_pos_of_pos size

theorem ofIndex_issued (m : Memory) : Stage.ofIndex (m.issued + 1) = .opened (m.issued + 1) :=
  if_pos (by omega)

section
variable (admits : c.Admits u) (columns : u = .first → c.select ≠ [])
include admits columns

theorem run_perform (m : Memory) :
    (c.perform u).run serveQuery m =
      (c.outcome u (serveQuery (c.requestOf u) m).1, (serveQuery (c.requestOf u) m).2) := by
  rw [perform_of_admits admits columns]
  rfl

theorem actOn_eq (m : Memory) :
    c.actOn u m = ⟨u, [⟨c.requestOf u, (serveQuery (c.requestOf u) m).1⟩],
      (c.outcome u (serveQuery (c.requestOf u) m).1).1⟩ := by
  rw [actOn, run_perform admits columns, perform_of_admits admits columns]
  rfl

end

theorem page?_error {sent : List (Exchange Query.interface)} {e : Error} :
    Act.page? ⟨u, sent, .error e⟩ = none := by
  cases u <;> rfl

theorem refusals_of_page {e : Exchange Query.interface} (page : e.call.maxRows ≠ releaseLimit) :
    refusals [e] = 0 := by
  simp [refusals, refused, page]

theorem refusals_of_ok {r : Request} {reply : Reply} : refusals [⟨r, .ok reply⟩] = 0 := by
  simp [refusals, refused, index?]

/-- A page that is handed out is the last one or leaves rows behind. -/
theorem effect_of_deliver {base : Memory} {a : Act} (source : Source m c a.use rows base)
    (none : refusals a.sent = 0)
    (page : a.page? = some ⟨c.select, (base.deliver c.limit c.select rows).1.rows⟩) :
    Effect m c a (.ofIndex (base.deliver c.limit c.select rows).1.continueIndex)
      (base.deliver c.limit c.select rows).2 := by
  by_cases short : rows.length ≤ c.limit
  · rw [deliver_last short] at page ⊢
    exact .last source short page none
  · have long : c.limit < rows.length := Nat.lt_of_not_le short
    rw [deliver_more long] at page ⊢
    simp only [ofIndex_issued]
    exact .more source long page none

theorem effect_of_failure {status : Int32} (size : 0 < c.pageSize)
    (h : m.failures .query = some status) (admits : c.Admits u)
    (columns : u = .first → c.select ≠ []) :
    Effect m c (c.actOn u m) ((c.perform u).run serveQuery m).1.2.stage
      ((c.perform u).run serveQuery m).2 := by
  rw [actOn_eq admits columns, run_perform admits columns, outcome_stage admits,
    serveQuery_failing h]
  cases u with
  | release =>
    obtain ⟨k, opened⟩ := isOpen_iff.mp admits
    exact .lost opened ⟨rfl, by simp⟩ rfl rfl
  | _ => exact .unchanged rfl (refusals_of_page (ne_releaseLimit size))

theorem effect_of_first (size : 0 < c.pageSize) (allowed : m.failures .query = none)
    (idle : c.stage = .idle) (columns : c.select ≠ []) :
    Effect m c (c.actOn .first m) ((c.perform .first).run serveQuery m).1.2.stage
      ((c.perform .first).run serveQuery m).2 := by
  have admits : c.Admits .first := stage_eq_idle_iff.mp idle
  rw [actOn_eq admits fun _ => columns, run_perform admits fun _ => columns, outcome_stage admits,
    serveQuery_first (r := c.requestOf .first) allowed size rfl]
  have page : c.pageSize ≠ releaseLimit := ne_releaseLimit size
  cases found : m.matching (c.requestOf .first) with
  | error e =>
    cases e with
    | noRows => exact .unmatched idle rfl (refusals_of_page page)
    | failed status message => exact .unchanged rfl (refusals_of_page page)
  | ok rows =>
    obtain ⟨rfl, some⟩ := eq_matched_of_matching found
    exact effect_of_deliver (.matched idle some) refusals_of_ok rfl

theorem effect_of_next (size : 0 < c.pageSize) (allowed : m.failures .query = none)
    (opened : c.stage = .opened k) (later : 0 < k) (left : m.pending[k]? = some rows) :
    Effect m c (c.actOn .next m) ((c.perform .next).run serveQuery m).1.2.stage
      ((c.perform .next).run serveQuery m).2 := by
  have admits : c.Admits .next := isOpen_iff.mpr ⟨k, opened⟩
  have index : (c.requestOf .next).continueIndex = k := (stage_eq_opened_iff.mp opened).2
  rw [actOn_eq admits (by simp), run_perform admits (by simp), outcome_stage admits,
    serveQuery_next (r := c.requestOf .next) allowed size index later left]
  exact effect_of_deliver (.left opened left) refusals_of_ok rfl

theorem effect_of_release (allowed : m.failures .query = none) (opened : c.stage = .opened k) :
    Effect m c (c.actOn .release m) ((c.perform .release).run serveQuery m).1.2.stage
      ((c.perform .release).run serveQuery m).2 := by
  have admits : c.Admits .release := isOpen_iff.mpr ⟨k, opened⟩
  have index : (c.requestOf .release).continueIndex = k := (stage_eq_opened_iff.mp opened).2
  rw [actOn_eq admits (by simp), run_perform admits (by simp), outcome_stage admits,
    serveQuery_release allowed rfl, index]
  exact .released opened ⟨rfl, by simp⟩ rfl refusals_of_ok

/-- Every use of a cursor has such an effect, provided that the rows an open cursor waits for are
there. -/
theorem effect_of_use (size : 0 < c.pageSize)
    (held : ∀ k, c.stage = .opened k → 0 < k ∧ ∃ rows, m.pending[k]? = some rows) (u : Use) :
    Effect m c (c.actOn u m) ((c.perform u).run serveQuery m).1.2.stage
      ((c.perform u).run serveQuery m).2 := by
  by_cases admits : c.Admits u
  · by_cases columns : u = .first → c.select ≠ []
    · cases allowed : m.failures .query with
      | some status => exact effect_of_failure size allowed admits columns
      | none =>
        cases u with
        | first =>
          exact effect_of_first size allowed (stage_eq_idle_iff.mpr admits) (columns rfl)
        | next =>
          obtain ⟨k, opened⟩ := isOpen_iff.mp admits
          obtain ⟨later, rows, left⟩ := held k opened
          exact effect_of_next size allowed opened later left
        | release =>
          obtain ⟨k, opened⟩ := isOpen_iff.mp admits
          exact effect_of_release allowed opened
    · simp only [Classical.not_imp, Classical.not_not] at columns
      obtain ⟨rfl, none⟩ := columns
      rw [actOn, perform_of_no_columns admits none]
      exact .unchanged rfl rfl
  · rw [actOn, perform_of_not_admits admits]
    exact .unchanged page?_error rfl

/-! What an effect means for the rows that are left behind. -/

theorem Source.stocked {base : Memory} (source : Source m c u rows base) (h : Stocked m) :
    Stocked base := by
  cases source with
  | matched idle some => exact h
  | left opened left => exact h.forget _

theorem Source.ne_nil {base : Memory} (source : Source m c u rows base) (h : Stocked m) :
    rows ≠ [] := by
  cases source with
  | matched idle some => exact some
  | left opened left => exact h.filled _ _ left

theorem Source.issued {base : Memory} (source : Source m c u rows base) :
    base.issued = m.issued := by
  cases source <;> rfl

theorem frame_forget {j : Int} (other : c.stage ≠ .opened j) (opened : c.stage = .opened k) :
    (m.forget k).pending[j]? = m.pending[j]? := by
  rw [getElem?_forget, if_neg]
  rintro rfl
  exact other opened

theorem Source.frame {base : Memory} {j : Int} (source : Source m c u rows base)
    (other : c.stage ≠ .opened j) : base.pending[j]? = m.pending[j]? := by
  cases source with
  | matched idle some => rfl
  | left opened left => exact frame_forget other opened

/-- One for an open cursor and zero for any other. -/
def Stage.weight : Stage → Nat
  | .opened _ => 1
  | .idle | .closed => 0

theorem Source.size {base : Memory} (source : Source m c u rows base) :
    base.pending.size + c.stage.weight = m.pending.size := by
  cases source with
  | matched idle some => rw [idle]; rfl
  | left opened left =>
    rw [opened]
    exact size_forget ((mem_pending_iff m _).mpr ⟨_, left⟩)

section
variable {a : Act} {stage : Stage} {m' : Memory} (effect : Effect m c a stage m')
  (stock : Stocked m)
include effect stock

theorem Effect.stocked : Stocked m' := by
  cases effect with
  | more source long page none => exact (source.stocked stock).leave (by simpa using long)
  | last source short page none => exact source.stocked stock
  | released opened releases quiet none => exact stock.forget _
  | _ => exact stock

/-- What is added to the waiting rows is added to the open cursors or to the refused releases. -/
theorem Effect.balance (held : ∀ k, c.stage = .opened k → k ∈ m.pending) :
    m'.pending.size + c.stage.weight = m.pending.size + stage.weight + refusals a.sent := by
  cases effect with
  | unchanged quiet none => rw [none, Nat.add_zero]
  | unmatched idle quiet none => rw [none, idle]; rfl
  | last source short page none => rw [none, source.size]; rfl
  | more source long page none =>
    rw [none, size_leave (source.stocked stock), ← source.size, Stage.weight]
    omega
  | released opened releases quiet none =>
    rw [none, opened, ← size_forget (held _ opened)]
    rfl
  | lost opened releases quiet one => rw [one, opened]; rfl

end

section
variable {a : Act} {stage : Stage} {m' : Memory} (effect : Effect m c a stage m')
include effect

/-- A cursor that is open afterwards is open as before, or at a fresh index under which its rows
wait. -/
theorem Effect.opened {j : Int} (open' : stage = .opened j) :
    (c.stage = .opened j ∧ m' = m) ∨ (j = m.issued + 1 ∧ j ∈ m'.pending) := by
  cases effect with
  | unchanged quiet none => exact .inl ⟨open', rfl⟩
  | more source long page none =>
    cases open'
    rw [← source.issued]
    exact .inr ⟨rfl, by simp [leave]⟩
  | _ => cases open'

/-- The rows that wait for others are left alone. -/
theorem Effect.frame {j : Int} (other : c.stage ≠ .opened j) (old : j ≤ m.issued) :
    m'.pending[j]? = m.pending[j]? := by
  cases effect with
  | last source short page none => exact source.frame other
  | more source long page none =>
    have fresh : (m.issued : Int) + 1 ≠ j := by omega
    rw [getElem?_leave, source.issued, if_neg fresh, source.frame other]
  | released opened releases quiet none => exact frame_forget other opened
  | _ => rfl

/-- With a page come the first of some rows; the others wait, and if there are none the cursor is
closed. -/
theorem Effect.of_page {p : Page} (page : a.page? = some p) :
    ∃ rows base, Source m c a.use rows base ∧ p.rows = rows.take c.limit ∧
      ((stage = .closed ∧ rows.drop c.limit = []) ∨
        ∃ k, stage = .opened k ∧ m'.pending[k]? = some (rows.drop c.limit)) := by
  cases effect with
  | last source short brought none =>
    cases brought.symm.trans page
    exact ⟨_, _, source, (List.take_of_length_le short).symm,
      .inl ⟨rfl, List.drop_of_length_le short⟩⟩
  | more source long brought none =>
    cases brought.symm.trans page
    exact ⟨_, _, source, rfl, .inr ⟨_, rfl, by simp⟩⟩
  | unchanged quiet none | unmatched idle quiet none | released opened releases quiet none
  | lost opened releases quiet one =>
    rw [quiet] at page
    contradiction

theorem Effect.of_no_page (quiet : a.page? = none) :
    (stage = c.stage ∧ m' = m) ∨ (stage = .closed ∧ (c.stage = .idle ∨ a.Releases)) := by
  cases effect with
  | unchanged => exact .inl ⟨rfl, rfl⟩
  | unmatched idle => exact .inr ⟨rfl, .inl idle⟩
  | released opened releases | lost opened releases => exact .inr ⟨rfl, .inr releases⟩
  | last source short page none | more source long page none =>
    rw [quiet] at page
    contradiction

end

end DataGrid.Cursor
