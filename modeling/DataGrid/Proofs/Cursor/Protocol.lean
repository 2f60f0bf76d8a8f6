import DataGrid.Query.Cursor
import DataGrid.Proofs.Dialogue

/-! The life of a cursor against any catalog. A use of a cursor is in place in one state only; out
of place it sends nothing and changes nothing, and in place it sends exactly one request. Along a
course of uses the catalog may answer anything at any time: what is sent still follows from the
answers so far, after a release nothing is sent any more, and the state and the index of the cursor
stay consistent. -/
namespace DataGrid.Cursor
open Query
open Dialogue (Exchange Transcript)

/-- Where a cursor stands: its state, with the index of the next request if it is open. -/
inductive Stage where
  | idle
  | opened (index : Int)
  | closed

/-- A page leaves the cursor open exactly if it came with a positive index. -/
def Stage.ofIndex (index : Int) : Stage := if 0 < index then .opened index else .closed

def stage (c : Cursor) : Stage :=
  match c.state with
  | .idle => .idle
  | .opened => .opened c.continueIndex
  | .closed => .closed

/-- What the owner of a cursor does with it. -/
inductive Use where
  | first
  | next
  | release
  deriving Repr, DecidableEq

namespace Use

/-- What a use brings if it succeeds. -/
abbrev Result : Use → Type
  | .first | .next => Option Page
  | .release => Unit

/-- The use as it is written in messages. -/
def title : Use → String
  | .first => "execute"
  | .next => "fetch_next"
  | .release => "close"

def limit (pageSize : Int32) : Use → Int32
  | .first | .next => pageSize
  | .release => releaseLimit

end Use

def perform (c : Cursor) : (u : Use) → Dialogue Query.interface (Except Error u.Result × Cursor)
  | .first => c.firstPage
  | .next => c.nextPage
  | .release => c.release

/-- Whether the use is in place. -/
def Admits (c : Cursor) : Use → Prop
  | .first => c.state = .idle
  | .next | .release => c.isOpen = true

/-- What the answer to its request makes of a use. -/
def outcome (c : Cursor) :
    (u : Use) → Except Catalog.Failure Reply → Except Error u.Result × Cursor
  | .first, answer => { c with maxRows := c.pageSize, continueIndex := 0 }.receive answer
  | .next, answer => { c with maxRows := c.pageSize }.receive answer
  | .release, answer => { c with maxRows := releaseLimit }.released answer

/-- The continuation index that a use asks for. -/
def Use.index (c : Cursor) : Use → Int
  | .first => 0
  | .next | .release => c.continueIndex

/-- The request of a use that is in place. -/
abbrev requestOf (c : Cursor) (u : Use) : Request :=
  ⟨c.select, c.conditions, u.limit c.pageSize, u.index c⟩

variable {c c' : Cursor} {u : Use} {k : Int}

theorem stage_eq_idle_iff : c.stage = .idle ↔ c.state = .idle := by
  cases h : c.state <;> simp [stage, h]

theorem stage_eq_closed_iff : c.stage = .closed ↔ c.state = .closed := by
  cases h : c.state <;> simp [stage, h]

theorem stage_eq_opened_iff : c.stage = .opened k ↔ c.isOpen = true ∧ c.continueIndex = k := by
  cases h : c.state <;> simp [stage, isOpen, h]

theorem isOpen_iff : c.isOpen = true ↔ ∃ k, c.stage = .opened k := by
  simp [stage_eq_opened_iff]

theorem perform_of_not_admits (h : ¬ c.Admits u) :
    c.perform u = .done (.error (.misuse s!"{u.title} on a {c.state.title} cursor"), c) := by
  cases u with
  | first => exact if_pos h
  | next => exact if_neg h
  | release => exact if_neg h

theorem perform_of_no_columns (h : c.state = .idle) (none : c.select = []) :
    c.perform .first = .done (.error (.input "query has no select columns"), c) := by
  simp [perform, firstPage, h, none]

/-- A use that is in place sends one request, unless it would be the first of a query without
columns. -/
theorem perform_of_admits (h : c.Admits u) (columns : u = .first → c.select ≠ []) :
    c.perform u = .ask (c.requestOf u) fun answer => .done (c.outcome u answer) := by
  cases u with
  | first =>
    have idle : c.state = .idle := h
    have some : c.select.isEmpty = false := by simpa using columns rfl
    rw [perform, firstPage, if_neg (by simp [idle]), if_neg (by simp [some])]
    rfl
  | next => exact if_pos h
  | release => exact if_pos h

/-- Nothing is in place once the cursor is closed. -/
theorem not_admits_of_closed (h : c.state = .closed) (u : Use) : ¬ c.Admits u := by
  cases u <;> simp [Admits, isOpen, h]

/-! What a use does to the cursor. -/

/-- The stage after the answer to a use. Failures other than that nothing matches leave a cursor
where it is, but a release closes it in any case. -/
def Use.stageAfter (stage : Stage) : Use → Except Catalog.Failure Reply → Stage
  | .release, _ => .closed
  | _, .ok reply => .ofIndex reply.continueIndex
  | _, .error .noRows => .closed
  | _, .error (.failed _ _) => stage

theorem stage_receive_ok (c : Cursor) (reply : Reply) :
    (c.receive (.ok reply)).2.stage = .ofIndex reply.continueIndex := by
  by_cases further : 0 < reply.continueIndex
  · simp [receive, stage, Stage.ofIndex, Int.max_eq_left (Int.le_of_lt further), further]
  · simp [receive, stage, Stage.ofIndex, Int.max_eq_right (Int.not_lt.mp further), further]

theorem outcome_stage (admits : c.Admits u) (answer : Except Catalog.Failure Reply) :
    (c.outcome u answer).2.stage = u.stageAfter c.stage answer := by
  cases u with
  | first =>
    have idle : c.state = .idle := admits
    rcases answer with (_ | _) | reply
    · rfl
    · simp only [outcome, receive, Use.stageAfter, stage, idle]
    · exact stage_receive_ok _ reply
  | next =>
    rcases answer with (_ | _) | reply
    · rfl
    · rfl
    · exact stage_receive_ok _ reply
  | release => rcases answer with (_ | _) | reply <;> rfl

/-- A cursor that is not open asks from the beginning. -/
def Consistent (c : Cursor) : Prop := c.isOpen ≠ true → c.continueIndex = 0

theorem consistent_receive (h : Consistent c) (answer : Except Catalog.Failure Reply) :
    Consistent (c.receive answer).2 := by
  rcases answer with (_ | _) | reply
  · exact fun _ => rfl
  · exact h
  · intro shut
    have none : ¬ 0 < max reply.continueIndex 0 := by simpa [receive, isOpen] using shut
    exact Int.le_antisymm (Int.not_lt.mp none) (Int.le_max_right _ _)

theorem consistent_outcome (h : Consistent c) (u : Use) (answer : Except Catalog.Failure Reply) :
    Consistent (c.outcome u answer).2 := by
  cases u with
  | first => exact consistent_receive (fun _ => rfl) answer
  | next => exact consistent_receive (c := { c with maxRows := c.pageSize }) h answer
  | release => rcases answer with (_ | _) | reply <;> exact fun _ => rfl

theorem outcome_failed (c : Cursor) (u : Use) (status : Int32) (message : String) :
    (c.outcome u (.error (.failed status message))).1 =
      .error (.catalog .query (",".intercalate c.select) status message) := by
  cases u <;> rfl

theorem outcome_ok (c : Cursor) (u : Use) {answer : Except Catalog.Failure Reply}
    (h : ∀ status message, answer ≠ .error (.failed status message)) :
    ∃ r, (c.outcome u answer).1 = .ok r := by
  rcases answer with (_ | ⟨status, message⟩) | reply
  · cases u <;> exact ⟨_, rfl⟩
  · exact absurd rfl (h status message)
  · cases u <;> exact ⟨_, rfl⟩

/-- The query of a cursor never changes. -/
structure SameQuery (c c' : Cursor) : Prop where
  select : c'.select = c.select
  conditions : c'.conditions = c.conditions
  pageSize : c'.pageSize = c.pageSize

theorem SameQuery.refl (c : Cursor) : SameQuery c c := ⟨rfl, rfl, rfl⟩

theorem SameQuery.trans {c'' : Cursor} (h : SameQuery c c') (h' : SameQuery c' c'') :
    SameQuery c c'' :=
  ⟨h'.select.trans h.select, h'.conditions.trans h.conditions, h'.pageSize.trans h.pageSize⟩

theorem outcome_sameQuery (c : Cursor) (u : Use) (answer : Except Catalog.Failure Reply) :
    SameQuery c (c.outcome u answer).2 := by
  cases u <;> rcases answer with (_ | _) | reply <;> exact ⟨rfl, rfl, rfl⟩

/-! Courses. -/

/-- One use of a cursor: what was sent meanwhile, with the answers, and what came of it. -/
structure Act where
  use : Use
  sent : List (Exchange Query.interface)
  result : Except Error use.Result

def exchanges (past : List Act) : List (Exchange Query.interface) := past.flatMap Act.sent

/-- The acts, in order, that have led from one cursor to another, whatever was answered. -/
inductive Course (start : Cursor) : List Act → Cursor → Prop
  | begun : Course start [] start
  | act {past : List Act} {c c' : Cursor} {u : Use} {sent : List (Exchange Query.interface)}
      {result : Except Error u.Result} (before : Course start past c)
      (ends : Transcript (c.perform u) sent (result, c')) :
      Course start (past ++ [⟨u, sent, result⟩]) c'

/-- The continuation index that an answer gives. -/
def index? : Except Catalog.Failure Reply → Option Int
  | .ok reply => some reply.continueIndex
  | .error _ => none

/-- The continuation index of the last successful answer; zero if there is none. -/
def lastIndex (past : List (Exchange Query.interface)) : Int :=
  (past.filterMap fun e => index? e.answer).getLast?.getD 0

/-- A page size that is positive is not the limit of a release. -/
theorem ne_releaseLimit (size : 0 < c.pageSize) : c.pageSize ≠ releaseLimit := by
  intro same
  rw [same] at size
  exact absurd size (by decide)

/-- The request that a use has to send after what was exchanged so far. -/
def Use.request (select : List String) (conditions : List Condition) (pageSize : Int32)
    (past : List (Exchange Query.interface)) : Use → Request
  | .first => ⟨select, conditions, pageSize, 0⟩
  | .next => ⟨select, conditions, pageSize, lastIndex past⟩
  | .release => ⟨select, conditions, releaseLimit, lastIndex past⟩

/-- A use changes nothing, or sends one request and takes its answer. -/
theorem transcript_perform {sent : List (Exchange Query.interface)}
    {result : Except Error u.Result} (h : Transcript (c.perform u) sent (result, c')) :
    (sent = [] ∧ c' = c ∧ ∃ e, result = .error e) ∨
      c.Admits u ∧ ∃ answer, c' = (c.outcome u answer).2 ∧
        sent = [⟨c.requestOf u, answer⟩] := by
  by_cases admits : c.Admits u
  · by_cases columns : u = .first → c.select ≠ []
    · rw [perform_of_admits admits columns] at h
      obtain ⟨answer, hsent, hout⟩ := Dialogue.transcript_single_iff.mp h
      exact .inr ⟨admits, answer, congrArg Prod.snd hout, hsent⟩
    · simp only [Classical.not_imp, Classical.not_not] at columns
      obtain ⟨rfl, none⟩ := columns
      rw [perform_of_no_columns admits none] at h
      obtain ⟨hsent, hout⟩ := Dialogue.transcript_done_iff.mp h
      cases hout
      exact .inl ⟨hsent, rfl, _, rfl⟩
  · rw [perform_of_not_admits admits] at h
    obtain ⟨hsent, hout⟩ := Dialogue.transcript_done_iff.mp h
    cases hout
    exact .inl ⟨hsent, rfl, _, rfl⟩

/-- A use that is in place goes on with any answer. -/
theorem Course.answered {start : Cursor} {past : List Act} (course : Course start past c)
    (admits : c.Admits u) (columns : u = .first → c.select ≠ [])
    (answer : Except Catalog.Failure Reply) :
    Course start (past ++ [⟨u, [⟨c.requestOf u, answer⟩], (c.outcome u answer).1⟩])
      (c.outcome u answer).2 := by
  apply course.act
  rw [perform_of_admits admits columns]
  exact Dialogue.transcript_single_iff.mpr ⟨answer, rfl, rfl⟩

/-! What a course preserves. -/

theorem exchanges_concat (past : List Act) (a : Act) :
    exchanges (past ++ [a]) = exchanges past ++ a.sent := by
  simp [exchanges]

theorem lastIndex_concat (past : List (Exchange Query.interface))
    (e : Exchange Query.interface) :
    lastIndex (past ++ [e]) = (index? e.answer).getD (lastIndex past) := by
  cases h : index? e.answer <;> simp [lastIndex, List.filterMap_append, h]

/-- An open cursor stands at the index of the last successful answer, and a cursor that has sent a
release is closed. -/
structure Tracked (start : Cursor) (past : List Act) (c : Cursor) : Prop where
  query : SameQuery start c
  consistent : Consistent c
  opened : ∀ k, c.stage = .opened k → 0 < k ∧ lastIndex (exchanges past) = k
  released : ∀ a ∈ past, ∀ e ∈ a.sent, e.call.maxRows = releaseLimit →
    a.use = .release ∧ c.state = .closed

theorem stageAfter_eq_opened {stage : Stage} {answer : Except Catalog.Failure Reply}
    (h : u.stageAfter stage answer = .opened k) :
    (index? answer = some k ∧ 0 < k) ∨ (index? answer = none ∧ stage = .opened k) := by
  cases u with
  | release => cases h
  | _ =>
    rcases answer with (_ | _) | reply
    · cases h
    · exact .inr ⟨rfl, h⟩
    · simp only [Use.stageAfter, Stage.ofIndex] at h
      split at h
      · next positive =>
        cases h
        exact .inl ⟨rfl, positive⟩
      · cases h

theorem Tracked.act {start : Cursor} {past : List Act} {sent : List (Exchange Query.interface)}
    {result : Except Error u.Result} (tracked : Tracked start past c)
    (size : 0 < start.pageSize) (ends : Transcript (c.perform u) sent (result, c')) :
    Tracked start (past ++ [⟨u, sent, result⟩]) c' := by
  rcases transcript_perform ends with ⟨rfl, rfl, -⟩ | ⟨admits, answer, rfl, rfl⟩
  · refine ⟨tracked.query, tracked.consistent, ?_, ?_⟩
    · simpa [exchanges_concat] using tracked.opened
    · intro a ha e he limit
      rcases List.mem_append.mp ha with ha | ha
      · exact tracked.released a ha e he limit
      · obtain rfl := List.mem_singleton.mp ha
        contradiction
  · have stage := outcome_stage admits answer
    refine ⟨tracked.query.trans (outcome_sameQuery c u answer),
      consistent_outcome tracked.consistent u answer, ?_, ?_⟩
    · intro k opened
      rw [stage] at opened
      rw [exchanges_concat, lastIndex_concat]
      rcases stageAfter_eq_opened opened with ⟨given, positive⟩ | ⟨none, before⟩
      · exact ⟨positive, by rw [given]; rfl⟩
      · rw [none]
        exact tracked.opened k before
    · intro a ha e he limit
      rcases List.mem_append.mp ha with ha | ha
      · -- A release that was sent before would have left nothing in place.
        exact absurd admits (not_admits_of_closed (tracked.released a ha e he limit).2 u)
      · obtain rfl := List.mem_singleton.mp ha
        obtain rfl := List.mem_singleton.mp he
        have page : c.pageSize ≠ releaseLimit := by
          rw [tracked.query.pageSize]
          exact ne_releaseLimit size
        cases u with
        | release => exact ⟨rfl, stage_eq_closed_iff.mp stage⟩
        | _ => exact absurd limit page

theorem Course.tracked {start : Cursor} {past : List Act} (course : Course start past c)
    (idle : start.state = .idle) (new : Consistent start) (size : 0 < start.pageSize) :
    Tracked start past c := by
  induction course with
  | begun => exact ⟨.refl start, new, by simp [stage, idle], by simp⟩
  | act before ends ih => exact ih.act size ends

/-- Nothing is exchanged after a release. -/
theorem Course.release_last {start : Cursor} {past : List Act} (course : Course start past c)
    (idle : start.state = .idle) (new : Consistent start) (size : 0 < start.pageSize)
    {before rest : List (Exchange Query.interface)} {e : Exchange Query.interface}
    (split : exchanges past = before ++ e :: rest) (limit : e.call.maxRows = releaseLimit) :
    rest = [] := by
  induction course generalizing before rest with
  | begun => simp [exchanges] at split
  | @act past c c' u sent result course ends ih =>
    rw [exchanges_concat] at split
    rcases transcript_perform ends with ⟨rfl, rfl, -⟩ | ⟨admits, answer, rfl, rfl⟩
    · exact ih (by simpa using split)
    · rcases List.eq_nil_or_concat rest with none | ⟨rest, last, rfl⟩
      · exact none
      · rw [List.concat_eq_append, ← List.cons_append, ← List.append_assoc] at split
        have mem : e ∈ exchanges past := by
          rw [(List.append_inj' split rfl).1]
          simp
        obtain ⟨a, ha, he⟩ := List.mem_flatMap.mp mem
        have closed := ((course.tracked idle new size).released a ha e he limit).2
        exact absurd admits (not_admits_of_closed closed u)

/-- What is so of a cursor after its acts, and of every use that may follow. -/
structure Conforms (select : List String) (conditions : List Condition) (pageSize : Int32)
    (past : List Act) (c : Cursor) : Prop where
  /-- The index and the state tell the same. -/
  nonneg : 0 ≤ c.continueIndex
  isOpen : c.isOpen = true ↔ 0 < c.continueIndex
  /-- Out of place nothing is sent and nothing changes. -/
  misused : ∀ u, ¬ c.Admits u →
    c.perform u = .done (.error (.misuse s!"{u.title} on a {c.state.title} cursor"), c)
  final : c.state = .closed → ∀ u, ¬ c.Admits u
  /-- In place one request is sent, and its answer alone decides what comes of it. -/
  asked : ∀ u, c.Admits u →
    ∃ after : Except Catalog.Failure Reply → Except Error u.Result × Cursor,
      c.perform u = .ask (u.request select conditions pageSize (exchanges past))
        (fun answer => .done (after answer)) ∧
      (∀ answer, (after answer).2.stage = u.stageAfter c.stage answer) ∧
      (∀ status message, (after (.error (.failed status message))).1 =
        .error (.catalog .query (",".intercalate select) status message)) ∧
      ∀ answer, (∀ status message, answer ≠ .error (.failed status message)) →
        ∃ r, (after answer).1 = .ok r
  /-- Only a release sends the release limit, and it is the last to send anything. -/
  released : ∀ a ∈ past, ∀ e ∈ a.sent, e.call.maxRows = releaseLimit →
    a.use = .release ∧ c.state = .closed
  last : ∀ before e rest, exchanges past = before ++ e :: rest →
    e.call.maxRows = releaseLimit → rest = []

theorem request_of_tracked {start : Cursor} {past : List Act} (tracked : Tracked start past c)
    (admits : c.Admits u) : c.requestOf u =
      u.request start.select start.conditions start.pageSize (exchanges past) := by
  rw [requestOf, tracked.query.select, tracked.query.conditions, tracked.query.pageSize]
  cases u with
  | first => rfl
  | _ =>
    have last := (tracked.opened c.continueIndex (stage_eq_opened_iff.mpr ⟨admits, rfl⟩)).2
    simp only [Use.request, Use.limit, Use.index, last]

/-- Every course of a query with columns and a positive page size conforms, whatever the catalog
answers. -/
theorem course_conforms {select : List String} {conditions : List Condition} {pageSize : Int32}
    {past : List Act} (columns : select ≠ []) (size : 0 < pageSize)
    (course : Course (ofConditions select conditions pageSize) past c) :
    Conforms select conditions pageSize past c := by
  have new : Consistent (ofConditions select conditions pageSize) := fun _ => rfl
  have tracked := course.tracked rfl new size
  have index (h : c.isOpen = true) : 0 < c.continueIndex :=
    (tracked.opened c.continueIndex (stage_eq_opened_iff.mpr ⟨h, rfl⟩)).1
  refine
    { nonneg := ?_
      isOpen := ⟨index, fun positive => ?_⟩
      misused := fun u => perform_of_not_admits
      final := not_admits_of_closed
      asked := fun u admits => ⟨c.outcome u, ?_, outcome_stage admits, ?_, fun a => outcome_ok c u⟩
      released := tracked.released
      last := fun before e rest => course.release_last rfl new size }
  · by_cases h : c.isOpen = true
    · exact Int.le_of_lt (index h)
    · exact Int.le_of_eq (tracked.consistent h).symm
  · by_cases h : c.isOpen = true
    · exact h
    · exact absurd (tracked.consistent h) (Int.ne_of_gt positive)
  · have sends := perform_of_admits admits fun _ => tracked.query.select ▸ columns
    rw [request_of_tracked tracked admits] at sends
    exact sends
  · intro status message
    rw [outcome_failed, tracked.query.select]
    rfl

/-- A page that leaves rows behind, then a page that fails: the cursor is still open where it
was. -/
theorem open_after_failed_page : ∃ past c,
    Course (ofConditions ["DATA_NAME"] [] 5) past c ∧
    exchanges past = [⟨⟨["DATA_NAME"], [], 5, 0⟩, .ok ⟨[["a"]], 7, 1⟩⟩,
      ⟨⟨["DATA_NAME"], [], 5, 7⟩, .error (.failed (-806000) "boom")⟩] ∧
    c.stage = .opened 7 ∧ Conforms ["DATA_NAME"] [] 5 past c := by
  have new : Course (ofConditions ["DATA_NAME"] [] 5) [] (ofConditions ["DATA_NAME"] [] 5) :=
    .begun
  have first := new.answered (u := .first) rfl (by simp [ofConditions]) (.ok ⟨[["a"]], 7, 1⟩)
  have next := first.answered (u := .next) rfl (by simp) (.error (.failed (-806000) "boom"))
  exact ⟨_, _, next, rfl, rfl, course_conforms (by decide) (by decide) next⟩

end DataGrid.Cursor
