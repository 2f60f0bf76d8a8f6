import Mathlib.Algebra.Ring.Nat
import DataGrid.Proofs.Cursor.Listing
import DataGrid.Proofs.Cursor.Protocol

/-! What a drain delivers. Its visitor is shown the pages of all successful answers, each once and
in order, up to the first that it rejects. The error is the visitor's own or that of the request
that failed; whatever a catalog still holds for the cursor is released by one last request, whose
answer does not count. Afterwards the cursor is not open. -/
namespace DataGrid.Cursor
open Query
open Dialogue (Exchange Runs runs_done)

variable {σ τ : Type}

/-- Asked for page after page from the index on, the catalog gives positive indices only finitely
often in a row. -/
inductive RunsDry (serve : Server σ Query.interface) (select : List String)
    (conditions : List Condition) (pageSize : Int32) : Int → σ → Prop
  | last {k : Int} {s : σ}
      (stop : ∀ reply, (serve ⟨select, conditions, pageSize, k⟩ s).1 = .ok reply →
        reply.continueIndex ≤ 0) :
      RunsDry serve select conditions pageSize k s
  | more {k : Int} {s mid : σ} {reply : Reply}
      (answered : serve ⟨select, conditions, pageSize, k⟩ s = (.ok reply, mid))
      (tail : RunsDry serve select conditions pageSize reply.continueIndex mid) :
      RunsDry serve select conditions pageSize k s

/-- The rows of the successful answers, as pages of these columns. -/
def pages (select : List String) (asked : List (Exchange Query.interface)) : List Page :=
  asked.filterMap fun e =>
    match e.answer with
    | .ok reply => some ⟨select, reply.rows⟩
    | .error _ => none

def rowCountOf (ps : List Page) : Nat := (ps.map fun p => p.rows.length).sum

/-- Shows the pages to a visitor in order, up to the first that it rejects. -/
def present (visit : Page → τ → Except Error Unit × τ) : List Page → τ → Except Error Unit × τ
  | [], t => (.ok (), t)
  | p :: ps, t =>
    match visit p t with
    | (.error e, t) => (.error e, t)
    | (.ok (), t) => present visit ps t

/-- A cursor at the index has been let go: what it held is released by one request. -/
def Freed (c : Cursor) (k : Int) (released : List (Exchange Query.interface)) : Prop :=
  if 0 < k then ∃ answer, released = [⟨⟨c.select, c.conditions, releaseLimit, k⟩, answer⟩]
  else released = []

/-- The requests that a drain sends for pages, with their answers. -/
structure Asked (c : Cursor) (visit : Page → τ → Except Error Unit × τ) (t : τ)
    (asked : List (Exchange Query.interface)) : Prop where
  /-- Each request goes on from the answers before it. -/
  requests : ∀ before e after, asked = before ++ e :: after →
    e.call = ⟨c.select, c.conditions, c.pageSize, lastIndex before⟩
  ongoing : ∀ before e after, asked = before ++ e :: after → after ≠ [] →
    ∃ reply, e.answer = .ok reply ∧ 0 < reply.continueIndex
  /-- Nothing more is asked for once a page has been rejected. -/
  accepted : ∀ before e after, asked = before ++ e :: after →
    (present visit (pages c.select before) t).1 = .ok ()

/-- What a drain comes to that has sent requests for pages and then a release, if any. -/
structure Delivers (c : Cursor) (visit : Page → τ → Except Error Unit × τ) (t : τ)
    (asked released : List (Exchange Query.interface)) (d : Drained τ) : Prop
    extends Asked c visit t asked where
  state : d.state = (present visit (pages c.select asked) t).2
  rejected : ∀ e, (present visit (pages c.select asked) t).1 = .error e → d.result = .error e
  finished : (present visit (pages c.select asked) t).1 = .ok () →
    ∃ before last, asked = before ++ [last] ∧
      match last.answer with
      | .ok reply =>
        reply.continueIndex ≤ 0 ∧ d.result = .ok (rowCountOf (pages c.select asked))
      | .error .noRows => d.result = .ok (rowCountOf (pages c.select asked))
      | .error (.failed status message) =>
        d.result = .error (.catalog .query (",".intercalate c.select) status message)
  notOpen : d.cursor.isOpen = false
  /-- Only a drain that fails has anything to release. -/
  released : match d.result with
    | .ok _ => released = []
    | .error _ => Freed c (lastIndex asked) released

variable {serve : Server σ Query.interface} {c₀ c : Cursor}
  {visit : Page → τ → Except Error Unit × τ} {t₀ t t' : τ} {total : Nat} {k : Int}
  {past released : List (Exchange Query.interface)} {s s' mid : σ} {e : Error}

theorem pages_append (select : List String) (before after : List (Exchange Query.interface)) :
    pages select (before ++ after) = pages select before ++ pages select after :=
  List.filterMap_append

theorem pages_concat_ok (select : List String) (past : List (Exchange Query.interface))
    (r : Request) (reply : Reply) :
    pages select (past ++ [⟨r, .ok reply⟩]) = pages select past ++ [⟨select, reply.rows⟩] := by
  simp [pages]

theorem pages_concat_error (select : List String) (past : List (Exchange Query.interface))
    (r : Request) (f : Catalog.Failure) :
    pages select (past ++ [⟨r, .error f⟩]) = pages select past := by
  simp [pages]

theorem rowCountOf_concat (ps : List Page) (p : Page) :
    rowCountOf (ps ++ [p]) = rowCountOf ps + p.rows.length := by
  simp [rowCountOf]

/-- After pages that were accepted comes the next. -/
theorem present_concat {ps : List Page} (seen : present visit ps t₀ = (.ok (), t)) (p : Page) :
    present visit (ps ++ [p]) t₀ = visit p t := by
  induction ps generalizing t₀ with
  | nil =>
    cases seen
    simp only [List.nil_append, present]
    split <;> simp_all
  | cons q ps ih =>
    simp only [List.cons_append, present] at seen ⊢
    split at seen
    · cases seen
    · exact ih seen

theorem present_of_append {ps qs : List Page} (seen : present visit (ps ++ qs) t₀ = (.ok (), t)) :
    (present visit ps t₀).1 = .ok () := by
  induction ps generalizing t₀ with
  | nil => rfl
  | cons p ps ih =>
    simp only [List.cons_append, present] at seen ⊢
    split at seen
    · cases seen
    · exact ih seen

/-- So far a drain has had only pages, with more to come, and its visitor has accepted them. -/
structure Underway (c₀ : Cursor) (visit : Page → τ → Except Error Unit × τ) (t₀ : τ)
    (past : List (Exchange Query.interface)) (c : Cursor) (total : Nat) (t : τ) : Prop where
  here : At c₀.select c₀.conditions c₀.pageSize (lastIndex past) c
  requests : ∀ before e after, past = before ++ e :: after →
    e.call = ⟨c₀.select, c₀.conditions, c₀.pageSize, lastIndex before⟩
  ongoing : ∀ e ∈ past, ∃ reply, e.answer = .ok reply ∧ 0 < reply.continueIndex
  seen : present visit (pages c₀.select past) t₀ = (.ok (), t)
  total : total = rowCountOf (pages c₀.select past)

theorem underway_idle (c : Cursor) (idle : c.state = .idle)
    (visit : Page → τ → Except Error Unit × τ) (t : τ) :
    Underway c visit t [] { c with continueIndex := 0 } 0 t where
  here := at_idle c idle
  requests := by simp
  ongoing := by simp
  seen := rfl
  total := rfl

/-- An exchange of a longer list is its last or one of those before. -/
theorem concat_eq_append_cons {α : Type} {xs before after : List α} {x y : α}
    (h : xs ++ [x] = before ++ y :: after) :
    after = [] ∧ before = xs ∧ y = x ∨ ∃ rest, after = rest ++ [x] ∧ xs = before ++ y :: rest := by
  rcases List.eq_nil_or_concat after with rfl | ⟨rest, last, rfl⟩
  · obtain ⟨rfl, same⟩ := List.append_inj' h rfl
    cases same
    exact .inl ⟨rfl, rfl, rfl⟩
  · rw [List.concat_eq_append, ← List.cons_append, ← List.append_assoc] at h
    obtain ⟨rfl, same⟩ := List.append_inj' h rfl
    cases same
    exact .inr ⟨rest, List.concat_eq_append .., rfl⟩

/-- The request that comes next. -/
abbrev nextRequest (c : Cursor) (past : List (Exchange Query.interface)) : Request :=
  ⟨c.select, c.conditions, c.pageSize, lastIndex past⟩

section
variable (way : Underway c₀ visit t₀ past c total t) (answer : Except Catalog.Failure Reply)
include way

theorem Underway.asked :
    Asked c₀ visit t₀ (past ++ [⟨nextRequest c₀ past, answer⟩]) where
  requests before e after split := by
    rcases concat_eq_append_cons split with ⟨-, rfl, rfl⟩ | ⟨rest, -, earlier⟩
    · rfl
    · exact way.requests before e rest earlier
  ongoing before e after split more := by
    rcases concat_eq_append_cons split with ⟨rfl, -, -⟩ | ⟨rest, -, rfl⟩
    · contradiction
    · exact way.ongoing e (by simp)
  accepted before e after split := by
    rcases concat_eq_append_cons split with ⟨-, rfl, -⟩ | ⟨rest, -, rfl⟩
    · rw [way.seen]
    · have seen := way.seen
      rw [pages_append] at seen
      exact present_of_append seen

end

/-- Letting a cursor go sends nothing unless it is open, and then releases what it holds. -/
theorem At.freed (here : At c₀.select c₀.conditions c₀.pageSize k c)
    (serve : Server σ Query.interface) (s : σ) : ∃ released c' s',
    Runs serve c.letGo s released c' s' ∧ Freed c₀ k released ∧ c'.isOpen = false := by
  by_cases later : 0 < k
  · refine ⟨_, _, _, here.runs_letGo later rfl, ?_, ?_⟩
    · exact (if_pos later).mpr ⟨_, rfl⟩
    · rcases (serve ⟨c₀.select, c₀.conditions, releaseLimit, k⟩ s).1 with (_ | _) | reply <;> rfl
  · have idle : c.isOpen ≠ true := mt here.isOpen.mp later
    refine ⟨[], c, s, ?_, (if_neg later).mpr rfl, by simpa using idle⟩
    rw [letGo, if_neg idle]
    exact runs_done serve c s

theorem At.freed_page (here : At c₀.select c₀.conditions c₀.pageSize k c) (reply : Reply)
    (serve : Server σ Query.interface) (s : σ) : ∃ released c' s',
    Runs serve ({ c with maxRows := c₀.pageSize }.receive (.ok reply)).2.letGo s released c' s' ∧
      Freed c₀ reply.continueIndex released ∧ c'.isOpen = false := by
  by_cases further : 0 < reply.continueIndex
  · exact (here.further further).freed serve s
  · have closed := closed_of_last (Int.not_lt.mp further) { c with maxRows := c₀.pageSize }
    refine ⟨[], _, s, ?_, (if_neg further).mpr rfl, closed⟩
    rw [letGo, closed]
    exact runs_done serve _ s

theorem drainFrom_rejected {page : Page} (rejected : visit page t = (.error e, t'))
    (budget total : Nat) (c : Cursor) :
    drainFrom visit (budget + 1) total (.ok (some page), c) t = do
      return some ⟨.error e, ← c.letGo, t'⟩ := by
  simp only [drainFrom, rejected]

/-- From here a drain ends whose budget covers the pages to come, and delivers what it should. -/
def Finishes (serve : Server σ Query.interface) (c₀ : Cursor)
    (visit : Page → τ → Except Error Unit × τ) (t₀ : τ) (past : List (Exchange Query.interface))
    (c : Cursor) (total : Nat) (t : τ) (s : σ) : Prop :=
  ∃ more released d s', (∀ budget, (pages c₀.select more).length ≤ budget →
      Runs serve (c.turn >>= fun out => drainFrom visit budget total out t) s
        (more ++ released) (some d) s') ∧
    Delivers c₀ visit t₀ (past ++ more) released d

/-- A budget that covers a page and those after it covers that page, and then the others. -/
theorem forall_page_budget {select : List String} {r : Request} {reply : Reply}
    {more : List (Exchange Query.interface)} {P : Nat → Prop}
    (h : ∀ budget, (pages select more).length ≤ budget → P (budget + 1)) (budget : Nat)
    (enough : (pages select (⟨r, .ok reply⟩ :: more)).length ≤ budget) : P budget := by
  obtain ⟨budget, rfl⟩ : ∃ n, budget = n + 1 :=
    Nat.exists_eq_succ_of_ne_zero (Nat.ne_of_gt (Nat.lt_of_lt_of_le (Nat.succ_pos _) enough))
  exact h budget (Nat.le_of_succ_le_succ enough)

/-! The four ends, by the answer to the next request and by what the visitor says to it. -/

section
variable (way : Underway c₀ visit t₀ past c total t)
include way

theorem Underway.present_next (reply : Reply) :
    present visit (pages c₀.select (past ++ [⟨nextRequest c₀ past, .ok reply⟩])) t₀ =
      visit ⟨c₀.select, reply.rows⟩ t := by
  rw [pages_concat_ok, present_concat way.seen]

theorem Underway.present_failed (f : Catalog.Failure) :
    present visit (pages c₀.select (past ++ [⟨nextRequest c₀ past, .error f⟩])) t₀ =
      (.ok (), t) := by
  rw [pages_concat_error, way.seen]

theorem Underway.ends_nothing
    (answered : serve (nextRequest c₀ past) s = (.error .noRows, mid)) :
    Finishes serve c₀ visit t₀ past c total t s := by
  let closed := ({ c with maxRows := c₀.pageSize }.receive (.error .noRows)).2
  refine ⟨[_], [], ⟨.ok total, closed, t⟩, mid,
    fun budget _ => way.here.runs_turn answered ?_, ?_⟩
  · rw [receive, drainFrom_nothing]
    exact runs_done _ _ _
  · refine { way.asked (.error .noRows) with
      state := by rw [way.present_failed], rejected := by simp [way.present_failed],
      finished := fun _ => ⟨past, _, rfl, ?_⟩, notOpen := rfl, released := rfl }
    rw [pages_concat_error, way.total]

theorem Underway.ends_failed {status : Int32} {message : String}
    (answered : serve (nextRequest c₀ past) s = (.error (.failed status message), mid)) :
    Finishes serve c₀ visit t₀ past c total t s := by
  obtain ⟨released, c', s', gone, freed, closed⟩ :=
    (way.here.withLimit c₀.pageSize).freed serve mid
  let e : Error := .catalog .query (",".intercalate c₀.select) status message
  refine ⟨[_], released, ⟨.error e, c', t⟩, s',
    fun budget _ => way.here.runs_failure answered gone visit budget total t, ?_⟩
  refine { way.asked (.error (.failed status message)) with
    state := by rw [way.present_failed], rejected := by simp [way.present_failed],
    finished := fun _ => ⟨past, _, rfl, rfl⟩, notOpen := closed, released := ?_ }
  rw [lastIndex_concat]
  exact freed

theorem Underway.ends_rejected {reply : Reply}
    (answered : serve (nextRequest c₀ past) s = (.ok reply, mid))
    (rejected : visit ⟨c₀.select, reply.rows⟩ t = (.error e, t')) :
    Finishes serve c₀ visit t₀ past c total t s := by
  obtain ⟨released, c', s', gone, freed, closed⟩ := way.here.freed_page reply serve mid
  refine ⟨[⟨nextRequest c₀ past, .ok reply⟩], released, ⟨.error e, c', t'⟩, s',
    forall_page_budget fun budget _ => way.here.runs_turn answered ?_, ?_⟩
  · rw [way.here.receive_page, drainFrom_rejected rejected]
    exact runs_failure gone e t'
  · refine { way.asked (.ok reply) with
      state := by rw [way.present_next, rejected],
      rejected := by simp [way.present_next, rejected],
      finished := by simp [way.present_next, rejected], notOpen := closed, released := ?_ }
    rw [lastIndex_concat]
    exact freed

theorem Underway.ends_complete {reply : Reply}
    (answered : serve (nextRequest c₀ past) s = (.ok reply, mid))
    (accepted : visit ⟨c₀.select, reply.rows⟩ t = (.ok (), t'))
    (last : reply.continueIndex ≤ 0) : Finishes serve c₀ visit t₀ past c total t s := by
  have closed := closed_of_last last { c with maxRows := c₀.pageSize }
  let after := ({ c with maxRows := c₀.pageSize }.receive (.ok reply)).2
  refine ⟨[⟨nextRequest c₀ past, .ok reply⟩], [], ⟨.ok (total + reply.rows.length), after, t'⟩, mid,
    forall_page_budget fun budget _ => way.here.runs_turn answered ?_, ?_⟩
  · rw [way.here.receive_page, drainFrom_accepted accepted, if_neg (by simp [closed])]
    exact runs_done _ _ _
  · refine { way.asked (.ok reply) with
      state := by rw [way.present_next, accepted],
      rejected := by simp [way.present_next, accepted],
      finished := fun _ => ⟨past, _, rfl, last, ?_⟩, notOpen := closed, released := rfl }
    rw [pages_concat_ok, rowCountOf_concat, way.total]

/-- A page that was accepted and has more to come leads on. -/
theorem Underway.further {reply : Reply}
    (accepted : visit ⟨c₀.select, reply.rows⟩ t = (.ok (), t')) (more : 0 < reply.continueIndex) :
    Underway c₀ visit t₀ (past ++ [⟨nextRequest c₀ past, .ok reply⟩])
      ({ c with maxRows := c₀.pageSize }.receive (.ok reply)).2 (total + reply.rows.length) t' where
  here := by
    rw [lastIndex_concat]
    exact way.here.further more
  requests := (way.asked (.ok reply)).requests
  ongoing e mem := by
    rcases List.mem_append.mp mem with earlier | mem
    · exact way.ongoing e earlier
    · rw [List.mem_singleton.mp mem]
      exact ⟨reply, rfl, more⟩
  seen := by rw [way.present_next, accepted]
  total := by rw [pages_concat_ok, rowCountOf_concat, way.total]

/-- What a drain comes to after a page that was accepted, it comes to before it. -/
theorem Underway.finishes_of_further {reply : Reply}
    (answered : serve (nextRequest c₀ past) s = (.ok reply, mid))
    (accepted : visit ⟨c₀.select, reply.rows⟩ t = (.ok (), t')) (more : 0 < reply.continueIndex)
    (rest : Finishes serve c₀ visit t₀ (past ++ [⟨nextRequest c₀ past, .ok reply⟩])
      ({ c with maxRows := c₀.pageSize }.receive (.ok reply)).2 (total + reply.rows.length) t'
      mid) :
    Finishes serve c₀ visit t₀ past c total t s := by
  obtain ⟨asked, released, d, s', runs, delivers⟩ := rest
  have opened := (way.here.further more).isOpen.mpr more
  refine ⟨⟨nextRequest c₀ past, .ok reply⟩ :: asked, released, d, s',
    forall_page_budget fun budget enough => way.here.runs_turn answered ?_, ?_⟩
  · rw [way.here.receive_page, drainFrom_accepted accepted, if_pos opened]
    exact runs budget enough
  · rwa [List.append_cons]

end

/-- A drain whose catalog runs dry ends. -/
theorem finishes_of_runsDry
    (dry : RunsDry serve c₀.select c₀.conditions c₀.pageSize k s)
    (way : Underway c₀ visit t₀ past c total t) (here : lastIndex past = k) :
    Finishes serve c₀ visit t₀ past c total t s := by
  -- on the answers still to come; each page that is accepted moves one of them into the past
  induction dry generalizing past c total t with
  | @last k s stop =>
    subst here
    rcases answered : serve (nextRequest c₀ past) s with ⟨(_ | ⟨status, message⟩) | reply, mid⟩
    · exact way.ends_nothing answered
    · exact way.ends_failed answered
    · rcases said : visit ⟨c₀.select, reply.rows⟩ t with ⟨e | ⟨⟩, t'⟩
      · exact way.ends_rejected answered said
      · exact way.ends_complete answered said (stop reply (by rw [answered]))
  | @more k s mid reply answered tail ih =>
    subst here
    rcases said : visit ⟨c₀.select, reply.rows⟩ t with ⟨e | ⟨⟩, t'⟩
    · exact way.ends_rejected answered said
    · by_cases more : 0 < reply.continueIndex
      · exact way.finishes_of_further answered said more
          (ih (way.further said more) (lastIndex_concat ..))
      · exact way.ends_complete answered said (Int.not_lt.mp more)

theorem drain_of_runsDry (idle : c.state = .idle) (columns : c.select ≠ [])
    (dry : RunsDry serve c.select c.conditions c.pageSize 0 s)
    (visit : Page → τ → Except Error Unit × τ) (t : τ) :
    ∃ asked released d s', (∀ budget, (pages c.select asked).length ≤ budget →
        Runs serve (c.drain visit budget t) s (asked ++ released) (some d) s') ∧
      Delivers c visit t asked released d := by
  simp only [drain_eq_turn visit idle columns]
  exact finishes_of_runsDry dry (underway_idle c idle visit t) rfl

/-- No request for a page looks like a release. -/
theorem Asked.ne_release (asked : Asked c visit t past) (size : 0 < c.pageSize)
    (e : Exchange Query.interface) (mem : e ∈ past) : e.call.maxRows ≠ releaseLimit := by
  obtain ⟨before, after, rfl⟩ := List.append_of_mem mem
  rw [asked.requests before e after rfl]
  exact ne_releaseLimit size

theorem drain_of_not_idle (started : c.state ≠ .idle) (visit : Page → τ → Except Error Unit × τ)
    (budget : Nat) (t : τ) : c.drain visit budget t =
      .done (some ⟨.error (.misuse s!"execute on a {c.state.title} cursor"), c, t⟩) := by
  rw [drain, firstPage, if_pos started]
  rfl

/-! Collecting is draining with a visitor that keeps all rows and rejects nothing. -/

theorem present_keepRows (ps : List Page) (rows : List Row) :
    present keepRows ps rows = (.ok (), rows ++ ps.flatMap (·.rows)) := by
  induction ps generalizing rows with
  | nil => simp [present]
  | cons p ps ih => simp [present, keepRows, ih]

theorem Delivers.kept {asked released : List (Exchange Query.interface)} {d : Drained (List Row)}
    (delivers : Delivers c keepRows [] asked released d) :
    d.state = (pages c.select asked).flatMap (·.rows) := by
  rw [delivers.state, present_keepRows, List.nil_append]

theorem runs_collect {all : List (Exchange Query.interface)} {d : Drained (List Row)}
    {budget : Nat} (drained : Runs serve (c.drain keepRows budget []) s all (some d) s') :
    Runs serve (c.collect budget) s all (some (d.result.map fun _ => d.state, d.cursor)) s' := by
  rw [collect, ← List.append_nil all]
  exact drained.bind (runs_done serve _ s')

/-- Draining an idle cursor delivers every page once and leaves nothing held, as soon as the
budget covers the pages; collecting gives the rows of these pages, or the same error. A cursor
that is not idle sends nothing and shows nothing. -/
theorem drain_delivers (serve : Server σ Query.interface) (c : Cursor)
    (visit : Page → τ → Except Error Unit × τ) (t : τ) (s : σ) :
    (c.state = .idle → c.select ≠ [] → RunsDry serve c.select c.conditions c.pageSize 0 s →
      (∃ asked released d s', (∀ budget, (pages c.select asked).length ≤ budget →
          Runs serve (c.drain visit budget t) s (asked ++ released) (some d) s') ∧
        Delivers c visit t asked released d ∧
        (0 < c.pageSize → ∀ e ∈ asked, e.call.maxRows ≠ releaseLimit)) ∧
      ∃ asked released d s', (∀ budget, (pages c.select asked).length ≤ budget →
          Runs serve (c.collect budget) s (asked ++ released)
            (some (d.result.map fun _ => (pages c.select asked).flatMap (·.rows), d.cursor)) s') ∧
        Delivers c keepRows [] asked released d) ∧
    (c.state ≠ .idle → ∀ budget,
      c.drain visit budget t =
        .done (some ⟨.error (.misuse s!"execute on a {c.state.title} cursor"), c, t⟩) ∧
      c.collect budget =
        .done (some (.error (.misuse s!"execute on a {c.state.title} cursor"), c))) := by
  refine ⟨fun idle columns dry => ⟨?_, ?_⟩, fun started budget => ⟨?_, ?_⟩⟩
  · obtain ⟨asked, released, d, s', runs, delivers⟩ := drain_of_runsDry idle columns dry visit t
    exact ⟨asked, released, d, s', runs, delivers, fun size => delivers.ne_release size⟩
  · obtain ⟨asked, released, d, s', runs, delivers⟩ := drain_of_runsDry idle columns dry keepRows []
    refine ⟨asked, released, d, s', fun budget enough => ?_, delivers⟩
    rw [← delivers.kept]
    exact runs_collect (runs budget enough)
  · exact drain_of_not_idle started visit budget t
  · rw [collect, drain_of_not_idle started]
    rfl

/-- Gives the answers in order, whatever is asked. -/
def Sample.scripted : Server (List (Except Catalog.Failure Reply)) Query.interface
  | _, [] => (.error .noRows, [])
  | _, answer :: rest => (answer, rest)

/-- Takes in pages until it has seen a row, and counts them. -/
def Sample.firstRow (page : Page) (seen : Nat) : Except Error Unit × Nat :=
  (if page.rows.isEmpty then .ok () else .error (.input "enough"), seen + 1)

/-- An empty page, then one with a row that the visitor rejects while there is more: the rest is
released, and it is the error of the visitor that comes back, not that of the release. -/
theorem rejected_page_is_released :
    let script : List (Except Catalog.Failure Reply) :=
      [.ok ⟨[], 5, 1⟩, .ok ⟨[["a"]], 7, 1⟩, .error (.failed (-806000) "boom")]
    let c := ofConditions ["DATA_NAME"] [] 10
    (∃ asked released d s', (∀ budget, (pages c.select asked).length ≤ budget →
        Runs Sample.scripted (c.drain Sample.firstRow budget 0) script (asked ++ released)
          (some d) s') ∧
      Delivers c Sample.firstRow 0 asked released d ∧
      (0 < c.pageSize → ∀ e ∈ asked, e.call.maxRows ≠ releaseLimit)) ∧
    (c.drain Sample.firstRow 2 0).exchanges Sample.scripted script =
      [⟨⟨["DATA_NAME"], [], 10, 0⟩, .ok ⟨[], 5, 1⟩⟩,
        ⟨⟨["DATA_NAME"], [], 10, 5⟩, .ok ⟨[["a"]], 7, 1⟩⟩,
        ⟨⟨["DATA_NAME"], [], -1, 7⟩, .error (.failed (-806000) "boom")⟩] ∧
    ((c.drain Sample.firstRow 2 0).run Sample.scripted script).1.map (·.result) =
      some (.error (.input "enough")) := by
  have dry : RunsDry Sample.scripted ["DATA_NAME"] [] 10 0
      [.ok ⟨[], 5, 1⟩, .ok ⟨[["a"]], 7, 1⟩, .error (.failed (-806000) "boom")] :=
    .more rfl (.more rfl (.last fun reply answered => nomatch answered))
  exact ⟨((drain_delivers Sample.scripted (ofConditions ["DATA_NAME"] [] 10) Sample.firstRow 0
    _).1 rfl (by simp [ofConditions]) dry).1, rfl, rfl⟩

end DataGrid.Cursor
