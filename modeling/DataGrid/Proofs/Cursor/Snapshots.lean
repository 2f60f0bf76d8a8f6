import DataGrid.Proofs.Cursor.Readers

/-! The pages of a cursor are a snapshot. Whatever happens between its requests, they are pieces of
the rows that matched when the first page was asked for, in order and without a gap. What carries
this is where the rest of the rows is: as long as the cursor is open it waits at the index of the
cursor, where nobody else comes; once the cursor is closed there is none, unless it was released. -/
namespace DataGrid.Cursor
open Query
open Catalog (Memory)
open Catalog.Memory

/-- The act that brought the first page. -/
def Entry.Starts (e : Entry) : Prop := e.act.use = .first ∧ e.act.page?.isSome = true

def rowsOn (pages : List Page) : List Row := pages.flatMap Page.rows

namespace Reader

def pages (r : Reader) : List Page := r.log.filterMap fun e => e.act.page?

def received (r : Reader) : List Row := rowsOn r.pages

end Reader

/-- Every page has as many of the rows that were left as fit on it, and has some. -/
def Paged (limit : Nat) (rows : List Row) (pages : List Page) : Prop :=
  ∀ before p after, pages = before ++ p :: after →
    p.rows ≠ [] ∧ p.rows.length = min limit (rows.length - (rowsOn before).length)

theorem rowsOn_concat (pages : List Page) (p : Page) :
    rowsOn (pages ++ [p]) = rowsOn pages ++ p.rows := by
  simp [rowsOn]

theorem paged_nil (limit : Nat) (rows : List Row) : Paged limit rows [] := by
  intro before p after split
  simp at split

theorem Paged.concat {limit : Nat} {rows rest : List Row} {pages : List Page} {p : Page}
    (h : Paged limit rows pages) (whole : rows = rowsOn pages ++ rest) (some : rest ≠ [])
    (positive : 0 < limit) (taken : p.rows = rest.take limit) :
    Paged limit rows (pages ++ [p]) := by
  intro before q after split
  rcases List.eq_nil_or_concat after with rfl | ⟨after, last, rfl⟩
  · obtain ⟨rfl, same⟩ := List.append_inj' split rfl
    obtain rfl : p = q := by simpa using same
    rw [taken, whole]
    refine ⟨fun none => ?_, by simp⟩
    rcases List.take_eq_nil_iff.mp none with zero | empty
    · omega
    · exact some empty
  · rw [List.concat_eq_append, ← List.cons_append, ← List.append_assoc] at split
    exact h before q after (List.append_inj' split rfl).1

variable {m m' : Memory} {r r' : Reader}

/-- The rows that are still to come. -/
def Unread (m : Memory) (r : Reader) (rest : List Row) : Prop :=
  match r.cursor.stage with
  | .idle => False
  | .opened k => m.pending[k]? = some rest
  | .closed => (∀ e ∈ r.log, ¬ e.act.Releases) → rest = []

/-- What the reader has been told is the truth about the catalog at the time of its first page. -/
structure Told (m : Memory) (r : Reader) : Prop where
  idle : r.cursor.stage = .idle → r.pages = []
  began : ∀ e ∈ r.log, e.Starts → ∃ rest, Unread m r rest ∧
    e.catalog.matched r.cursor.select r.cursor.conditions = r.received ++ rest ∧
    Paged r.cursor.limit (r.received ++ rest) r.pages

theorem told_of_new (m : Memory) (c : Cursor) : Told m { cursor := c } :=
  ⟨fun _ => rfl, fun _ mem => absurd mem (by simp)⟩

/-- What others do, and what the reader plans, is nothing to it. -/
theorem Told.frame (h : Told m r) (cursor : r'.cursor = r.cursor) (log : r'.log = r.log)
    (kept : ∀ k, r.cursor.stage = .opened k → m'.pending[k]? = m.pending[k]?) : Told m' r' := by
  have same (rest : List Row) (unread : Unread m r rest) : Unread m' r' rest := by
    rw [Unread] at unread ⊢
    rw [cursor, log]
    cases stage : r.cursor.stage with
    | idle => simp only [stage] at unread
    | opened k => simpa only [stage, kept k stage] using unread
    | closed => simpa only [stage] using unread
  have pages : r'.pages = r.pages := by rw [Reader.pages, log, Reader.pages]
  refine ⟨?_, fun e mem starts => ?_⟩
  · rw [cursor, pages]
    exact h.idle
  · obtain ⟨rest, unread, told, paged⟩ := h.began e (log ▸ mem) starts
    refine ⟨rest, same rest unread, ?_⟩
    rw [cursor, Reader.received, pages]
    exact ⟨told, paged⟩

/-- One more act. -/
structure Acted (m : Memory) (r : Reader) (a : Act) (r' : Reader) : Prop where
  query : SameQuery r.cursor r'.cursor
  log : r'.log = r.log ++ [⟨m, a⟩]

section
variable {a : Act} (acted : Acted m r a r')
include acted

theorem Acted.limit : r'.cursor.limit = r.cursor.limit := by
  rw [Cursor.limit, acted.query.pageSize, Cursor.limit]

theorem Acted.pages : r'.pages = r.pages ++ a.page?.toList := by
  rw [Reader.pages, acted.log, List.filterMap_append, Reader.pages]
  cases h : a.page? <;> simp [h]

/-- An act without a page leaves all as it was, or closes the cursor. -/
theorem Told.no_page (h : Told m r) (effect : Effect m r.cursor a r'.cursor.stage m')
    (quiet : a.page? = none) : Told m' r' := by
  have pages : r'.pages = r.pages := by rw [acted.pages, quiet]; simp
  have old (e : Entry) (mem : e ∈ r'.log) (starts : e.Starts) : e ∈ r.log := by
    rw [acted.log] at mem
    rcases List.mem_append.mp mem with mem | mem
    · exact mem
    · obtain rfl := List.mem_singleton.mp mem
      simp [Entry.Starts, quiet] at starts
  have last : ∀ e ∈ r.log, e ∈ r'.log := by
    intro e mem
    rw [acted.log]
    exact List.mem_append_left _ mem
  refine ⟨fun idle => ?_, fun e mem starts => ?_⟩
  · rcases effect.of_no_page quiet with ⟨stage, -⟩ | ⟨closed, -⟩
    · rw [pages]
      exact h.idle (stage ▸ idle)
    · rw [closed] at idle
      contradiction
  · obtain ⟨rest, unread, told, paged⟩ := h.began e (old e mem starts) starts
    refine ⟨rest, ?_, ?_⟩
    · rw [Unread] at unread ⊢
      rcases effect.of_no_page quiet with ⟨stage, rfl⟩ | ⟨closed, idle | releases⟩
      · rw [stage]
        cases before : r.cursor.stage with
        | idle => simp only [before] at unread
        | opened k => simpa only [before] using unread
        | closed =>
          rw [before] at unread
          exact fun none => unread fun e mem => none e (last e mem)
      · rw [idle] at unread
        contradiction
      · rw [closed]
        intro none
        exact absurd releases (none ⟨m, a⟩ (by rw [acted.log]; simp))
    · rw [acted.query.select, acted.query.conditions, acted.limit, Reader.received, pages]
      exact ⟨told, paged⟩

/-- A page brings the first of the rows that were still to come. -/
theorem Told.page (h : Told m r) (effect : Effect m r.cursor a r'.cursor.stage m')
    (stock : Stocked m) (size : 0 < r.cursor.limit) {p : Page} (page : a.page? = some p) :
    Told m' r' := by
  obtain ⟨rows, base, source, taken, after⟩ := effect.of_page page
  have pages : r'.pages = r.pages ++ [p] := by rw [acted.pages, page]; rfl
  have received : r'.received = r.received ++ rows.take r.cursor.limit := by
    rw [Reader.received, pages, rowsOn_concat, taken, Reader.received]
  have some : rows ≠ [] := source.ne_nil stock
  have unread : Unread m' r' (rows.drop r.cursor.limit) := by
    rw [Unread]
    rcases after with ⟨closed, none⟩ | ⟨k, opened, left⟩
    · rw [closed]
      exact fun _ => none
    · rw [opened]
      exact left
  -- Before and after the page the rows are the same, only further on.
  have going {e : Entry}
      (told : e.catalog.matched r.cursor.select r.cursor.conditions = r.received ++ rows)
      (paged : Paged r.cursor.limit (r.received ++ rows) r.pages) :
      ∃ rest, Unread m' r' rest ∧
        e.catalog.matched r'.cursor.select r'.cursor.conditions = r'.received ++ rest ∧
        Paged r'.cursor.limit (r'.received ++ rest) r'.pages := by
    refine ⟨_, unread, ?_⟩
    rw [acted.query.select, acted.query.conditions, acted.limit, received, pages,
      List.append_assoc, List.take_append_drop]
    exact ⟨told, paged.concat rfl some size taken⟩
  refine ⟨fun idle => ?_, fun e mem starts => ?_⟩
  · rcases after with ⟨closed, -⟩ | ⟨k, opened, -⟩ <;> simp_all
  · rw [acted.log] at mem
    rcases List.mem_append.mp mem with mem | mem
    · obtain ⟨rest, before, told, paged⟩ := h.began e mem starts
      rw [Unread] at before
      generalize a.use = u at source
      cases source with
      | matched idle =>
        rw [idle] at before
        contradiction
      | left opened left =>
        simp only [opened, left, Option.some.injEq] at before
        exact going (before ▸ told) (before ▸ paged)
    · obtain rfl := List.mem_singleton.mp mem
      have first : a.use = .first := starts.1
      rw [first] at source
      cases source with
      | matched idle =>
        have none : r.pages = [] := h.idle idle
        have nothing : r.received = [] := by rw [Reader.received, none]; rfl
        refine going (by rw [nothing]; rfl) ?_
        rw [none]
        exact paged_nil _ _

theorem Told.act (h : Told m r) (effect : Effect m r.cursor a r'.cursor.stage m')
    (stock : Stocked m) (size : 0 < r.cursor.limit) : Told m' r' := by
  cases page : a.page? with
  | none => exact h.no_page acted effect page
  | some p => exact h.page acted effect stock size page

end

namespace Shared
variable {ι : Type} [DecidableEq ι] {s s' start : Shared ι} {i : ι} {k : Int}

theorem acted_act (s : Shared ι) (i : ι) (u : Use)
    (next : Except Error u.Result × Cursor → Dialogue uses Unit) :
    Acted s.catalog (s.readers i) ((s.readers i).cursor.actOn u s.catalog)
      ((s.act i u next).readers i) :=
  ⟨sameQuery_act u next i, log_act s i u next⟩

theorem told_step (coherent : Coherent s) (told : ∀ i, Told s.catalog (s.readers i))
    (step : Step s s') (i : ι) : Told s'.catalog (s'.readers i) := by
  cases step with
  | aside aside =>
    refine (told i).frame rfl rfl fun k _ => ?_
    rw [aside.untouched.1]
  | begin plan free errand => exact (told i).frame (by simp) (by simp) fun k _ => rfl
  | @act j u next due =>
    have effect := coherent.effect j u next
    by_cases same : i = j
    · subst same
      exact (told i).act (acted_act s i u next) effect coherent.stocked
        (limit_pos (coherent.sized i))
    · have reader : (s.act j u next).readers i = s.readers i := readers_act_of_ne same
      refine (told i).frame (by rw [reader]) (by rw [reader]) fun k opened => ?_
      have other : s.stage j ≠ .opened k := fun mine => same (coherent.apart i j k opened mine)
      exact effect.frame other (coherent.stocked.issued k (coherent.held i k opened).2)

theorem Run.told (run : Run start s) (opening : Opening start) (i : ι) :
    Told s.catalog (s.readers i) := by
  induction run generalizing i with
  | refl =>
    obtain ⟨c, -, made⟩ := opening.readers i
    rw [made]
    exact told_of_new _ c
  | tail run step ih => exact told_step (Run.coherent run opening) ih step i

theorem Run.sameQuery (run : Run start s) (i : ι) :
    SameQuery (start.readers i).cursor (s.readers i).cursor := by
  induction run with
  | refl => exact .refl _
  | tail run step ih =>
    cases step with
    | aside aside => exact ih
    | begin plan free errand => simpa only [cursor_begin] using ih
    | act due => exact ih.trans (sameQuery_act _ _ i)

section
omit [DecidableEq ι]

/-- What comes of asking for the next page. -/
def fetch (s : Shared ι) (i : ι) : (Except Error (Option Page) × Cursor) × Memory :=
  (s.readers i).cursor.nextPage.run serveQuery s.catalog

theorem fetch_failing {status : Int32} (isOpen : (s.readers i).cursor.isOpen = true)
    (failing : s.catalog.failures .query = some status) :
    (s.fetch i).1.2.stage = s.stage i ∧ (s.fetch i).2 = s.catalog := by
  have ran := run_perform (u := .next) isOpen (by simp) s.catalog
  rw [serveQuery_failing failing] at ran
  change s.fetch i = _ at ran
  rw [ran]
  exact ⟨rfl, rfl⟩

theorem Coherent.fetch_allowed (coherent : Coherent s) (opened : s.stage i = .opened k)
    {rest : List Row} (left : s.catalog.pending[k]? = some rest)
    (allowed : s.catalog.failures .query = none) :
    (s.fetch i).1.1 = .ok (some ⟨(s.readers i).cursor.select,
      rest.take (s.readers i).cursor.limit⟩) := by
  have ran := run_perform (u := .next) (isOpen_iff.mpr ⟨k, opened⟩) (by simp) s.catalog
  have index : ((s.readers i).cursor.requestOf .next).continueIndex = k :=
    (stage_eq_opened_iff.mp opened).2
  rw [serveQuery_next (r := (s.readers i).cursor.requestOf .next) allowed (coherent.sized i) index
    (coherent.held i k opened).1 left] at ran
  change s.fetch i = _ at ran
  rw [ran, ← deliver_rows]
  rfl

end

/-- Of all these rows the reader has received the first, page by page, and it gets the others
unless it releases them. -/
structure Snapshot (s : Shared ι) (i : ι) (limit : Nat) (rows : List Row) : Prop where
  read : (s.readers i).received <+: rows
  paged : Paged limit rows (s.readers i).pages
  whole : s.stage i = .closed → (∀ e ∈ (s.readers i).log, ¬ e.act.Releases) →
    (s.readers i).received = rows
  /-- Only an injected failure stops an open cursor, and then nothing has happened. -/
  fails : (s.readers i).cursor.isOpen = true → ∀ e, (s.fetch i).1.1 = .error e →
    (∃ status, s.catalog.failures .query = some status) ∧
      (s.fetch i).1.2.stage = s.stage i ∧ (s.fetch i).2 = s.catalog
  resumes : (s.readers i).cursor.isOpen = true → s.catalog.failures .query = none →
    ∃ page, (s.fetch i).1.1 = .ok (some page) ∧ page.rows ≠ [] ∧
      (s.readers i).received ++ page.rows <+: rows

/-- A cursor that has had a page reads the rows that matched when it asked for it. -/
theorem snapshot_of_run (opening : Opening start) (run : Run start s) {e : Entry}
    (mem : e ∈ (s.readers i).log) (starts : e.Starts) :
    Snapshot s i (start.readers i).cursor.limit
      (e.catalog.matched (start.readers i).cursor.select (start.readers i).cursor.conditions) := by
  have coherent := Run.coherent run opening
  have query := Run.sameQuery run i
  obtain ⟨rest, unread, told, paged⟩ := (Run.told run opening i).began e mem starts
  have limit : (s.readers i).cursor.limit = (start.readers i).cursor.limit := by
    rw [Cursor.limit, query.pageSize, Cursor.limit]
  rw [query.select, query.conditions] at told
  rw [limit] at paged
  rw [told]
  have waiting (isOpen : (s.readers i).cursor.isOpen = true) :
      ∃ k, s.stage i = .opened k ∧ s.catalog.pending[k]? = some rest := by
    obtain ⟨k, opened⟩ := isOpen_iff.mp isOpen
    rw [Unread, opened] at unread
    exact ⟨k, opened, unread⟩
  refine
    { read := List.prefix_append _ _
      paged := paged
      whole := fun closed unreleased => ?_
      fails := fun isOpen error failed => ?_
      resumes := fun isOpen allowed => ?_ }
  · change (s.readers i).cursor.stage = .closed at closed
    rw [Unread, closed] at unread
    rw [unread unreleased, List.append_nil]
  · cases failing : s.catalog.failures .query with
    | some status => exact ⟨⟨status, rfl⟩, fetch_failing isOpen failing⟩
    | none =>
      obtain ⟨k, opened, left⟩ := waiting isOpen
      rw [coherent.fetch_allowed opened left failing] at failed
      contradiction
  · obtain ⟨k, opened, left⟩ := waiting isOpen
    refine ⟨_, coherent.fetch_allowed opened left allowed, fun none => ?_, ?_⟩
    · have size := limit_pos (coherent.sized i)
      rcases List.take_eq_nil_iff.mp none with zero | empty
      · omega
      · exact coherent.stocked.filled k rest left empty
    · exact (List.prefix_append_right_inj _).mpr (List.take_prefix _ _)

/-- A reader gets the name of an object that has been removed meanwhile, and gets it although its
first attempt failed. -/
theorem removed_object_is_read : ∃ s e, Run Sample.shared s ∧ e ∈ (s.readers 0).log ∧ e.Starts ∧
    "/z/b" ∉ s.catalog.objects ∧ s.stage 0 = .closed ∧
    (s.readers 0).received = [["a"], ["b"]] ∧
    Snapshot s 0 1 (e.catalog.matched ["DATA_NAME"] []) := by
  have run : Run Sample.shared Sample.shared := .refl
  have first := run.use 0 .first rfl
  have removed := Run.aside first (.call (.remove "/z/b" true))
  have failing := Run.aside removed (.failing .query (-5))
  have failed := Run.use failing 0 .next rfl
  have repaired := Run.aside failed .repaired
  have next := Run.use repaired 0 .next rfl
  refine ⟨_, _, next, List.mem_cons_self, ⟨rfl, rfl⟩, ?_, rfl, rfl,
    snapshot_of_run Sample.opening next List.mem_cons_self ⟨rfl, rfl⟩⟩
  exact Bool.false_ne_true

end Shared
end DataGrid.Cursor
