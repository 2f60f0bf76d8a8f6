import DataGrid.Query.Cursor
import DataGrid.Proofs.Dialogue

/-! A query read to its end. A catalog that stops giving pages gives a listing: the rows of all
pages, or the error of the request that failed. A drain with a visitor that never fails sends
exactly the requests of the listing and hands the visitor all of its rows. -/
namespace DataGrid.Cursor
open Query
open Dialogue (Exchange Runs)

variable {σ τ : Type} {serve : Server σ Query.interface} {select : List String}
  {conditions : List Condition} {pageSize : Int32} {s s' : σ}
  {asked : List (Exchange Query.interface)} {listing : Except Error (List Row)} {k : Int}

/-- What comes of asking for pages from a continuation index on: the requests with their answers,
the rows or the error, and the state of the catalog afterwards. The pages end with an index that
is not positive, with the answer that nothing matches, or with a failure; after a failure what is
left of the query is released, unless it was the first page that failed. -/
inductive Listing (serve : Server σ Query.interface) (select : List String)
    (conditions : List Condition) (pageSize : Int32) :
    Int → σ → List (Exchange Query.interface) → Except Error (List Row) → σ → Prop
  | last {k : Int} {s s' : σ} {reply : Reply}
      (answered : serve ⟨select, conditions, pageSize, k⟩ s = (.ok reply, s'))
      (final : reply.continueIndex ≤ 0) :
      Listing serve select conditions pageSize k s
        [⟨⟨select, conditions, pageSize, k⟩, .ok reply⟩] (.ok reply.rows) s'
  | nothing {k : Int} {s s' : σ}
      (answered : serve ⟨select, conditions, pageSize, k⟩ s = (.error .noRows, s')) :
      Listing serve select conditions pageSize k s
        [⟨⟨select, conditions, pageSize, k⟩, .error .noRows⟩] (.ok []) s'
  | refused {s s' : σ} {status : Int32} {message : String}
      (answered : serve ⟨select, conditions, pageSize, 0⟩ s =
        (.error (.failed status message), s')) :
      Listing serve select conditions pageSize 0 s
        [⟨⟨select, conditions, pageSize, 0⟩, .error (.failed status message)⟩]
        (.error (.catalog .query (",".intercalate select) status message)) s'
  | broken {k : Int} {s mid s' : σ} {status : Int32} {message : String}
      {released : Except Catalog.Failure Reply} (later : 0 < k)
      (answered : serve ⟨select, conditions, pageSize, k⟩ s =
        (.error (.failed status message), mid))
      (let_go : serve ⟨select, conditions, releaseLimit, k⟩ mid = (released, s')) :
      Listing serve select conditions pageSize k s
        [⟨⟨select, conditions, pageSize, k⟩, .error (.failed status message)⟩,
          ⟨⟨select, conditions, releaseLimit, k⟩, released⟩]
        (.error (.catalog .query (",".intercalate select) status message)) s'
  | more {k : Int} {s mid s' : σ} {reply : Reply} {rest : List (Exchange Query.interface)}
      {listing : Except Error (List Row)}
      (answered : serve ⟨select, conditions, pageSize, k⟩ s = (.ok reply, mid))
      (further : 0 < reply.continueIndex)
      (tail : Listing serve select conditions pageSize reply.continueIndex mid rest listing s') :
      Listing serve select conditions pageSize k s
        (⟨⟨select, conditions, pageSize, k⟩, .ok reply⟩ :: rest)
        (listing.map (reply.rows ++ ·)) s'

/-- A cursor for that query at that index. -/
structure At (select : List String) (conditions : List Condition) (pageSize : Int32) (k : Int)
    (c : Cursor) : Prop where
  select : c.select = select
  conditions : c.conditions = conditions
  pageSize : c.pageSize = pageSize
  index : c.continueIndex = k
  isOpen : c.isOpen = true ↔ 0 < k

section
variable {c : Cursor} (here : At select conditions pageSize k c)
include here

theorem At.turn_eq : c.turn = .ask ⟨select, conditions, pageSize, k⟩ fun answer =>
    .done ({ c with maxRows := pageSize }.receive answer) := by
  obtain ⟨rfl, rfl, rfl, rfl, -⟩ := here
  rfl

theorem At.further {reply : Reply} (further : 0 < reply.continueIndex) :
    At select conditions pageSize reply.continueIndex
      ({ c with maxRows := pageSize }.receive (.ok reply)).2 where
  select := here.select
  conditions := here.conditions
  pageSize := here.pageSize
  index := Int.max_eq_left (Int.le_of_lt further)
  isOpen := by simp [receive, Cursor.isOpen, Int.max_eq_left (Int.le_of_lt further), further]

theorem At.runs_turn {α : Type} {answer : Except Catalog.Failure Reply} {mid : σ}
    {rest : List (Exchange Query.interface)} {a : α}
    {g : Except Error (Option Page) × Cursor → Dialogue Query.interface α}
    (answered : serve ⟨select, conditions, pageSize, k⟩ s = (answer, mid))
    (tail : Runs serve (g ({ c with maxRows := pageSize }.receive answer)) mid rest a s') :
    Runs serve (c.turn >>= g) s (⟨⟨select, conditions, pageSize, k⟩, answer⟩ :: rest) a s' := by
  rw [here.turn_eq]
  exact Runs.ask answered tail

theorem At.receive_page (reply : Reply) :
    { c with maxRows := pageSize }.receive (.ok reply) =
      (.ok (some ⟨select, reply.rows⟩),
        ({ c with maxRows := pageSize }.receive (.ok reply)).2) := by
  rw [← here.select]
  rfl

theorem At.receive_failed (status : Int32) (message : String) :
    { c with maxRows := pageSize }.receive (.error (.failed status message)) =
      (.error (.catalog .query (",".intercalate select) status message),
        { c with maxRows := pageSize }) := by
  rw [← here.select]
  rfl

theorem At.withLimit (limit : Int32) :
    At select conditions pageSize k { c with maxRows := limit } :=
  ⟨here.select, here.conditions, here.pageSize, here.index, here.isOpen⟩

theorem At.runs_letGo (later : 0 < k) {answer : Except Catalog.Failure Reply}
    (answered : serve ⟨select, conditions, releaseLimit, k⟩ s = (answer, s')) :
    Runs serve c.letGo s [⟨⟨select, conditions, releaseLimit, k⟩, answer⟩]
      ({ c with maxRows := releaseLimit }.released answer).2 s' := by
  have opened := here.isOpen.mpr later
  obtain ⟨rfl, rfl, rfl, rfl, -⟩ := here
  simp only [letGo, release, opened, if_true]
  exact Runs.ask answered (Dialogue.runs_done _ _ _)

end

theorem closed_of_last {reply : Reply} (last : reply.continueIndex ≤ 0) (c : Cursor) :
    (c.receive (.ok reply)).2.isOpen = false := by
  simp [receive, isOpen, Int.max_eq_right last]

section
variable (visit : Page → τ → Except Error Unit × τ)

@[simp] theorem drainFrom_nothing (budget total : Nat) (c : Cursor) (t : τ) :
    drainFrom visit budget total (.ok none, c) t = .done (some ⟨.ok total, c, t⟩) := by
  cases budget <;> rfl

@[simp] theorem drainFrom_error (budget total : Nat) (e : Error) (c : Cursor) (t : τ) :
    drainFrom visit budget total (.error e, c) t = do
      return some ⟨.error e, ← c.letGo, t⟩ := by
  cases budget <;> rfl

end

section
variable {visit : Page → τ → Except Error Unit × τ} {page : Page} {c c' : Cursor} {t t' : τ}

/-- A page that the visitor accepts is counted, and the next one is asked for if there is more. -/
theorem drainFrom_accepted (accepted : visit page t = (.ok (), t')) (budget total : Nat)
    (c : Cursor) : drainFrom visit (budget + 1) total (.ok (some page), c) t =
      if c.isOpen then
        c.turn >>= fun out => drainFrom visit budget (total + page.rows.length) out t'
      else .done (some ⟨.ok (total + page.rows.length), c, t'⟩) := by
  simp only [drainFrom, accepted, nextPage]
  split
  · simp
  · rfl

/-- A drain that fails ends with what letting its cursor go sends. -/
theorem runs_failure (gone : Runs serve c.letGo s asked c' s') (e : Error) (t : τ) :
    Runs serve (do return some (⟨.error e, ← c.letGo, t⟩ : Drained τ)) s asked
      (some ⟨.error e, c', t⟩) s' := by
  have ends := gone.bind (f := fun c => .done (some (⟨.error e, c, t⟩ : Drained τ)))
    (Dialogue.runs_done _ _ _)
  rwa [List.append_nil] at ends

theorem At.runs_failure (here : At select conditions pageSize k c) {status : Int32}
    {message : String} {mid : σ}
    (answered : serve ⟨select, conditions, pageSize, k⟩ s = (.error (.failed status message), mid))
    (gone : Runs serve ({ c with maxRows := pageSize } : Cursor).letGo mid asked c' s')
    (visit : Page → τ → Except Error Unit × τ) (budget total : Nat) (t : τ) :
    Runs serve (c.turn >>= fun out => drainFrom visit budget total out t) s
      (⟨⟨select, conditions, pageSize, k⟩, .error (.failed status message)⟩ :: asked)
      (some ⟨.error (.catalog .query (",".intercalate select) status message), c', t⟩) s' := by
  refine here.runs_turn answered ?_
  rw [here.receive_failed, drainFrom_error]
  exact Cursor.runs_failure gone _ t

end

/-- A visitor that takes in row after row. -/
def taking (f : τ → Row → τ) (page : Page) (t : τ) : Except Error Unit × τ :=
  (.ok (), page.rows.foldl f t)

theorem drainFrom_of_listing (f : τ → Row → τ)
    (h : Listing serve select conditions pageSize k s asked listing s') {c : Cursor}
    (here : At select conditions pageSize k c) {budget : Nat} (enough : asked.length ≤ budget)
    (total : Nat) (t : τ) :
    ∃ d, Runs serve (c.turn >>= fun out => drainFrom (taking f) budget total out t) s asked
        (some d) s' ∧
      d.result.map (fun _ => d.state) = listing.map fun rows => rows.foldl f t := by
  induction h generalizing c budget total t with
  | @last k s s' reply answered final =>
    cases budget with
    | zero => contradiction
    | succ budget =>
      have closed := closed_of_last final { c with maxRows := pageSize }
      have accepted : taking f ⟨select, reply.rows⟩ t = (.ok (), reply.rows.foldl f t) := rfl
      let after := ({ c with maxRows := pageSize }.receive (.ok reply)).2
      refine ⟨⟨.ok (total + reply.rows.length), after, reply.rows.foldl f t⟩,
        here.runs_turn answered ?_, rfl⟩
      rw [here.receive_page, drainFrom_accepted accepted, if_neg (by simp [closed])]
      exact Dialogue.runs_done _ _ _
  | nothing answered =>
    let after := ({ c with maxRows := pageSize }.receive (.error .noRows)).2
    refine ⟨⟨.ok total, after, t⟩, here.runs_turn answered ?_, rfl⟩
    simp only [receive, drainFrom_nothing]
    exact Dialogue.runs_done _ _ _
  | @refused s s' status message answered =>
    have idle := mt (here.withLimit pageSize).isOpen.mp (Int.lt_irrefl 0)
    have gone := Dialogue.runs_done serve { c with maxRows := pageSize } s'
    rw [← show letGo { c with maxRows := pageSize } = _ from if_neg idle] at gone
    exact ⟨_, here.runs_failure answered gone (taking f) budget total t, rfl⟩
  | @broken k s mid s' status message answer later answered released =>
    have gone := (here.withLimit pageSize).runs_letGo later released
    exact ⟨_, here.runs_failure answered gone (taking f) budget total t, rfl⟩
  | @more k s mid s' reply rest listing answered further tail ih =>
    cases budget with
    | zero => contradiction
    | succ budget =>
      have next := here.further further
      obtain ⟨d, runs, same⟩ := ih next (Nat.le_of_succ_le_succ enough)
        (total + reply.rows.length) (reply.rows.foldl f t)
      have accepted : taking f ⟨select, reply.rows⟩ t = (.ok (), reply.rows.foldl f t) := rfl
      refine ⟨d, here.runs_turn answered ?_, ?_⟩
      · have opened := next.isOpen.mpr further
        rw [here.receive_page, drainFrom_accepted accepted, if_pos opened]
        exact runs
      · rw [same]
        cases listing with
        | error e => rfl
        | ok rows => simp [Except.map]

/-- A drain asks for the first page and goes on with what comes of it. -/
theorem drain_eq_turn (visit : Page → τ → Except Error Unit × τ) {c : Cursor}
    (idle : c.state = .idle) (columns : c.select ≠ []) (budget : Nat) (t : τ) :
    c.drain visit budget t =
      { c with continueIndex := 0 }.turn >>= fun out => drainFrom visit budget 0 out t := by
  have first : c.firstPage = { c with continueIndex := 0 }.turn := by
    simp [firstPage, idle, columns]
  rw [drain, first]
  apply congrArg (Dialogue.ask _)
  funext answer
  rcases answer with (_ | ⟨status, message⟩) | reply
  · rfl
  · -- A first page that fails leaves the cursor idle, so there is nothing to let go.
    simp only [Dialogue.bind, receive, drainFrom_error, letGo, isOpen, idle]
    rfl
  · rfl

theorem at_idle (c : Cursor) (idle : c.state = .idle) :
    At c.select c.conditions c.pageSize 0 { c with continueIndex := 0 } :=
  ⟨rfl, rfl, rfl, rfl, by simp [isOpen, idle]⟩

/-- The drain of a new cursor whose catalog stops giving pages. -/
theorem drain_of_listing (f : τ → Row → τ) (columns : select ≠ [])
    (h : Listing serve select conditions pageSize 0 s asked listing s') {budget : Nat}
    (enough : asked.length ≤ budget) (t : τ) :
    ∃ d, Runs serve ((ofConditions select conditions pageSize).drain (taking f) budget t) s asked
        (some d) s' ∧
      d.result.map (fun _ => d.state) = listing.map fun rows => rows.foldl f t := by
  have start : At select conditions pageSize 0 (ofConditions select conditions pageSize) :=
    at_idle (ofConditions select conditions pageSize) rfl
  rw [drain_eq_turn (taking f) rfl columns]
  exact drainFrom_of_listing f h start enough 0 t

end DataGrid.Cursor
