import DataGrid.Query.Text

/-! One query answered page by page. A cursor is idle, open or closed, and keeps the continuation
index of its next request. It opens and closes only by the answers of the catalog or by an explicit
close, which sends one last request that releases what the catalog still holds. A call in the wrong
state sends nothing and changes nothing. -/
namespace DataGrid

/-- The rows of one reply under the columns that were asked for. -/
structure Page where
  columns : List String
  rows : List Query.Row
  deriving Repr, DecidableEq

namespace Page

/-- The first column of that name, case of ASCII letters aside. -/
def position? (p : Page) (column : String) : Option Nat :=
  p.columns.findIdx? fun c => Text.sameLetters c.toList column.toList

def value? (p : Page) (row : Nat) (column : String) : Option String :=
  (p.position? column).bind fun i => p.rows[row]?.bind fun r => r[i]?

/-- The values of one column; rows too short to have one are passed over. -/
def values (p : Page) (column : String) : List String :=
  match p.position? column with
  | some i => p.rows.filterMap fun r => r[i]?
  | none => []

end Page

namespace Cursor

inductive State where
  | idle
  | opened
  | closed
  deriving Repr, DecidableEq

namespace State

def name : State → String
  | .idle => "idle"
  | .opened => "open"
  | .closed => "closed"

/-- The state as it is written in messages. -/
def title : State → String
  | .idle => "Idle"
  | .opened => "Open"
  | .closed => "Closed"

def names : List (String × State) :=
  [("idle", .idle), ("open", .opened), ("closed", .closed)]

end State
end Cursor

structure Cursor where
  select : List String
  conditions : List Condition
  pageSize : Int32
  /-- The row limit of the last request. -/
  maxRows : Int32
  continueIndex : Int := 0
  attributeCount : UInt64 := 0
  /-- Rows in the last page. -/
  rowCount : Nat := 0
  state : Cursor.State := .idle
  deriving Repr, DecidableEq

namespace Cursor
open Query

def ofConditions (select : List String) (conditions : List Condition) (pageSize : Int32) : Cursor :=
  { select, conditions, pageSize, maxRows := pageSize }

/-- An idle cursor for a query given as text. -/
def ofText (query : String) (pageSize : Int32) : Except Error Cursor :=
  (Query.parse query).map fun (select, conditions) => ofConditions select conditions pageSize

def request (c : Cursor) : Request := ⟨c.select, c.conditions, c.maxRows, c.continueIndex⟩

def isOpen (c : Cursor) : Bool := c.state == .opened

/-- The continuation index as text. -/
def token (c : Cursor) : String := toString c.continueIndex

/-- The failure of a request, named after the columns. -/
def failure (c : Cursor) (e : Catalog.Failure) : Error :=
  e.toError .query (",".intercalate c.select)

/-- What a reply makes of the cursor. A failure leaves it where it is. -/
def receive (c : Cursor) : Except Catalog.Failure Reply → Except Error (Option Page) × Cursor
  | .ok r =>
    let continueIndex := max r.continueIndex 0
    (.ok (some ⟨c.select, r.rows⟩),
      { c with continueIndex, attributeCount := r.attributeCount, rowCount := r.rows.length,
               state := if 0 < continueIndex then .opened else .closed })
  | .error .noRows => (.ok none, { c with continueIndex := 0, rowCount := 0, state := .closed })
  | .error e => (.error (c.failure e), c)

/-- Sends a request for a page of the configured size. -/
def turn (c : Cursor) : Dialogue Query.interface (Except Error (Option Page) × Cursor) :=
  let c := { c with maxRows := c.pageSize }
  .ask c.request fun answer => .done (c.receive answer)

/-- The first page of an idle cursor; none if nothing matches. -/
def firstPage (c : Cursor) : Dialogue Query.interface (Except Error (Option Page) × Cursor) :=
  if c.state ≠ .idle then
    .done (.error (.misuse s!"execute on a {c.state.title} cursor"), c)
  else if c.select.isEmpty then .done (.error (.input "query has no select columns"), c)
  else { c with continueIndex := 0 }.turn

/-- The next page of an open cursor. -/
def nextPage (c : Cursor) : Dialogue Query.interface (Except Error (Option Page) × Cursor) :=
  if c.isOpen then c.turn
  else .done (.error (.misuse s!"fetch_next on a {c.state.title} cursor"), c)

/-- What the answer to a release request makes of the cursor: it is closed in any case. -/
def released (c : Cursor) : Except Catalog.Failure Reply → Except Error Unit × Cursor
  | .ok _ | .error .noRows =>
    (.ok (), { c with continueIndex := 0, rowCount := 0, state := .closed })
  | .error e =>
    (.error (c.failure e), { c with continueIndex := 0, rowCount := 0, state := .closed })

/-- Releases what the catalog holds for an open cursor. -/
def release (c : Cursor) : Dialogue Query.interface (Except Error Unit × Cursor) :=
  if c.isOpen then
    let c := { c with maxRows := releaseLimit }
    .ask c.request fun answer => .done (c.released answer)
  else .done (.error (.misuse s!"close on a {c.state.title} cursor"), c)

/-- Closes the cursor if it is open and passes over the outcome. -/
def letGo (c : Cursor) : Dialogue Query.interface Cursor :=
  if c.isOpen then do return (← c.release).2 else .done c

/-- The end of a drain: the rows seen or an error, the cursor, and the state of the visitor. -/
structure Drained (σ : Type) where
  result : Except Error Nat
  cursor : Cursor
  state : σ

/-- Hands pages to `visit` until the catalog has no more, the visitor fails or a request fails;
in the latter two cases an open cursor is released. `budget` bounds the number of pages, and
nothing comes back if the catalog still has more. -/
def drainFrom (visit : Page → σ → Except Error Unit × σ) : (budget : Nat) → (total : Nat) →
    Except Error (Option Page) × Cursor → σ → Dialogue Query.interface (Option (Drained σ))
  | _, total, (.ok none, c), s => .done (some ⟨.ok total, c, s⟩)
  | _, _, (.error e, c), s => do return some ⟨.error e, ← c.letGo, s⟩
  | 0, _, (.ok (some _), _), _ => .done none
  | budget + 1, total, (.ok (some page), c), s =>
    match visit page s with
    | (.error e, s) => do return some ⟨.error e, ← c.letGo, s⟩
    | (.ok (), s) =>
      let total := total + page.rows.length
      if c.isOpen then do drainFrom visit budget total (← c.nextPage) s
      else .done (some ⟨.ok total, c, s⟩)

/-- Drains an idle cursor. On any other nothing is sent and the visitor sees nothing. -/
def drain (visit : Page → σ → Except Error Unit × σ) (budget : Nat) (c : Cursor) (s : σ) :
    Dialogue Query.interface (Option (Drained σ)) := do
  match ← c.firstPage with
  | (.error e, c) => return some ⟨.error e, c, s⟩
  | first => drainFrom visit budget 0 first s

/-- A visitor that keeps all rows. -/
def keepRows (page : Page) (rows : List Row) : Except Error Unit × List Row :=
  (.ok (), rows ++ page.rows)

/-- All rows of the query, with the cursor as it is afterwards. -/
def collect (budget : Nat) (c : Cursor) :
    Dialogue Query.interface (Option (Except Error (List Row) × Cursor)) := do
  match ← c.drain keepRows budget [] with
  | none => return none
  | some d => return some (d.result.map fun _ => d.state, d.cursor)

end Cursor
end DataGrid
