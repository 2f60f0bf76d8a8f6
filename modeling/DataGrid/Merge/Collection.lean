import Std.Data.TreeSet
import DataGrid.Merge.Object
import DataGrid.Query.Cursor

/-! Merging every object below one collection into another. All paths are read before anything
is changed; then each path is merged once, in ascending order, whatever became of the others.
Objects that already lie under a master nested in the current collection are passed over. -/
namespace DataGrid.Merge
open Query (Row)

/-- An object whose merge failed. -/
structure Failure where
  path : String
  error : Error
  deriving Repr, DecidableEq

structure Report where
  moved : Nat := 0
  linked : Nat := 0
  flagged : Nat := 0
  checksumUnavailable : Nat := 0
  failures : List Failure := []
  deriving Repr, DecidableEq

namespace Report

def total (r : Report) : Nat :=
  r.moved + r.linked + r.flagged + r.checksumUnavailable + r.failures.length

def record (r : Report) (path : String) : Except Error Outcome → Report
  | .ok (.moved _) => { r with moved := r.moved + 1 }
  | .ok (.linked _ _) => { r with linked := r.linked + 1 }
  | .ok (.flagged _) => { r with flagged := r.flagged + 1 }
  | .ok (.checksumUnavailable _ _) => { r with checksumUnavailable := r.checksumUnavailable + 1 }
  | .error e => { r with failures := r.failures ++ [⟨path, e⟩] }

end Report

abbrev Paths := Std.TreeSet String

/-- The object that a row names, if it lies in the tree of `coll`. -/
def listRow (coll : String) (paths : Paths) : Row → Paths
  | c :: name :: _ =>
    if Path.within c coll then paths.insert (Path.trim c ++ "/" ++ name) else paths
  | _ => paths

def listPage (coll : String) (page : Page) (paths : Paths) : Except Error Unit × Paths :=
  (.ok (), page.rows.foldl (listRow coll) paths)

def listCursor (rules : Rules) (coll : String) : Cursor :=
  .ofConditions ["COLL_NAME", "DATA_NAME"] [.inTree "COLL_NAME" coll] rules.pageRows

/-- The paths of all objects in the tree of `coll`. -/
def list (rules : Rules) (budget : Nat) (coll : String) :
    Dialogue Query.interface (Option (Except Error Paths)) := do
  match ← (listCursor rules coll).drain (listPage coll) budget ∅ with
  | none => return none
  | some d => return some (d.result.map fun _ => d.state)

/-- The paths that are to be merged, in ascending order. -/
def candidates (current master : String) (paths : Paths) : List String :=
  let nested := Path.within master current
  paths.toList.filter fun p => !(nested && (master ++ "/").toList.isPrefixOf p.toList)

/-- Merges one path after the other. -/
def each (rules : Rules) (current master : String) : List String → Report →
    Dialogue interface Report
  | [], report => .done report
  | p :: ps, report => do
    each rules current master ps (report.record p (← (object rules p current master).run))

/-- What the merge of a collection asks: queries, and all that a merge asks. -/
abbrev batchInterface : Interface := Query.interface.sum interface

/-- The names of both collections without trailing slashes; they must not be blank or the same. -/
def names (current master : String) : Except Error (String × String) :=
  if Text.allBlank current || Text.allBlank master then
    .error (.input "collection names must be non-empty")
  else
    let current := Path.trim current
    let master := Path.trim master
    if current = master then
      .error (.input s!"current and master collection are both '{current}'")
    else .ok (current, master)

/-- Merges every object below `current` into `master`. `budget` bounds the pages of the
listing. -/
def collection (rules : Rules) (budget : Nat) (current master : String) :
    Dialogue batchInterface (Option (Except Error Report)) := do
  match names current master with
  | .error e => return some (.error e)
  | .ok (current, master) =>
    match ← (list rules budget current).left with
    | none => return none
    | some (.error e) => return some (.error e)
    | some (.ok paths) =>
      let merges := each rules current master (candidates current master paths) {}
      return some (.ok (← merges.right))

end DataGrid.Merge
