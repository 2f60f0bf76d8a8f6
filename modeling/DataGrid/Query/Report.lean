import Std.Data.TreeMap
import DataGrid.Query.Cursor

/-! How many data objects of each type a collection tree holds. The condition of the query may
let rows in that lie elsewhere, since a pattern reads two characters of a name as wildcards, so
every row is checked against the tree once more. -/
namespace DataGrid.Query

abbrev Counts := Std.TreeMap String Nat

def reportColumns : List String := ["COLL_NAME", "DATA_TYPE_NAME", "DATA_ID"]

/-- Counts a row whose first value lies in the tree under its second. -/
def countRow (coll : String) (counts : Counts) : Row → Counts
  | c :: dataType :: _ =>
    if Path.within c coll then counts.insert dataType (counts.getD dataType 0 + 1) else counts
  | _ => counts

def countPage (coll : String) (page : Page) (counts : Counts) : Except Error Unit × Counts :=
  (.ok (), page.rows.foldl (countRow coll) counts)

def reportCursor (coll : String) (pageSize : Int32) : Cursor :=
  .ofConditions reportColumns [.inTree "COLL_NAME" coll] pageSize

/-- The number of objects in the tree of `coll` by type. -/
def contentsReport (budget : Nat) (coll : String) (pageSize : Int32) :
    Dialogue Query.interface (Option (Except Error Counts)) := do
  if Text.allBlank coll then return some (.error (.input "collection name is empty"))
  else
    match ← (reportCursor coll pageSize).drain (countPage coll) budget ∅ with
    | none => return none
    | some d => return some (d.result.map fun _ => d.state)

end DataGrid.Query
