import DataGrid.Dialogue
import DataGrid.Error
import DataGrid.Path

/-! Conditions on columns, and the calls of the paged query primitive. -/
namespace DataGrid

/-- A column and a predicate on its value. -/
structure Condition where
  column : String
  predicate : String
  deriving Repr, DecidableEq

namespace Condition

/-- The value must be `value` itself; it is quoted as it stands. -/
def equals (column value : String) : Condition := ⟨column, "= '" ++ value ++ "'"⟩

/-- The value must be a collection or lie below it. -/
def inTree (column coll : String) : Condition :=
  let root := Path.trim coll
  ⟨column, "= '" ++ root ++ "' || like '" ++ root ++ "/%'"⟩

def toJson (c : Condition) : Json :=
  .record [("column", .text c.column), ("predicate", .text c.predicate)]

open Json in
def ofJson? (j : Json) : Option Condition := do
  let fields ← j.fields? ["column", "predicate"]
  return {
    column := ← fields.required "column" text?
    predicate := ← fields.required "predicate" text? }

end Condition

namespace Query

abbrev Row := List String

/-- One request for a page. The continuation index is zero for the first page. -/
structure Request where
  select : List String
  conditions : List Condition
  maxRows : Int32
  continueIndex : Int
  deriving Repr, DecidableEq

/-- One page. A positive continuation index says that rows remain. -/
structure Reply where
  rows : List Row
  continueIndex : Int
  attributeCount : UInt64
  deriving Repr, DecidableEq

/-- The row limit that asks the catalog to forget the rows that remain. -/
def releaseLimit : Int32 := -1

abbrev interface : Interface := ⟨Request, fun _ => Except Catalog.Failure Reply⟩

def ask (r : Request) : Dialogue interface (Except Catalog.Failure Reply) :=
  .ask r .done

namespace Request

def toJson (r : Request) : Json :=
  .record [("select", .array (r.select.map .text)),
    ("conditions", .array (r.conditions.map Condition.toJson)), ("max_rows", .ofInt32 r.maxRows),
    ("continue_index", .integer r.continueIndex)]

open Json in
def ofJson? (j : Json) : Option Request := do
  let fields ← j.fields? ["select", "conditions", "max_rows", "continue_index"]
  return {
    select := ← fields.required "select" (list? text?)
    conditions := ← fields.required "conditions" (list? Condition.ofJson?)
    maxRows := ← fields.required "max_rows" int32?
    continueIndex := ← fields.required "continue_index" (integerIn? Text.int64Range) }

end Request

namespace Reply

def rowJson (row : Row) : Json := .array (row.map .text)

def toJson (r : Reply) : Json :=
  .record [("rows", .array (r.rows.map rowJson)), ("continue_index", .integer r.continueIndex),
    ("attribute_count", .ofUInt64 r.attributeCount)]

open Json in
def ofJson? (j : Json) : Option Reply := do
  let fields ← j.fields? ["rows", "continue_index", "attribute_count"]
  return {
    rows := ← fields.required "rows" (list? (list? text?))
    continueIndex := ← fields.required "continue_index" (integerIn? Text.int64Range)
    attributeCount := ← fields.required "attribute_count" uint64? }

end Reply
end Query
end DataGrid
