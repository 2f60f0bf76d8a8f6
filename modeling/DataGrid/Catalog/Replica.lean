import DataGrid.Registry

/-! Replicas of data objects: a logical path, the physical file that stores it and the resource
the file lies on. -/
namespace DataGrid

inductive Freshness where
  | good
  | stale
  deriving Repr, DecidableEq

def Freshness.name : Freshness → String
  | .good => "good"
  | .stale => "stale"

def Freshness.names : List (String × Freshness) := [("good", .good), ("stale", .stale)]

structure Replica where
  path : String
  file : String
  resource : Resource
  checksum : Option String := none
  number : Int32 := 0
  freshness : Freshness := .good
  dataType : String := ""
  size : UInt64 := 0
  modified : Int64 := 0
  deriving Repr, DecidableEq

namespace Replica

def toJson (r : Replica) : Json :=
  .record [("obj_path", .text r.path), ("file_path", .text r.file),
    ("resource", r.resource.toJson), ("checksum", .optional .text r.checksum),
    ("replica_number", .ofInt32 r.number), ("replica_status", .text r.freshness.name),
    ("data_type", .text r.dataType), ("size", .ofUInt64 r.size),
    ("modify_time", .ofInt64 r.modified)]

def fieldNames : List String :=
  ["obj_path", "file_path", "resource", "checksum", "replica_number", "replica_status",
    "data_type", "size", "modify_time"]

open Json in
/-- All after the resource may be missing. -/
def ofJson? (j : Json) : Option Replica := do
  let fields ← j.fields? fieldNames
  return {
    path := ← fields.required "obj_path" text?
    file := ← fields.required "file_path" text?
    resource := ← fields.required "resource" Resource.ofJson?
    checksum := ← fields.withDefault "checksum" none (optional? text?)
    number := ← fields.withDefault "replica_number" 0 int32?
    freshness := ← fields.withDefault "replica_status" .good (choice? Freshness.names)
    dataType := ← fields.withDefault "data_type" "" text?
    size := ← fields.withDefault "size" 0 uint64?
    modified := ← fields.withDefault "modify_time" 0 int64? }

end Replica
end DataGrid
