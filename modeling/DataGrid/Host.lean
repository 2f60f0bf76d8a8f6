import DataGrid.Json.Decode

/-! Server hosts of the grid. Two records name the same machine if name and zone agree,
whether it is seen as the local one or not. -/
namespace DataGrid

inductive Locality where
  | here
  | remote
  deriving Repr, DecidableEq

def Locality.name : Locality → String
  | .here => "local"
  | .remote => "remote"

def Locality.names : List (String × Locality) := [("local", .here), ("remote", .remote)]

structure Host where
  name : String
  zone : String
  locality : Locality := .here
  deriving Repr, DecidableEq

namespace Host

def isRemote (h : Host) : Bool := h.locality == .remote

def sameMachine (a b : Host) : Bool := a.name == b.name && a.zone == b.zone

/-- The name and the zone, joined by a number sign. -/
def display (h : Host) : String := h.name ++ "#" ++ h.zone

def toJson (h : Host) : Json :=
  .record [("name", .text h.name), ("zone", .text h.zone), ("locality", .text h.locality.name)]

open Json in
def ofJson? (j : Json) : Option Host := do
  let fields ← j.fields? ["name", "zone", "locality"]
  return {
    name := ← fields.required "name" text?
    zone := ← fields.required "zone" text?
    locality := ← fields.withDefault "locality" .here (choice? Locality.names) }

end Host
end DataGrid
