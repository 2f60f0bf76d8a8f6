import DataGrid.Host
import DataGrid.Error
import DataGrid.Text.Letters

/-! Storage resources and the ordered registry of those that are known. Registration only
appends, so the first resource that answers a look-up stays the first. Names are unique and
vault paths are neither empty nor pass through a parent directory. -/
namespace DataGrid

/-- A vault directory on a server host. -/
structure Resource where
  name : String
  vault : String
  host : Host
  zone : String
  deriving Repr, DecidableEq

namespace Resource

/-- The address at which commands for the resource are run. -/
def address (r : Resource) : String := r.host.name

def toJson (r : Resource) : Json :=
  .record [("name", .text r.name), ("vault_path", .text r.vault), ("host", r.host.toJson),
    ("zone", .text r.zone)]

open Json in
def ofJson? (j : Json) : Option Resource := do
  let fields ← j.fields? ["name", "vault_path", "host", "zone"]
  return {
    name := ← fields.required "name" text?
    vault := ← fields.required "vault_path" text?
    host := ← fields.required "host" Host.ofJson?
    zone := ← fields.required "zone" text? }

end Resource

/-- The step to a parent directory inside a path, refused in any physical path. -/
def climb : String := "/../"

def climbs (path : String) : Bool := Text.occurs climb.toList path.toList

structure Registry where
  resources : List Resource := []
  deriving Repr, DecidableEq

namespace Registry

def size (g : Registry) : Nat := g.resources.length

def find? (g : Registry) (name : String) : Option Resource :=
  g.resources.find? fun r => r.name == name

/-- Appends a resource whose vault path is acceptable and whose name is new. -/
def register (g : Registry) (r : Resource) : Except Error Registry :=
  if r.vault.isEmpty then .error (.input s!"resource '{r.name}' has an empty vault path")
  else if climbs r.vault then .error (.security r.vault "vault path contains /../")
  else if g.resources.any fun known => known.name == r.name then
    .error (.input s!"resource '{r.name}' already registered")
  else .ok ⟨g.resources ++ [r]⟩

/-- Registers all, in order, up to the first that is refused. -/
def ofList : List Resource → Except Error Registry :=
  List.foldlM register ⟨[]⟩

def toJson (g : Registry) : Json := .array (g.resources.map Resource.toJson)

/-- The entries as listed, before they are registered. -/
def entries? (j : Json) : Option (List Resource) := j.list? Resource.ofJson?

end Registry
end DataGrid
