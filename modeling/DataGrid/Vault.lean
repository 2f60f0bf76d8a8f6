import DataGrid.Registry
import DataGrid.Text.Letters

/-! Which vault a physical path lies in and whether it lies in the requesting user's own area
there. The first registered resource on the host whose vault path begins the path decides.
A user's own area is `<vault>/<zone>/home/<user>`: after the vault prefix and one separator,
two segments are passed over and the user's name must follow as a whole segment. A path that
climbs to a parent directory is in no vault. -/
namespace DataGrid
open Text

inductive Permission where
  | ownedVaultPath
  | granted
  | denied (reason : String)
  deriving Repr, DecidableEq

namespace Permission

def allows : Permission → Bool
  | .denied _ => false
  | _ => true

def toJson : Permission → Json
  | .ownedVaultPath => .record [("result", .text "owned_vault_path")]
  | .granted => .record [("result", .text "granted")]
  | .denied reason => .record [("result", .text "denied"), ("reason", .text reason)]

def ofFields? (name : String) (fields : Json.Fields) : Option Permission :=
  match name with
  | "owned_vault_path" => some .ownedVaultPath
  | "granted" => some .granted
  | "denied" =>
    if Json.eachOnce ["reason"] fields then
      (fields.required "reason" Json.text?).map .denied
    else none
  | _ => none

def ofJson? (j : Json) : Option Permission :=
  (j.tagged? 0 "result").bind fun (name, fields) => ofFields? name fields

end Permission

/-- The resource whose vault a path lies in, with the rest of the path after the vault path. -/
structure Placement where
  resource : Resource
  rest : List Char

/-- The number of bytes of the path that the vault path takes up. -/
def Placement.prefixLength (m : Placement) : Nat := m.resource.vault.utf8ByteSize

namespace Registry

def onHost (g : Registry) (host : Host) : List Resource :=
  g.resources.filter fun r => r.host.sameMachine host

/-- The first resource on the host whose vault path begins the path. -/
def placement? (g : Registry) (path : String) (host : Host) : Option Placement :=
  if climbs path then none
  else
    (g.onHost host).findSome? fun r =>
      (stripLead? r.vault.toList path.toList).map fun rest => ⟨r, rest⟩

end Registry

/-- What follows the next slash. -/
def afterSlash? (cs : List Char) : Option (List Char) :=
  match cs.dropWhile (fun c => c != '/') with
  | [] => none
  | _ :: rest => some rest

/-- Whether `cs` is the name, alone or followed by a slash. -/
def beginsWithName (name cs : List Char) : Bool :=
  match stripLead? name cs with
  | some [] => true
  | some (c :: _) => c == '/'
  | none => false

/-- Whether `rest`, what follows a vault path, leads into the user's own area: one character is
passed over, then two segments. -/
def leadsToUser (user : String) (rest : List Char) : Bool :=
  match rest with
  | [] => false
  | _ :: cs =>
    match (afterSlash? cs).bind afterSlash? with
    | some tail => beginsWithName user.toList tail
    | none => false

namespace Registry

def ownsPath (g : Registry) (path : String) (host : Host) (user : String) : Bool :=
  !user.isEmpty &&
    match g.placement? path host with
    | some m => leadsToUser user m.rest
    | none => false

/-- Decides on a path outside the user's own area. -/
abbrev Fallback := (path : String) → (host : Host) → (user : String) → Permission

def denyOutside : Fallback := fun _ host _ =>
  .denied s!"path outside any vault on {host.display}"

def grantOutside : Fallback := fun _ _ _ => .granted

/-- A climbing path is refused before all else, the user's own area is allowed, and the
fallback decides the rest. -/
def checkPath (g : Registry) (path : String) (host : Host) (user : String)
    (fallback : Fallback) : Except Error Permission :=
  if climbs path then .error (.security path s!"path contains {climb}")
  else if g.ownsPath path host user then .ok .ownedVaultPath
  else .ok (fallback path host user)

end Registry
end DataGrid
