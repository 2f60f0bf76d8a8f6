import DataGrid.Path
import DataGrid.Vault

/-! Allowlists for paths outside every vault. A list is a text of absolute prefixes cut at
semicolons and commas; a path is allowed if one of the prefixes covers it once both are
resolved lexically. A symbolic link is never allowed. -/
namespace DataGrid.Allowlist
open Text

/-- The pieces between separators. -/
def cut (isCut : Char → Bool) : List Char → List (List Char)
  | [] => [[]]
  | c :: cs =>
    if isCut c then [] :: cut isCut cs
    else
      match cut isCut cs with
      | [] => [[c]]
      | s :: ss => (c :: s) :: ss

/-- The trimmed entries of a list, blank ones left out. -/
def entries (list : String) : List String :=
  ((cut (fun c => c == ';' || c == ',') list.toList).map trimChars).filterMap fun e =>
    if e.isEmpty then none else some (String.ofList e)

/-- `isLink` tells whether a path, as written, is a symbolic link. -/
def permits (isLink : String → Bool) (path list : String) : Bool :=
  !isLink path && (entries list).any fun e => Path.covers e path

/-- An allowlist for each host that has one, and one for all other hosts. -/
structure Policy where
  default : Option String := none
  hosts : List (String × String) := []

namespace Policy

/-- The list given last counts. -/
def insert (p : Policy) (host list : String) : Policy :=
  { p with hosts := (host, list) :: p.hosts }

def listFor? (p : Policy) (host : Host) : Option String :=
  (p.hosts.lookup host.name).or p.default

/-- Denies a path on a host without a list. -/
def fallback (p : Policy) (isLink : String → Bool) : Registry.Fallback := fun path host _ =>
  match p.listFor? host with
  | none => .denied s!"no allowlist for {host.display}"
  | some list =>
    if permits isLink path list then .granted
    else .denied s!"'{path}' not in allowlist for {host.display}"

end Policy
end DataGrid.Allowlist
