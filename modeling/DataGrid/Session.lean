import DataGrid.Allowlist
import DataGrid.Query.Cursor
import DataGrid.Settings

/-! The state of one worker session: its settings, its open files, the resources it knows and
the policy for paths outside their vaults. -/
namespace DataGrid

namespace Registry

/-- The resources listed in the text of a file, registered in order. -/
def ofText (path text : String) : Except SettingsError Registry :=
  match (Json.read text).bind entries? with
  | none => .error (.malformedFile "resource registry" path)
  | some resources => (ofList resources).mapError .refused

def ofFile (path : String) (contents : String → Except IoError String) :
    Except SettingsError Registry :=
  match contents path with
  | .error e => .error (.unreadableFile "resource registry" path e)
  | .ok text => ofText path text

end Registry

structure Session where
  settings : Settings
  handles : OpenFiles
  registry : Registry
  localHost : Host
  policy : Allowlist.Policy

namespace Session

def start (settings : Settings) (registry : Registry) : Except Error Session := do
  return {
    settings, registry
    handles := ← OpenFiles.ofCapacity settings.capacity
    localHost := ⟨settings.localHost, settings.localZone, .here⟩
    policy := ⟨settings.allowlist, []⟩ }

/-- A session for valid settings, with the registry that they name, if any. -/
def ofSettings (settings : Settings) (contents : String → Except IoError String) :
    Except SettingsError Session := do
  settings.validate
  let registry ← match settings.registryFile with
    | some path => Registry.ofFile path contents
    | none => .ok {}
  (start settings registry).mapError .noSession

def user (s : Session) : String := s.settings.user

/-- The decision on a path on a host, on behalf of the session's user. -/
def checkPath (s : Session) (isLink : String → Bool) (path : String) (host : Host) :
    Except Error Permission :=
  s.registry.checkPath path host s.user (s.policy.fallback isLink)

/-- A handle for a file that was opened. -/
def openFile (s : Session) (file : OpenFile) : Except Error Int32 × Session :=
  let (r, handles) := s.handles.claimFor file
  (r, { s with handles })

def closeFile (s : Session) (handle : Int32) : Except Error Unit × Session :=
  let (r, handles) := s.handles.release handle
  (r, { s with handles })

/-- A fresh cursor with the page size of the settings. -/
def cursor (s : Session) (select : List String) (conditions : List Condition) : Cursor :=
  .ofConditions select conditions s.settings.pageRows

end Session
end DataGrid
