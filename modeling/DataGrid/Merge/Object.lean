import DataGrid.Catalog.Calls
import DataGrid.Remote
import DataGrid.Settings

/-! Merging one copy of a data object into a master collection. The copy is renamed if the
master has no such object. If it has one with the same checksum, the file of the copy gets a
further name laid out like the master path, that file is registered as a replica of the master
object and the copy is unlinked. If the checksums differ the copy is marked, and if one is
missing nothing happens. A failure ends the merge at its step and keeps the steps before it. -/
namespace DataGrid.Merge
open Text

/-- What a merge asks: calls of the catalog and commands on hosts. -/
abbrev interface : Interface := Catalog.interface.sum Remote.interface

inductive Outcome where
  | moved (path : String)
  | linked (replicaPath physicalPath : String)
  | flagged (masterChecksum : String)
  | checksumUnavailable (currentMissing masterMissing : Bool)
  deriving Repr, DecidableEq

def Outcome.toJson : Outcome → Json
  | .moved path => .record [("outcome", .text "moved"), ("to", .text path)]
  | .linked replicaPath physicalPath =>
    .record [("outcome", .text "linked"), ("replica_path", .text replicaPath),
      ("physical_path", .text physicalPath)]
  | .flagged masterChecksum =>
    .record [("outcome", .text "flagged_mismatch"), ("master_checksum", .text masterChecksum)]
  | .checksumUnavailable currentMissing masterMissing =>
    .record [("outcome", .text "failed"), ("reason", .text "checksum_unavailable"),
      ("current_missing", .bool currentMissing), ("master_missing", .bool masterMissing)]

/-- How merges are carried out. -/
structure Rules where
  mismatchAttribute : String
  directoryMode : UInt32
  pageRows : Int32
  deriving Repr, DecidableEq

namespace Rules

def ofSettings (s : Settings) : Rules := ⟨s.mismatchAttribute, s.directoryMode, s.pageRows⟩

/-- The rules of the default settings. -/
def usual : Rules := ofSettings (.defaults "")

end Rules

/-- The part of a path below a collection; nothing if the path is not strictly inside. -/
def relative? (path coll : List Char) : Option (List Char) :=
  match stripLead? coll path with
  | some ('/' :: c :: rest) => some (c :: rest)
  | _ => none

/-- The path that an object of one collection has under another. -/
def destination (obj current master : String) : Except Error String :=
  if obj.isEmpty || current.isEmpty || master.isEmpty then
    .error (.input "object path and collection names must be non-empty")
  else
    match relative? obj.toList (Path.trimChars current.toList) with
    | none => .error (.input s!"'{obj}' is not inside collection '{current}'")
    | some rel =>
      let root := Path.trimChars master.toList
      if root.head? = some '/' then .ok (String.ofList (root ++ '/' :: rel))
      else .error (.input s!"master collection '{master}' is not absolute")

/-- The first segment of an absolute path, with its slash. -/
def firstSegment (path : String) : String :=
  match path.toList with
  | [] => ""
  | c :: cs => String.ofList (c :: cs.takeWhile fun d => d != '/')

def onCatalog (d : Dialogue Catalog.interface α) : Dialogue interface α :=
  d.left

def onHosts (d : Dialogue Remote.interface α) : Dialogue interface α :=
  d.right

/-- A computation that asks and may end with an error. -/
abbrev Attempt := ExceptT Error (Dialogue interface)

/-- A value that is known, or an error, without asking. -/
def known (r : Except Error α) : Attempt α := ExceptT.mk (.done r)

/-- A call of the catalog; its failure is the failure of the step. -/
def ask (step : Step) (target : String) (c : Catalog.Call) : Attempt c.Result :=
  ExceptT.mk do return (← onCatalog (Catalog.ask c)).mapError fun e => e.toError step target

/-- A command on a host; its failure is the failure of the step. -/
def command (step : Step) (r : Remote.Request) : Attempt Unit :=
  ExceptT.mk do
    return ((← onHosts (Remote.ask r)).mapError fun e => e.toError step r).map fun _ => ()

/-- Whether there is a master object. An answer without rows says that there is none. -/
def masterExists (master : String) : Attempt Bool :=
  ExceptT.mk do
    match ← onCatalog (Catalog.ask (.identify master)) with
    | .ok id => return .ok id.isSome
    | .error .noRows => return .ok false
    | .error e => return .error (e.toError .lookup master)

/-- Creates the collections above the master path. -/
def makeRoom (rules : Rules) (master : String) : Attempt Unit :=
  ExceptT.mk do
    let walk := Directory.ensureParent (firstSegment master) master rules.directoryMode
    match ← onCatalog (Catalog.onCollections walk) with
    | .ok _ => return .ok ()
    | .error e => return .error (.catalog .collCreate master e.status e.message)

/-- Renames the copy to the master path. -/
def move (rules : Rules) (obj master : String) : Attempt Outcome := do
  makeRoom rules master
  ask .rename obj (.move obj master)
  return .moved master

/-- The checksum of an object; an empty one counts as none. -/
def knownChecksum (path : String) : Attempt (Option String) := do
  return (← ask .checksum path (.checksum path)).filter fun c => !c.isEmpty

/-- The place of the copy's file under the master path: in the vault of its own resource, laid
out like the path below the zone. -/
def physicalPath (resource : Resource) (master : String) : Except Error String :=
  match stripLead? ('/' :: resource.zone.toList ++ ['/']) master.toList with
  | some suffix =>
    .ok (String.ofList (Path.trimChars resource.vault.toList ++ '/' :: suffix))
  | none =>
    .error (.input s!"'{master}' is outside zone '{resource.zone}' of resource '{resource.name}'")

/-- Makes the copy's file a replica of the master object and unlinks the copy. -/
def link (obj master : String) : Attempt Outcome := do
  let copy ← ask .objectInfo obj (.primary obj)
  let kept ← ask .objectInfo master (.primary master)
  let physical ← known (physicalPath copy.resource master)
  let (parent, _) ← known (Directory.parentAndName physical)
  let address := copy.resource.address
  command .remoteMkdir ⟨address, .mkdir parent true⟩
  command .remoteLink ⟨address, .link copy.file physical⟩
  let replica := { copy with file := physical, path := master }
  ask .registerReplica physical (.attach kept replica)
  ask .unlink obj (.remove obj true)
  return .linked master physical

/-- Decides by the two checksums. -/
def reconcile (rules : Rules) (obj master : String) : Attempt Outcome := do
  let current ← knownChecksum obj
  let kept ← knownChecksum master
  match current, kept with
  | some current, some kept =>
    if current = kept then link obj master
    else do
      ask .setAttribute obj (.annotate obj rules.mismatchAttribute kept)
      return .flagged kept
  | current, kept => return .checksumUnavailable current.isNone kept.isNone

/-- Merges the object at `obj`, which lies in `current`, into `master`. -/
def object (rules : Rules) (obj current master : String) : Attempt Outcome := do
  let path ← known (destination obj current master)
  if ← masterExists path then reconcile rules obj path else move rules obj path

end DataGrid.Merge
