import Std.Data.TreeMap
import Std.Data.TreeSet
import DataGrid.Catalog.Calls
import DataGrid.Query.Cursor
import DataGrid.Query.Predicate

/-! A catalog held in memory. Objects and collections are kept in the order of their paths.
A query that does not fit on a page leaves its remaining rows under a fresh continuation
index, which serves one further request. Every operation either fails and leaves the catalog
as it was or succeeds as a whole; each successful change raises the change count by one. -/
namespace DataGrid

/-- A data object: its number, its replicas and its attributes in the order of attachment. -/
structure DataObject where
  id : Int
  replicas : List Replica
  attributes : List (String × String)
  deriving Repr, DecidableEq

/-- The replica that speaks for the object: the first good one, or else the first. -/
def DataObject.primary? (o : DataObject) : Option Replica :=
  (o.replicas.find? fun r => r.freshness == .good).or o.replicas.head?

namespace Catalog

structure Memory where
  collections : Std.TreeSet String := ∅
  objects : Std.TreeMap String DataObject := ∅
  /-- The rows that remain of each query, by continuation index. -/
  pending : Std.TreeMap Int (List Query.Row) := ∅
  /-- The status with which a step is made to fail. -/
  failures : Step → Option Int32 := fun _ => none
  /-- The number of objects ever added. -/
  added : Nat := 0
  /-- The number of continuation indices ever given out. -/
  issued : Nat := 0
  /-- The number of successful changes. -/
  changes : Nat := 0
  /-- The time at which a change is made, by the number of changes before it. -/
  clock : Nat → Int64 := fun _ => 0
  /-- The patterns that can be matched here. -/
  takes : Predicate.Engine := .boundless

namespace Memory
open Predicate (invalidArgument)

def alreadyExists : Int32 := -809000
def unknownCollection : Int32 := -814000
def noSuchFile : Int32 := -817000

def unknownObject (path : String) : Failure :=
  .failed noSuchFile s!"unknown data object '{path}'"

def taken (path : String) : Failure := .failed alreadyExists s!"'{path}' already exists"

/-- Fails if the step is made to fail. -/
def allow (m : Memory) (step : Step) : Except Failure Unit :=
  match m.failures step with
  | some status => .error (.failed status s!"injected {step.name} failure")
  | none => .ok ()

def withFailure (m : Memory) (step : Step) (status : Int32) : Memory :=
  { m with failures := fun s => if s = step then some status else m.failures s }

def withoutFailures (m : Memory) : Memory := { m with failures := fun _ => none }

/-! Seeding. -/

/-- The collections that lead to `coll`, and itself, outermost first. Names are to begin with a
character of one byte, as an absolute path does: the search for the first slash starts behind that
byte, which is no place to cut a name that begins with a longer character. -/
def chain (coll : String) : List String :=
  (Path.rungs [] (Path.trimChars coll.toList)).map String.ofList

def withCollection (m : Memory) (coll : String) : Memory :=
  { m with collections := m.collections.insertMany (chain coll) }

/-- The number of the first object is one above this. -/
def idBase : Int := 10000

/-- Adds an object with one replica, or a further replica to the object of that path. -/
def withReplica (m : Memory) (r : Replica) : Int × Memory :=
  let m := m.withCollection (Path.parent r.path)
  match m.objects[r.path]? with
  | some o =>
    let grown := { o with replicas := o.replicas ++ [r] }
    (o.id, { m with objects := m.objects.insert r.path grown })
  | none =>
    let added := m.added + 1
    let id := idBase + added
    (id, { m with objects := m.objects.insert r.path ⟨id, [r], []⟩, added })

/-! Looking up. -/

def pendingQueries (m : Memory) : Nat := m.pending.size

def identify (m : Memory) (path : String) : Except Failure (Option Int) := do
  m.allow .lookup
  return m.objects[path]?.map DataObject.id

/-- Collections are named without trailing slashes. -/
def hasCollection (m : Memory) (coll : String) : Bool := m.collections.contains (Path.trim coll)

/-- The checksum of the primary replica; an empty one counts as none. -/
def checksum (m : Memory) (path : String) : Except Failure (Option String) := do
  m.allow .checksum
  match m.objects[path]? with
  | none => .error (unknownObject path)
  | some o => return o.primary?.bind fun r => r.checksum.filter fun c => !c.isEmpty

def primary (m : Memory) (path : String) : Except Failure Replica := do
  m.allow .objectInfo
  match m.objects[path]?.bind DataObject.primary? with
  | none => .error (unknownObject path)
  | some r => return r

/-! Changing. An operation works on the catalog in place: a failure ends it and keeps what was
changed before. -/

def change (m : Memory) : Memory := { m with changes := m.changes + 1 }

/-- One above the highest number in use, zero if there is none. The number after the last is the
first. -/
def nextNumber (replicas : List Replica) : Int32 :=
  (replicas.map Replica.number).max?.getD (-1) + 1

/-- A computation on a catalog. -/
abbrev Action := ExceptT Failure (StateM Memory)

namespace Action

/-- The result of an operation and the catalog it leaves. -/
def outcome (x : Action α) (m : Memory) : Except Failure α × Memory := (x.run.run m).run

/-- Reads the catalog. -/
def consult (f : Memory → Except Failure α) : Action α := ExceptT.mk fun m => (f m, m)

/-- The parent must exist already, except below the root. -/
def makeCollection (coll : String) : Action Unit := do
  consult (·.allow .collCreate)
  let m ← get
  let coll := Path.trim coll
  let parent := Path.parent coll
  if m.collections.contains coll || m.objects.contains coll then throw (taken coll)
  else if parent != "/" && !m.collections.contains parent then
    throw (.failed unknownCollection s!"parent collection '{parent}' does not exist")
  else
    modify fun m => { m with collections := m.collections.insert coll }
    modify change

def move (source dest : String) : Action Unit := do
  consult (·.allow .rename)
  let m ← get
  let parent := Path.parent dest
  match m.objects[source]? with
  | none => throw (unknownObject source)
  | some o =>
    if m.objects.contains dest || m.collections.contains dest then throw (taken dest)
    else if !m.collections.contains parent then
      throw (.failed unknownCollection s!"collection '{parent}' does not exist")
    else
      modify fun m => { m with objects := m.objects.erase source }
      let moved := { o with replicas := o.replicas.map fun r => { r with path := dest } }
      modify fun m => { m with objects := m.objects.insert dest moved }
      modify change

def remove (path : String) : Action Unit := do
  consult (·.allow .unlink)
  if (← get).objects.contains path then
    modify fun m => { m with objects := m.objects.erase path }
    modify change
  else throw (unknownObject path)

/-- Adds `dest` as a replica of the object that `source` describes. Two replicas never share
file and resource. -/
def attach (source dest : Replica) : Action Unit := do
  consult (·.allow .registerReplica)
  if source.path ≠ dest.path then
    throw (.failed invalidArgument s!"replica path '{dest.path}' differs from '{source.path}'")
  else
    let m ← get
    match m.objects[source.path]? with
    | none => throw (unknownObject source.path)
    | some o =>
      if o.replicas.any fun r =>
          r.file == dest.file && r.resource.name == dest.resource.name then
        throw (.failed alreadyExists s!"replica at '{dest.file}' already registered")
      else
        let number := nextNumber o.replicas
        let replica := { dest with number, modified := m.clock m.changes }
        let grown := { o with replicas := o.replicas ++ [replica] }
        modify fun m => { m with objects := m.objects.insert source.path grown }
        modify change

def annotate (path name value : String) : Action Unit := do
  consult (·.allow .setAttribute)
  match (← get).objects[path]? with
  | none => throw (unknownObject path)
  | some o =>
    let marked := { o with attributes := o.attributes ++ [(name, value)] }
    modify fun m => { m with objects := m.objects.insert path marked }
    modify change

def perform : (c : Call) → Action c.Result
  | .identify path => consult (·.identify path)
  | .hasCollection coll => consult fun m => .ok (m.hasCollection coll)
  | .makeCollection coll => makeCollection coll
  | .move source dest => move source dest
  | .remove path _ => remove path
  | .checksum path => consult (·.checksum path)
  | .primary path => consult (·.primary path)
  | .attach source dest => attach source dest
  | .annotate path name value => annotate path name value

end Action

def serve : Server Memory Catalog.interface := fun c m => (Action.perform c).outcome m

/-! Queries. -/

/-- The value of a column for an object, if there is such a column. -/
def cell? (path : String) (o : DataObject) (column : String) : Option String :=
  let ofPrimary (f : Replica → String) := (o.primary?.map f).getD ""
  match Text.upper column with
  | "COLL_NAME" => some (Path.parent path)
  | "DATA_NAME" => some (Path.leaf path)
  | "DATA_ID" => some (toString o.id)
  | "DATA_TYPE_NAME" => some (ofPrimary Replica.dataType)
  | "DATA_CHECKSUM" => some (ofPrimary fun r => r.checksum.getD "")
  | "DATA_REPL_NUM" => some (ofPrimary fun r => toString r.number.toInt)
  | "DATA_PATH" => some (ofPrimary Replica.file)
  | "DATA_RESC_NAME" => some (ofPrimary fun r => r.resource.name)
  | "DATA_SIZE" => some (ofPrimary fun r => toString r.size.toNat)
  | _ => none

def cell (path : String) (o : DataObject) (name : String) : Except Failure String :=
  match cell? path o name with
  | some v => .ok v
  | none => .error (.failed invalidArgument s!"unknown column '{name}'")

section
variable (takes : Predicate.Engine)

/-- Conditions are tried in order, up to the first that fails. -/
def meets (path : String) (o : DataObject) : List Condition → Except Failure Bool
  | [] => .ok true
  | c :: cs => do
    let value ← cell path o c.column
    if ← Predicate.holds takes c.predicate value then meets path o cs else return false

/-- The rows of the objects that meet the conditions, in the order of the objects. -/
def rowsOf (select : List String) (conditions : List Condition) :
    List (String × DataObject) → Except Failure (List Query.Row)
  | [] => .ok []
  | (path, o) :: rest => do
    if ← meets takes path o conditions then
      let row ← select.mapM (cell path o)
      return row :: (← rowsOf select conditions rest)
    else rowsOf select conditions rest

end

/-- The rows that a query starts from. -/
def matching (m : Memory) (r : Query.Request) : Except Failure (List Query.Row) := do
  match ← rowsOf m.takes r.select r.conditions m.objects.toList with
  | [] => .error .noRows
  | rows => return rows

namespace Action

/-- Takes out the rows that were kept under an index. -/
def resume (k : Int) : Action (List Query.Row) := do
  match (← get).pending[k]? with
  | none => throw (.failed invalidArgument s!"unknown continuation index {k}")
  | some rows =>
    modify fun m => { m with pending := m.pending.erase k }
    return rows

/-- Gives out the first rows and keeps the others under a fresh index. -/
def deliver (limit : Nat) (select : List String) (rows : List Query.Row) :
    Action Query.Reply := do
  let attributeCount := UInt64.ofNat select.length
  match rows.drop limit with
  | [] => return ⟨rows, 0, attributeCount⟩
  | rest =>
    modify fun m => { m with issued := m.issued + 1 }
    let issued := (← get).issued
    modify fun m => { m with pending := m.pending.insert issued rest }
    return ⟨rows.take limit, issued, attributeCount⟩

def query (r : Query.Request) : Action Query.Reply := do
  consult (·.allow .query)
  if r.maxRows = Query.releaseLimit then
    modify fun m => { m with pending := m.pending.erase r.continueIndex }
    return ⟨[], 0, UInt64.ofNat r.select.length⟩
  else if r.maxRows ≤ 0 then
    throw (.failed invalidArgument s!"invalid max_rows {r.maxRows.toInt}")
  else
    let rows ← if 0 < r.continueIndex then resume r.continueIndex else consult (·.matching r)
    deliver r.maxRows.toInt.toNat r.select rows

end Action

def serveQuery : Server Memory Query.interface := fun r m => (Action.query r).outcome m

/-- A drain of a fresh query on this catalog takes at most this many pages. -/
def pageBudget (m : Memory) : Nat := m.objects.size + 1

/-! Inspecting. -/

def replicasAt (m : Memory) (path : String) : List Replica :=
  (m.objects[path]?.map DataObject.replicas).getD []

def attributesAt (m : Memory) (path : String) : List (String × String) :=
  (m.objects[path]?.map DataObject.attributes).getD []

def paths (m : Memory) : List String := m.objects.keys

end Memory
end Catalog
end DataGrid
