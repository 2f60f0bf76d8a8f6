import DataGrid.Json.Decode

/-! The failures of grid operations. Every failure names its cause; the wording, the code and
the numeric status are functions of the cause. A failure of a collaborator carries the step
of the operation in which it happened and keeps the collaborator's status if it is negative. -/
namespace DataGrid

/-- The steps of a merge and of the queries that feed it. -/
inductive Step where
  | lookup
  | collCreate
  | rename
  | checksum
  | objectInfo
  | remoteMkdir
  | remoteLink
  | registerReplica
  | unlink
  | setAttribute
  | query
  deriving Repr, DecidableEq

def Step.name : Step → String
  | .lookup => "lookup"
  | .collCreate => "coll_create"
  | .rename => "rename"
  | .checksum => "checksum"
  | .objectInfo => "object_info"
  | .remoteMkdir => "remote_mkdir"
  | .remoteLink => "remote_link"
  | .registerReplica => "register_replica"
  | .unlink => "unlink"
  | .setAttribute => "set_attribute"
  | .query => "query"

def Step.all : List Step :=
  [.lookup, .collCreate, .rename, .checksum, .objectInfo, .remoteMkdir, .remoteLink,
    .registerReplica, .unlink, .setAttribute, .query]

/-- Every step with its name, for reading. -/
def Step.names : List (String × Step) := Step.all.map fun s => (s.name, s)

inductive Error where
  | outOfHandles (capacity : UInt64)
  | badHandle (handle : Int32) (reason : String)
  | security (path : String) (reason : String)
  | remote (step : Step) (host : String) (status : Int32) (message : String)
  | catalog (step : Step) (target : String) (status : Int32) (message : String)
  | notADirectory (path : String)
  | fileOperation (operation : String) (path : String) (message : String)
  | input (message : String)
  | misuse (message : String)
  deriving Repr, DecidableEq

namespace Error

def message : Error → String
  | .outOfHandles capacity => s!"out of file handles (capacity {capacity.toNat})"
  | .badHandle handle reason => s!"invalid handle {handle.toInt}: {reason}"
  | .security path reason => s!"security violation on '{path}': {reason}"
  | .remote step host status message =>
    s!"{step.name} failed on host '{host}' (status {status.toInt}): {message}"
  | .catalog step target status message =>
    s!"{step.name} failed for '{target}' (status {status.toInt}): {message}"
  | .notADirectory path => s!"'{path}' exists and is not a directory"
  | .fileOperation operation path message => s!"{operation} failed for '{path}': {message}"
  | .input message => s!"invalid input: {message}"
  | .misuse message => s!"query cursor misuse: {message}"

/-- The short name of the kind of failure. -/
def code : Error → String
  | .outOfHandles _ => "out_of_file_desc"
  | .badHandle _ _ => "bad_file_descriptor"
  | .security _ _ => "invalid_file_path"
  | .remote _ _ _ _ => "remote_operation_failed"
  | .catalog _ _ _ _ => "catalog_operation_failed"
  | .notADirectory _ => "not_a_directory"
  | .fileOperation _ _ _ => "file_driver_error"
  | .input _ => "null_input"
  | .misuse _ => "query_state"

/-- Always negative: a collaborator's status counts only if it is. -/
def status : Error → Int32
  | .outOfHandles _ => -1000
  | .badHandle _ _ => -1100
  | .security _ _ => -1200
  | .remote _ _ status _ | .catalog _ _ status _ => if status < 0 then status else -1300
  | .notADirectory _ => -1400
  | .fileOperation _ _ _ => -1500
  | .input _ => -316000
  | .misuse _ => -1600

/-- The step that failed, of an operation that has steps. -/
def step? : Error → Option Step
  | .remote step _ _ _ | .catalog step _ _ _ => some step
  | _ => none

def toJson : Error → Json
  | .outOfHandles capacity =>
    .record [("type", .text "resource_exhaustion"), ("capacity", .ofUInt64 capacity)]
  | .badHandle handle reason =>
    .record [("type", .text "invalid_handle"), ("handle", .ofInt32 handle),
      ("reason", .text reason)]
  | .security path reason =>
    .record [("type", .text "security_violation"), ("path", .text path), ("reason", .text reason)]
  | .remote step host status message =>
    .record [("type", .text "remote_operation"), ("step", .text step.name), ("host", .text host),
      ("status", .ofInt32 status), ("message", .text message)]
  | .catalog step target status message =>
    .record [("type", .text "catalog_operation"), ("step", .text step.name),
      ("target", .text target), ("status", .ofInt32 status), ("message", .text message)]
  | .notADirectory path => .record [("type", .text "not_a_directory"), ("path", .text path)]
  | .fileOperation operation path message =>
    .record [("type", .text "file_driver"), ("op", .text operation), ("path", .text path),
      ("message", .text message)]
  | .input message => .record [("type", .text "invalid_input"), ("message", .text message)]
  | .misuse message => .record [("type", .text "query_state"), ("message", .text message)]

open Json in
/-- The alternative named by the tag, from its fields. -/
def ofFields? (name : String) (fields : Json.Fields) : Option Error :=
  match name with
  | "resource_exhaustion" => do
    guard (eachOnce ["capacity"] fields)
    return .outOfHandles (← fields.required "capacity" uint64?)
  | "invalid_handle" => do
    guard (eachOnce ["handle", "reason"] fields)
    return .badHandle (← fields.required "handle" int32?) (← fields.required "reason" text?)
  | "security_violation" => do
    guard (eachOnce ["path", "reason"] fields)
    return .security (← fields.required "path" text?) (← fields.required "reason" text?)
  | "remote_operation" => do
    guard (eachOnce ["step", "host", "status", "message"] fields)
    return .remote (← fields.required "step" (taggedChoice? Step.names))
      (← fields.required "host" text?) (← fields.required "status" int32?)
      (← fields.required "message" text?)
  | "catalog_operation" => do
    guard (eachOnce ["step", "target", "status", "message"] fields)
    return .catalog (← fields.required "step" (taggedChoice? Step.names))
      (← fields.required "target" text?) (← fields.required "status" int32?)
      (← fields.required "message" text?)
  | "not_a_directory" => do
    guard (eachOnce ["path"] fields)
    return .notADirectory (← fields.required "path" text?)
  | "file_driver" => do
    guard (eachOnce ["op", "path", "message"] fields)
    return .fileOperation (← fields.required "op" text?) (← fields.required "path" text?)
      (← fields.required "message" text?)
  | "invalid_input" => do
    guard (eachOnce ["message"] fields)
    return .input (← fields.required "message" text?)
  | "query_state" => do
    guard (eachOnce ["message"] fields)
    return .misuse (← fields.required "message" text?)
  | _ => none

def ofJson? (j : Json) : Option Error :=
  (j.tagged? 0 "type").bind fun (name, fields) => ofFields? name fields

end Error

/-- The status that the catalog gives to a query that matches nothing. -/
def noRowsStatus : Int32 := -808000

inductive Catalog.Failure where
  | noRows
  | failed (status : Int32) (message : String)
  deriving Repr, DecidableEq

namespace Catalog.Failure

def status : Catalog.Failure → Int32
  | .noRows => noRowsStatus
  | .failed status _ => status

def message : Catalog.Failure → String
  | .noRows => "no rows found"
  | .failed _ message => message

/-- The message with its status in front, if it has one. -/
def describe : Catalog.Failure → String
  | .noRows => "no rows found"
  | .failed status message => s!"catalog status {status.toInt}: {message}"

/-- As the failure of a step. -/
def toError (e : Catalog.Failure) (step : Step) (target : String) : Error :=
  .catalog step target e.status e.message

end Catalog.Failure
end DataGrid
