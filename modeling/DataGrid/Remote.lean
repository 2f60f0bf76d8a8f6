import DataGrid.FileTree

/-! Commands that are run on the host of a resource: making a directory and giving a file a
further name. On the wire a command is its name and a line of quoted arguments. An executor
serves certain hosts; a failure of the command carries a status below `commandFailed`, by the
number of the system error. -/
namespace DataGrid.Remote

inductive Command where
  | mkdir (path : String) (parents : Bool)
  | link (source dest : String)
  deriving Repr, DecidableEq

namespace Command

def name : Command → String
  | .mkdir _ _ => "mkdir"
  | .link _ _ => "link"

def quoted (argument : String) : String := "'" ++ argument ++ "'"

/-- The arguments as they are: `-p` where parents are made as well, then the paths. -/
def arguments : Command → List String
  | .mkdir path parents => if parents then ["-p", path] else [path]
  | .link source dest => [source, dest]

/-- The argument line. Paths stand in single quotes, as they are. -/
def line : Command → String
  | .mkdir path true => "-p " ++ quoted path
  | .mkdir path false => quoted path
  | .link source dest => quoted source ++ " " ++ quoted dest

def toJson : Command → Json
  | .mkdir path parents =>
    .record [("cmd", .text "mkdir"), ("path", .text path), ("parents", .bool parents)]
  | .link source dest =>
    .record [("cmd", .text "link"), ("src", .text source), ("dest", .text dest)]

open Json in
def ofFields? (name : String) (fields : Json.Fields) : Option Command :=
  match name with
  | "mkdir" => do
    guard (eachOnce ["path", "parents"] fields)
    return .mkdir (← fields.required "path" text?) (← fields.required "parents" bool?)
  | "link" => do
    guard (eachOnce ["src", "dest"] fields)
    return .link (← fields.required "src" text?) (← fields.required "dest" text?)
  | _ => none

/-- `level` counts the objects around the command. -/
def ofJson? (level : Nat) (j : Json) : Option Command :=
  (j.tagged? level "cmd").bind fun (name, fields) => ofFields? name fields

end Command

structure Request where
  address : String
  command : Command
  deriving Repr, DecidableEq

namespace Request

def toJson (r : Request) : Json :=
  .record [("address", .text r.address), ("command", r.command.toJson)]

open Json in
def ofJson? (j : Json) : Option Request := do
  let fields ← j.fields? ["address", "command"]
  return {
    address := ← fields.required "address" text?
    command := ← fields.required "command" (Command.ofJson? 1) }

end Request

structure Output where
  status : Int32 := 0
  stdout : String := ""
  stderr : String := ""
  deriving Repr, DecidableEq

namespace Output

def toJson (o : Output) : Json :=
  .record [("status", .ofInt32 o.status), ("stdout", .text o.stdout), ("stderr", .text o.stderr)]

open Json in
def ofJson? (j : Json) : Option Output := do
  let fields ← j.fields? ["status", "stdout", "stderr"]
  return {
    status := ← fields.required "status" int32?
    stdout := ← fields.required "stdout" text?
    stderr := ← fields.required "stderr" text? }

end Output

structure Failure where
  status : Int32
  message : String
  deriving Repr, DecidableEq

/-- The message with its status in front. -/
def Failure.describe (f : Failure) : String := s!"exec status {f.status.toInt}: {f.message}"

/-- As the failure of a step, on the host the request was sent to. -/
def Failure.toError (f : Failure) (step : Step) (r : Request) : Error :=
  .remote step r.address f.status f.message

abbrev interface : Interface := ⟨Request, fun _ => Except Failure Output⟩

def ask (r : Request) : Dialogue interface (Except Failure Output) :=
  .ask r .done

def commandFailed : Int32 := -149000
def hostUnreachable : Int32 := -305000

def Command.run (c : Command) (t : FileTree) : Except IoError Unit × FileTree :=
  match c with
  | .mkdir path true => t.makeDirectories path
  | .mkdir path false =>
    match t.mkdir path 0o777 with
    | .ok t => (.ok (), t)
    | .error e => (.error e, t)
  | .link source dest =>
    match t.hardLink source dest with
    | .ok t => (.ok (), t)
    | .error e => (.error e, t)

/-- The failure of a command on the host that runs it. -/
def failureOf (c : Command) (e : IoError) : Failure :=
  ⟨commandFailed - Int32.ofNat e.number, s!"{c.name} {c.line}: {e.message}"⟩

/-- An executor that carries commands out on a file tree, for the hosts it serves. -/
def serve (hosts : List String) : Server FileTree interface := fun r t =>
  if hosts.contains r.address then
    match r.command.run t with
    | (.ok (), t) => (.ok {}, t)
    | (.error e, t) => (.error (failureOf r.command e), t)
  else (.error ⟨hostUnreachable, s!"host '{r.address}' is not reachable"⟩, t)

end DataGrid.Remote
