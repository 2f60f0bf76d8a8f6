import DataGrid.Session

/-! The command line: one line of JSON for each path given, with the decision on that path for
the session's user on the local host. What the program finds in its surroundings comes in as
functions, so that a run is a value. -/
namespace DataGrid.CommandLine

structure Surroundings where
  user : String
  lookup : String → Option String
  contents : String → Except IoError String
  isLink : String → Bool

structure Output where
  exitCode : Nat := 0
  stdout : String := ""
  stderr : String := ""
  deriving Repr, DecidableEq

def usage : String :=
  "usage: gridvault <path>...\n  reports the permission decision for each path on the local host\n"

/-- Several causes are numbered, a single one is not. -/
def numbered : Nat → List String → String
  | _, [] => ""
  | n, c :: cs => s!"    {n}: {c}\n" ++ numbered (n + 1) cs

/-- A failure and, apart from it, its causes. -/
def failureText : List String → String
  | [] => "Error: \n"
  | [outer] => s!"Error: {outer}\n"
  | [outer, cause] => s!"Error: {outer}\n\nCaused by:\n    {cause}\n"
  | outer :: causes => s!"Error: {outer}\n\nCaused by:\n" ++ numbered 0 causes

/-- The members of a decision, to be written in the order of their keys. -/
def decision (path : String) (host : Host) : Except Error Permission → Json
  | .ok p =>
    .record [("path", .text path), ("host", .text host.display), ("permission", p.toJson)]
  | .error e =>
    .record [("path", .text path), ("host", .text host.display), ("error", e.toJson),
      ("code", .text e.code)]

def line (s : Session) (isLink : String → Bool) (path : String) : String :=
  (decision path s.localHost (s.checkPath isLink path s.localHost)).sorted.render ++ "\n"

def report (s : Session) (isLink : String → Bool) (paths : List String) : Output :=
  if paths.isEmpty then { stderr := usage }
  else { stdout := String.join (paths.map (line s isLink)) }

/-- The file that a run reads its resources from, if it comes to that. -/
def registryFile? (user : String) (lookup : String → Option String) : Option String :=
  (Settings.ofEnvironment user lookup).toOption.bind Settings.registryFile

def session (around : Surroundings) : Except SettingsError Session := do
  let settings ← Settings.ofEnvironment around.user around.lookup
  Session.ofSettings settings around.contents

def run (around : Surroundings) (paths : List String) : Output :=
  match session around with
  | .error e => { exitCode := 1, stderr := failureText (e.causes.map Cause.message) }
  | .ok s => report s around.isLink paths

end DataGrid.CommandLine
