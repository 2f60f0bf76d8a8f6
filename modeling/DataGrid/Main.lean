import DataGrid.CommandLine

/-! The program. It looks up the variables, the registry file and the links that a run of the
command line may ask for, hands them over as functions and prints what comes back. -/
namespace DataGrid

/-- The variables that are set, with their values. -/
def setVariables : IO (List (String × String)) :=
  Settings.overrides.filterMapM fun v => do
    return (← IO.getEnv v.name).map fun value => (v.name, value)

def readError : IO.Error → IoError
  | .noFileOrDirectory _ _ _ => .system .noEntry
  | .inappropriateType _ _ _ => .system .isADirectory
  | e => .described .other (toString e)

def readText (path : String) : IO (Except IoError String) := do
  match ← (IO.FS.readFile path).toBaseIO with
  | .ok text => return .ok text
  | .error e => return .error (readError e)

/-- Whether the path itself is a symbolic link; what cannot be looked at is none. -/
def pointsElsewhere (path : String) : IO Bool := do
  match ← ((← IO.currentDir) / path).symlinkMetadata.toBaseIO with
  | .ok found => return found.type == .symlink
  | .error _ => return false

def surroundings (paths : List String) : IO CommandLine.Surroundings := do
  let user := (← IO.getEnv "USER").getD ""
  let values ← setVariables
  let lookup := fun name => values.lookup name
  let registry ← match CommandLine.registryFile? user lookup with
    | some path => readText path
    | none => pure (.error (.system .noEntry))
  let links ← paths.filterM pointsElsewhere
  return { user, lookup, contents := fun _ => registry, isLink := links.contains }

end DataGrid

def main (args : List String) : IO UInt32 := do
  let out := DataGrid.CommandLine.run (← DataGrid.surroundings args) args
  IO.print out.stdout
  IO.eprint out.stderr
  return UInt32.ofNat out.exitCode
