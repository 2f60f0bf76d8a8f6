import DataGrid.Text.Blank
import DataGrid.Directory
import DataGrid.OpenFiles

/-! Settings of a grid worker: defaults, overlaid by a JSON file or by environment variables.
A variable that cannot be read ends the overlay and keeps what the earlier ones set. Settings
are valid if there is a usable handle, pages hold rows and the mismatch attribute has a name. -/
namespace DataGrid
open Text

structure Settings where
  capacity : UInt64
  pageRows : Int32
  /-- Mode of directories made on demand. -/
  directoryMode : UInt32
  /-- The attribute that marks copies whose checksum differs from the master. -/
  mismatchAttribute : String
  user : String
  localHost : String
  localZone : String
  /-- Prefixes of paths that may be read outside every vault. -/
  allowlist : Option String
  registryFile : Option String
  deriving Repr, DecidableEq

/-- Why settings, or a session made from them, cannot be had. -/
inductive SettingsError where
  | unreadableNumber (name value : String) (cause : NumeralError)
  | unreadableMode (name value : String) (cause : NumeralError)
  | fewHandles (capacity : UInt64)
  | noRows (limit : Int32)
  | blankAttribute
  | unreadableFile (what path : String) (cause : IoError)
  | malformedFile (what path : String)
  | refused (cause : Error)
  | noSession (cause : Error)
  deriving Repr, DecidableEq

/-- One link in the chain from a failure to its root. -/
inductive Cause where
  | said (text : String)
  | io (error : IoError)
  | malformedJson
  deriving Repr, DecidableEq

def Cause.message : Cause → String
  | .said text => text
  | .io e => e.message
  | .malformedJson => "malformed JSON"

/-- From the outermost failure to its root. -/
def SettingsError.causes : SettingsError → List Cause
  | .unreadableNumber name value cause => [.said s!"{name}='{value}'", .said cause.message]
  | .unreadableMode name value cause =>
    [.said s!"{name}='{value}' is not octal", .said cause.message]
  | .fewHandles capacity =>
    [.said (s!"handle_capacity must exceed {OpenFiles.reserved} reserved slots, " ++
      s!"got {capacity.toNat}")]
  | .noRows limit => [.said s!"max_rows_per_page must be positive, got {limit.toInt}"]
  | .blankAttribute => [.said "checksum_mismatch_attribute cannot be empty"]
  | .unreadableFile what path cause => [.said s!"reading {what} '{path}'", .io cause]
  | .malformedFile what path => [.said s!"parsing {what} '{path}'", .malformedJson]
  | .refused cause => [.said cause.message]
  | .noSession cause => [.said "initializing session", .said cause.message]

namespace Settings

/-- The settings that hold where nothing else is said, for the user who runs the worker. -/
def defaults (user : String) : Settings where
  capacity := 1026
  pageRows := 256
  directoryMode := 0o750
  mismatchAttribute := "CHECKSUM_MISMATCH"
  user := user
  localHost := "localhost"
  localZone := "tempZone"
  allowlist := none
  registryFile := none

def toJson (s : Settings) : Json :=
  .record [("handle_capacity", .ofUInt64 s.capacity),
    ("max_rows_per_page", .ofInt32 s.pageRows), ("dir_mode", .ofUInt32 s.directoryMode),
    ("checksum_mismatch_attribute", .text s.mismatchAttribute),
    ("client_user", .text s.user), ("local_host", .text s.localHost),
    ("local_zone", .text s.localZone),
    ("non_vault_allowlist", .optional .text s.allowlist),
    ("registry_file", .optional .text s.registryFile)]

def fieldNames : List String :=
  ["handle_capacity", "max_rows_per_page", "dir_mode", "checksum_mismatch_attribute",
    "client_user", "local_host", "local_zone", "non_vault_allowlist", "registry_file"]

open Json in
/-- A missing field keeps its default. -/
def ofJson? (user : String) (j : Json) : Option Settings := do
  let d := defaults user
  let fields ← j.fields? fieldNames
  return {
    capacity := ← fields.withDefault "handle_capacity" d.capacity uint64?
    pageRows := ← fields.withDefault "max_rows_per_page" d.pageRows int32?
    directoryMode := ← fields.withDefault "dir_mode" d.directoryMode uint32?
    mismatchAttribute := ←
      fields.withDefault "checksum_mismatch_attribute" d.mismatchAttribute text?
    user := ← fields.withDefault "client_user" d.user text?
    localHost := ← fields.withDefault "local_host" d.localHost text?
    localZone := ← fields.withDefault "local_zone" d.localZone text?
    allowlist := ← fields.withDefault "non_vault_allowlist" none (optional? text?)
    registryFile := ← fields.withDefault "registry_file" none (optional? text?) }

def validate (s : Settings) : Except SettingsError Unit :=
  if s.capacity.toNat ≤ OpenFiles.reserved then .error (.fewHandles s.capacity)
  else if s.pageRows ≤ 0 then .error (.noRows s.pageRows)
  else if allBlank s.mismatchAttribute then .error .blankAttribute
  else .ok ()

/-- The settings in the text of a file. -/
def ofText (user path text : String) : Except SettingsError Settings := do
  match (Json.read text).bind (ofJson? user) with
  | none => .error (.malformedFile "config file" path)
  | some s =>
    s.validate
    return s

/-- Reads and validates the settings in a file. -/
def ofFile (user path : String) (contents : String → Except IoError String) :
    Except SettingsError Settings := do
  match contents path with
  | .error e => .error (.unreadableFile "config file" path e)
  | .ok text => ofText user path text

/-- The text without any number of leading `0o`. -/
def dropOctalMarks : List Char → List Char
  | '0' :: 'o' :: cs => dropOctalMarks cs
  | cs => cs

/-- How one environment variable changes the settings. -/
structure Variable where
  name : String
  apply : Settings → String → Except SettingsError Settings

def overrides : List Variable :=
  [⟨"GRIDVAULT_HANDLE_CAPACITY", fun s v =>
      match readNumeral 10 uint64Range (trimChars v.toList) with
      | .ok n => .ok { s with capacity := UInt64.ofNat n.toNat }
      | .error e => .error (.unreadableNumber "GRIDVAULT_HANDLE_CAPACITY" v e)⟩,
    ⟨"GRIDVAULT_MAX_ROWS", fun s v =>
      match readNumeral 10 int32Range (trimChars v.toList) with
      | .ok n => .ok { s with pageRows := Int32.ofInt n }
      | .error e => .error (.unreadableNumber "GRIDVAULT_MAX_ROWS" v e)⟩,
    ⟨"GRIDVAULT_DIR_MODE", fun s v =>
      match readNumeral 8 uint32Range (dropOctalMarks (trimChars v.toList)) with
      | .ok n => .ok { s with directoryMode := UInt32.ofNat n.toNat }
      | .error e => .error (.unreadableMode "GRIDVAULT_DIR_MODE" v e)⟩,
    ⟨"GRIDVAULT_MISMATCH_ATTR", fun s v => .ok { s with mismatchAttribute := v }⟩,
    ⟨"GRIDVAULT_CLIENT_USER", fun s v => .ok { s with user := v }⟩,
    ⟨"GRIDVAULT_LOCAL_HOST", fun s v => .ok { s with localHost := v }⟩,
    ⟨"GRIDVAULT_ZONE", fun s v => .ok { s with localZone := v }⟩,
    ⟨"GRIDVAULT_NV_ALLOWLIST", fun s v => .ok { s with allowlist := some v }⟩,
    ⟨"GRIDVAULT_REGISTRY", fun s v => .ok { s with registryFile := some v }⟩]

/-- Applies the variables that are set, in order. The settings come back with the changes made
before the first that cannot be read. -/
def overlay (lookup : String → Option String) :
    List Variable → Settings → Except SettingsError Unit × Settings
  | [], s => (.ok (), s)
  | v :: vs, s =>
    match lookup v.name with
    | none => overlay lookup vs s
    | some value =>
      match v.apply s value with
      | .ok s => overlay lookup vs s
      | .error e => (.error e, s)

def applyEnvironment (s : Settings) (lookup : String → Option String) :
    Except SettingsError Unit × Settings :=
  overlay lookup overrides s

/-- The defaults, overlaid and validated. -/
def ofEnvironment (user : String) (lookup : String → Option String) :
    Except SettingsError Settings := do
  match (defaults user).applyEnvironment lookup with
  | (.error e, _) => .error e
  | (.ok (), s) =>
    s.validate
    return s

end Settings
end DataGrid
