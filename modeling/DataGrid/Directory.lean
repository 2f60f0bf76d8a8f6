import DataGrid.Dialogue
import DataGrid.Error
import DataGrid.Path

/-! Creating the directories above a file on demand. The walk goes back from the destination by the
last slash of what is left, looking at each place until one exists, and then on by the next slash,
creating each place that is missing. Nothing at or above the start is looked at or created, and
a failed creation leaves the directories made so far. -/
namespace DataGrid

/-- The kinds of input and output failure that callers tell apart. -/
inductive IoKind where
  | notFound
  | alreadyExists
  | notADirectory
  | isADirectory
  | directoryNotEmpty
  | permissionDenied
  | filesystemLoop
  | invalidFilename
  | invalidInput
  | other
  deriving Repr, DecidableEq

def IoKind.name : IoKind → String
  | .notFound => "NotFound"
  | .alreadyExists => "AlreadyExists"
  | .notADirectory => "NotADirectory"
  | .isADirectory => "IsADirectory"
  | .directoryNotEmpty => "DirectoryNotEmpty"
  | .permissionDenied => "PermissionDenied"
  | .filesystemLoop => "FilesystemLoop"
  | .invalidFilename => "InvalidFilename"
  | .invalidInput => "InvalidInput"
  | .other => "Other"

/-- Failures that the operating system reports by number. -/
inductive SystemError where
  | notPermitted
  | noEntry
  | accessDenied
  | exists
  | notADirectory
  | isADirectory
  | nameTooLong
  | tooManyLinks
  deriving Repr, DecidableEq

namespace SystemError

def number : SystemError → Nat
  | .notPermitted => 1
  | .noEntry => 2
  | .accessDenied => 13
  | .exists => 17
  | .notADirectory => 20
  | .isADirectory => 21
  | .nameTooLong => 36
  | .tooManyLinks => 40

def kind : SystemError → IoKind
  | .notPermitted => .permissionDenied
  | .noEntry => .notFound
  | .accessDenied => .permissionDenied
  | .exists => .alreadyExists
  | .notADirectory => .notADirectory
  | .isADirectory => .isADirectory
  | .nameTooLong => .invalidFilename
  | .tooManyLinks => .filesystemLoop

def text : SystemError → String
  | .notPermitted => "Operation not permitted"
  | .noEntry => "No such file or directory"
  | .accessDenied => "Permission denied"
  | .exists => "File exists"
  | .notADirectory => "Not a directory"
  | .isADirectory => "Is a directory"
  | .nameTooLong => "File name too long"
  | .tooManyLinks => "Too many levels of symbolic links"

end SystemError

inductive IoError where
  | system (error : SystemError)
  | described (kind : IoKind) (message : String)
  deriving Repr, DecidableEq

namespace IoError

def kind : IoError → IoKind
  | .system e => e.kind
  | .described kind _ => kind

def message : IoError → String
  | .system e => s!"{e.text} (os error {e.number})"
  | .described _ message => message

/-- The number of a system failure, zero for any other. -/
def number : IoError → Nat
  | .system e => e.number
  | .described _ _ => 0

end IoError

structure FileStatus where
  isDir : Bool
  size : Nat
  deriving Repr, DecidableEq

namespace Directory

/-- What a directory walk asks of a file driver. -/
inductive Call where
  | stat (path : String)
  | mkdir (path : String) (mode : UInt32)
  deriving Repr, DecidableEq

abbrev Answer : Call → Type
  | .stat _ => Except IoError FileStatus
  | .mkdir _ _ => Except IoError Unit

abbrev interface : Interface := ⟨Call, Answer⟩

def stat (path : String) : Dialogue interface (Except IoError FileStatus) :=
  .ask (.stat path) .done

def mkdir (path : String) (mode : UInt32) : Dialogue interface (Except IoError Unit) :=
  .ask (.mkdir path mode) .done

/-- Where the last slash of a path is; the beginning, if it has none. -/
def lastSlash (p : List Char) : Nat := (p.reverse.dropWhile fun c => !Path.isSlash c).tail.length

/-- Where the first slash after a position is; the end, if there is none. -/
def nextSlash (p : List Char) (i : Nat) : Nat :=
  i + 1 + ((p.drop (i + 1)).takeWhile fun c => !Path.isSlash c).length

theorem lastSlash_le (p : List Char) : lastSlash p ≤ p.length - 1 := by
  have shorter := (List.dropWhile_sublist (fun c => !Path.isSlash c) (l := p.reverse)).length_le
  rw [List.length_reverse] at shorter
  rw [lastSlash, List.length_tail]
  omega

theorem lt_nextSlash (p : List Char) (i : Nat) : i < nextSlash p i := by
  rw [nextSlash]
  omega

/-- Looks at the beginnings of `dest` from the one of length `i` down, up to the first that exists
or to one no longer than `start`; every failure to look counts as missing. The length it comes
to. -/
def lookBack (dest : List Char) (start i : Nat) : Dialogue interface (Except Error Nat) :=
  if start < i then
    let place := String.ofList (dest.take i)
    .ask (.stat place) fun
      | .ok st => .done (if st.isDir then .ok i else .error (.notADirectory place))
      | .error _ => lookBack dest start (lastSlash (dest.take i))
  else .done (.ok i)
  termination_by i
  decreasing_by
    have back := lastSlash_le (dest.take i)
    have cut := List.length_take_le i dest
    omega

/-- Makes the beginnings of `dest` that are longer than `i`, up to the first that cannot be made;
`count` have been. -/
def makeOn (dest : List Char) (mode : UInt32) (i count : Nat) :
    Dialogue interface (Except Error Nat) :=
  if i < dest.length then
    let place := String.ofList (dest.take (nextSlash dest i))
    .ask (.mkdir place mode) fun
      | .ok () => makeOn dest mode (nextSlash dest i) (count + 1)
      | .error e => .done (.error (.fileOperation "mkdir" place e.message))
  else .done (.ok count)
  termination_by dest.length - i
  decreasing_by
    have further := lt_nextSlash dest i
    omega

/-- Whether a destination is the start or lies below it, both without trailing slashes. The root
is empty then, and below it are the paths that begin with a slash. -/
def isUnder (dest start : List Char) : Bool :=
  if start.isEmpty then dest.isEmpty || dest.head? == some '/'
  else
    match Text.stripLead? start dest with
    | some rest => rest.isEmpty || rest.head? == some '/'
    | none => false

/-- Creates `dest` and whatever is missing between it and `start`; the number created. -/
def ensure (start dest : String) (mode : UInt32) : Dialogue interface (Except Error Nat) :=
  let base := Path.trimChars start.toList
  let whole := Path.trimChars dest.toList
  if isUnder whole base then do
    match ← lookBack whole base.length whole.length with
    | .ok found => makeOn whole mode found 0
    | .error e => return .error e
  else .done (.error (.input s!"'{dest}' is not below start directory '{start}'"))

/-- The owner and the group can always pass through a directory made on the way to a file. -/
def traverseBits : UInt32 := 0o110

/-- The parent and the name of a path, which must have a slash. -/
def parentAndName (path : String) : Except Error (String × String) :=
  match Path.split? path with
  | some parts => .ok parts
  | none => .error (.input s!"path '{path}' has no parent directory")

/-- Creates the missing directories between `start` and the parent of `file`. -/
def ensureParent (start file : String) (mode : UInt32) : Dialogue interface (Except Error Nat) :=
  match parentAndName file with
  | .ok (parent, _) => ensure start parent (mode ||| traverseBits)
  | .error e => .done (.error e)

/-- The directories above the file are made with this mode. -/
example : (0o640 : UInt32) ||| traverseBits = 0o750 := by decide

end Directory
end DataGrid
