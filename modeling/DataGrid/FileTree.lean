import Std.Data.TreeMap
import DataGrid.Directory

/-! A file system as a value: numbered nodes that are directories, files or symbolic links.
A file can stand under several names and counts them. Looking up a path keeps the trail of
directories from the root, so that `..` leads back the way that was really taken; a link
sends the look-up on, at most forty times. Everything belongs to one user, whose bits of a
directory's mode say what may be done in it. Failed operations change nothing. -/
namespace DataGrid
open Text

inductive FileNode where
  | directory (mode : UInt32) (entries : Std.TreeMap String Nat)
  | file (text : String) (names : Nat)
  | link (target : String)

structure FileTree where
  nodes : Std.TreeMap Nat FileNode
  next : Nat

namespace FileTree

def root : Nat := 0

/-- A root directory and nothing in it. -/
def empty : FileTree := ⟨(∅ : Std.TreeMap Nat FileNode).insert root (.directory 0o755 ∅), 1⟩

def node? (t : FileTree) (n : Nat) : Option FileNode := t.nodes[n]?

/-- The names in a path, in order. A trailing slash becomes an empty name at the end, which asks
for a directory and looks nothing up in it. -/
def namesOf (path : String) : List String :=
  let segs := (Path.segments path.toList).filter fun s => !s.isEmpty
  let last := if path.toList.getLast? = some '/' && !segs.isEmpty then [[]] else []
  (segs ++ last).map String.ofList

def isAbsolute (path : String) : Bool := path.toList.head? = some '/'

/-- Where a look-up ends: in a directory, given by its trail, or at a file or link. -/
inductive Spot where
  | directory (trail : List Nat)
  | leaf (node : Nat)

def Spot.node : Spot → Nat
  | .directory trail => trail.headD root
  | .leaf n => n

def maxLinks : Nat := 40

def maxNameBytes : Nat := 255

def maxPathBytes : Nat := 4096

/-- Names may be looked up. -/
def mayEnter (mode : UInt32) : Bool := mode &&& 0o100 != 0

/-- Names may be made. -/
def mayChange (mode : UInt32) : Bool := mode &&& 0o200 != 0

/-- All names may be listed. -/
def mayList (mode : UInt32) : Bool := mode &&& 0o400 != 0

/-- The entries of a directory in which names may be looked up. -/
def entriesOf (t : FileTree) (directory : Nat) :
    Except SystemError (Std.TreeMap String Nat) :=
  match t.node? directory with
  | some (.directory mode entries) =>
    if mayEnter mode then .ok entries else .error .accessDenied
  | _ => .error .notADirectory

def entryAt (t : FileTree) (directory : Nat) (name : String) : Except SystemError (Option Nat) := do
  let entries ← t.entriesOf directory
  if name.utf8ByteSize > maxNameBytes then .error .nameTooLong else .ok entries[name]?

/-- The trail one level up; the root is above itself. -/
def rise (trail : List Nat) : List Nat := if trail.length ≤ 1 then trail else trail.tail

/-- Walks down the names from the directory at the head of the trail. `follow` says whether a
link at the very end is followed; `links` is the number of links that may still be. -/
def walk (t : FileTree) (follow : Bool) (links : Nat) (trail : List Nat) (names : List String) :
    Except SystemError Spot :=
  match names with
  | [] => .ok (.directory trail)
  | name :: rest =>
    if name = "" then walk t follow links trail rest
    else if name = "." || name = ".." then
      match t.entriesOf (trail.headD root) with
      | .error e => .error e
      | .ok _ => walk t follow links (if name = "." then trail else rise trail) rest
    else
      match t.entryAt (trail.headD root) name with
      | .error e => .error e
      | .ok none => .error .noEntry
      | .ok (some n) =>
        match t.node? n with
        | some (.directory _ _) => walk t follow links (n :: trail) rest
        | some (.file _ _) => if rest.isEmpty then .ok (.leaf n) else .error .notADirectory
        | some (.link target) =>
          if rest.isEmpty && !follow then .ok (.leaf n)
          else
            match links with
            | 0 => .error .tooManyLinks
            | links + 1 =>
              if target.isEmpty then .error .noEntry
              else
                walk t follow links (if isAbsolute target then [root] else trail)
                  (namesOf target ++ rest)
        | none => .error .noEntry
  termination_by (links, names.length)

/-- Paths that hold the null character cannot be handed to the system. -/
def presentable (path : String) : Except IoError Unit :=
  if path.toList.contains '\x00' then
    .error (.described .invalidInput "file name contained an unexpected NUL byte")
  else .ok ()

def checked (path : String) : Except IoError Unit := do
  presentable path
  if path.isEmpty then .error (.system .noEntry)
  else if path.utf8ByteSize ≥ maxPathBytes then .error (.system .nameTooLong)
  else .ok ()

def asIoError (r : Except SystemError α) : Except IoError α := r.mapError .system

def lookUp (t : FileTree) (follow : Bool) (path : String) : Except IoError Spot := do
  checked path
  asIoError (t.walk follow maxLinks [root] (namesOf path))

/-- A name that is to be made: the directory that will hold it, the name if it is an ordinary
one, and whether a slash follows it. -/
structure Birth where
  directory : Nat
  name : Option String
  slash : Bool

/-- Finds the directory for a new name and refuses a name that is taken. -/
def birth (t : FileTree) (path : String) : Except IoError Birth := do
  checked path
  let segs := ((Path.segments path.toList).filter fun s => !s.isEmpty).map String.ofList
  let slash := path.toList.getLast? = some '/'
  match segs.getLast? with
  | none => .error (.system .exists)
  | some last =>
    let spot ← asIoError (t.walk true maxLinks [root] (segs.dropLast ++ ["."]))
    if last = "." || last = ".." then .error (.system .exists)
    else
      match ← asIoError (t.entryAt spot.node last) with
      | some _ => .error (.system .exists)
      | none => return ⟨spot.node, some last, slash⟩

def setNode (t : FileTree) (n : Nat) (node : FileNode) : FileTree :=
  { t with nodes := t.nodes.insert n node }

def addEntry (t : FileTree) (b : Birth) (n : Nat) : FileTree :=
  match b.name, t.node? b.directory with
  | some name, some (.directory mode entries) =>
    t.setNode b.directory (.directory mode (entries.insert name n))
  | _, _ => t

def addNode (t : FileTree) (b : Birth) (node : FileNode) : FileTree :=
  addEntry { t with nodes := t.nodes.insert t.next node, next := t.next + 1 } b t.next

/-- Names may be made in the directory that is to hold the new one. -/
def Birth.allowed (t : FileTree) (b : Birth) : Except IoError Unit :=
  match t.node? b.directory with
  | some (.directory mode _) =>
    if mayEnter mode && mayChange mode then .ok () else .error (.system .accessDenied)
  | _ => .error (.system .notADirectory)

/-- Permissions that are withheld from every new directory. -/
def umask : UInt32 := 0o022

/-- The permission bits, less the withheld ones. -/
def directoryMode (mode : UInt32) : UInt32 := mode &&& 0o777 &&& ~~~umask

def mkdir (t : FileTree) (path : String) (mode : UInt32) : Except IoError FileTree := do
  let b ← t.birth path
  b.allowed t
  return t.addNode b (.directory (directoryMode mode) ∅)

def stat (t : FileTree) (path : String) : Except IoError FileStatus := do
  match t.node? (← t.lookUp true path).node with
  | some (.file text _) => return ⟨false, text.utf8ByteSize⟩
  | some (.link target) => return ⟨false, target.utf8ByteSize⟩
  | _ => return ⟨true, 0⟩

def isDirectoryAt (t : FileTree) (path : String) : Bool :=
  match t.stat path with
  | .ok st => st.isDir
  | .error _ => false

/-- Whether the path itself is a symbolic link. -/
def isLink (t : FileTree) (path : String) : Bool :=
  match t.lookUp false path with
  | .ok spot =>
    match t.node? spot.node with
    | some (.link _) => true
    | _ => false
  | .error _ => false

/-- Gives a file a further name. A directory cannot have two. -/
def hardLink (t : FileTree) (source dest : String) : Except IoError FileTree := do
  presentable source
  presentable dest
  let n := (← t.lookUp false source).node
  let b ← t.birth dest
  if b.slash then .error (.system .noEntry)
  else
    b.allowed t
    match t.node? n with
    | some (.file text names) => return (t.setNode n (.file text (names + 1))).addEntry b n
    | some (.link _) => return t.addEntry b n
    | _ => .error (.system .notPermitted)

def symlink (t : FileTree) (path target : String) : Except IoError FileTree := do
  checked target
  let b ← t.birth path
  if b.slash then .error (.system .noEntry)
  else
    b.allowed t
    return t.addNode b (.link target)

/-- The path that a link at `path` leads to. -/
def beside (path target : String) : String :=
  if isAbsolute target then target
  else
    match Path.split? path with
    | some (parent, _) => parent ++ "/" ++ target
    | none => target

/-- Replaces the text of a file or makes a new one, where a link leads if the path is one. -/
def writeAt (t : FileTree) : (links : Nat) → (path text : String) → Except IoError FileTree
  | 0, _, _ => .error (.system .tooManyLinks)
  | links + 1, path, text =>
    match t.birth path with
    | .ok b => do
      if b.slash then .error (.system .isADirectory)
      else
        b.allowed t
        return t.addNode b (.file text 1)
    | .error (.system .exists) => do
      if path.toList.getLast? = some '/' then .error (.system .isADirectory)
      else
        let n := (← t.lookUp false path).node
        match t.node? n with
        | some (.file _ names) => return t.setNode n (.file text names)
        | some (.link target) => t.writeAt links (beside path target) text
        | _ => .error (.system .isADirectory)
    | .error e => .error e

def write (t : FileTree) (path text : String) : Except IoError FileTree :=
  t.writeAt (maxLinks + 1) path text

def contents (t : FileTree) (path : String) : Except IoError String := do
  match t.node? (← t.lookUp true path).node with
  | some (.file text _) => return text
  | some (.directory mode _) =>
    .error (.system (if mayList mode then .isADirectory else .accessDenied))
  | _ => .error (.system .isADirectory)

/-- The path with its last component removed; inner dots and doubled slashes count for nothing.
The root and the empty path have none. -/
def enclosing? (path : String) : Option String :=
  let segs := Path.segments path.toList
  let names := (segs.filter fun s => !s.isEmpty && s != ['.'])
  if isAbsolute path then
    if names.isEmpty then none else some (String.ofList ('/' :: Path.join names.dropLast))
  else
    let names := if segs.head? = some ['.'] then ['.'] :: names else names
    if names.isEmpty then none else some (String.ofList (Path.join names.dropLast))

/-- The path and everything that encloses it, outwards. -/
def ancestors : (fuel : Nat) → String → List String
  | 0, path => [path]
  | fuel + 1, path =>
    match enclosing? path with
    | some outer => path :: ancestors fuel outer
    | none => [path]

/-- Makes the first of the places, after the ones that enclose it if they are missing. -/
def makeAll (t : FileTree) : List String → Except IoError Unit × FileTree
  | [] => (.error (.described .other "failed to create whole tree"), t)
  | path :: outer =>
    if path.isEmpty then (.ok (), t)
    else
      match t.mkdir path 0o777 with
      | .ok t => (.ok (), t)
      | .error e =>
        if e.kind = .notFound then
          match t.makeAll outer with
          | (.error e, t) => (.error e, t)
          | (.ok (), t) =>
            match t.mkdir path 0o777 with
            | .ok t => (.ok (), t)
            | .error e => if t.isDirectoryAt path then (.ok (), t) else (.error e, t)
        else if t.isDirectoryAt path then (.ok (), t)
        else (.error e, t)

/-- Makes a directory and those that enclose it, as far as they are missing. -/
def makeDirectories (t : FileTree) (path : String) : Except IoError Unit × FileTree :=
  t.makeAll (ancestors path.length path)

/-- Takes a name out of a directory. A file goes with its last name, and a directory, which has
to be empty, with its only one. -/
def unlink (t : FileTree) (directory : Nat) (name : String) : Except SystemError FileTree :=
  match t.node? directory with
  | some (.directory mode entries) =>
    if mayEnter mode && mayChange mode then
      let t := t.setNode directory (.directory mode (entries.erase name))
      match entries[name]? with
      | none => .error .noEntry
      | some n =>
        match t.node? n with
        | some (.file text (names + 2)) => .ok (t.setNode n (.file text (names + 1)))
        | some (.link _) => .ok t
        | _ => .ok { t with nodes := t.nodes.erase n }
    else .error .accessDenied
  | _ => .error .notADirectory

/-- Removes what a directory holds, older things first and each directory after what is in it.
It stops at the first thing that cannot be removed: a directory that may not be listed, even
an empty one, or one in which names may not be changed. What is gone by then stays gone. -/
def emptyOut : (fuel : Nat) → (directory : Nat) → ExceptT SystemError (StateM FileTree) Unit
  | 0, _ => pure ()
  | fuel + 1, n => do
    match (← get).node? n with
    | some (.directory mode entries) =>
      if !mayList mode then throw .accessDenied
      else
        (entries.toList.mergeSort fun a b => a.2 ≤ b.2).forM fun (name, child) => do
          match (← get).node? child with
          | some (.directory _ _) =>
            if mayEnter mode then emptyOut fuel child else throw .accessDenied
          | _ => pure ()
          set (← (← get).unlink n name)
    | _ => throw .notADirectory

/-- Removes everything below a directory, as far as that goes. -/
def clear (t : FileTree) (path : String) : Except IoError Unit × FileTree :=
  match t.lookUp false path with
  | .error e => (.error e, t)
  | .ok spot =>
    let (r, t) := (emptyOut (t.next + 1) spot.node).run t
    (asIoError r, t)

/-- The tree as a file driver. -/
def serve : Server FileTree Directory.interface
  | .stat path, t => (t.stat path, t)
  | .mkdir path mode, t =>
    match t.mkdir path mode with
    | .ok t => (.ok (), t)
    | .error e => (.error e, t)

/-- One line of a listing. -/
inductive Listed where
  | directory (path : String) (mode : UInt32)
  | file (path : String) (text : String) (names : Nat)
  | link (path : String)

/-- Everything below a directory, each directory before what it holds, names in order. Links
are listed and not followed. -/
def listing (t : FileTree) :
    (fuel : Nat) → (directory : Nat) → (path : String) → Except SystemError (List Listed)
  | 0, _, _ => .ok []
  | fuel + 1, n, path =>
    match t.node? n with
    | some (.directory mode entries) => do
      if !mayList mode then .error .accessDenied
      else
        let below ← entries.toList.mapM fun (name, child) =>
          let here := path ++ "/" ++ name
          match t.node? child with
          | some (.directory mode _) => do
            return .directory here mode :: (← t.listing fuel child here)
          | some (.file text names) => .ok [.file here text names]
          | some (.link _) => .ok [.link here]
          | none => .ok []
        return below.flatten
    | _ => .error .notADirectory

def list (t : FileTree) (path : String) : Except IoError (List Listed) := do
  asIoError (t.listing (t.next + 1) (← t.lookUp true path).node path)

end FileTree
end DataGrid
