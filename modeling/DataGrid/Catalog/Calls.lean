import DataGrid.Catalog.Replica
import DataGrid.Directory

/-! What is asked of a catalog, apart from queries: nine calls, each of which may fail with a
status. The collections of a catalog also answer as directories, so that missing collections
are created by the same walk as missing directories. -/
namespace DataGrid.Catalog

inductive Call where
  | identify (path : String)
  | hasCollection (coll : String)
  | makeCollection (coll : String)
  | move (source dest : String)
  | remove (path : String) (force : Bool)
  | checksum (path : String)
  | primary (path : String)
  | attach (source dest : Replica)
  | annotate (path name value : String)
  deriving Repr, DecidableEq

/-- The kinds of calls. -/
inductive Operation where
  | identify
  | hasCollection
  | makeCollection
  | move
  | remove
  | checksum
  | primary
  | attach
  | annotate
  deriving Repr, DecidableEq

namespace Call

def operation : Call → Operation
  | .identify _ => .identify
  | .hasCollection _ => .hasCollection
  | .makeCollection _ => .makeCollection
  | .move _ _ => .move
  | .remove _ _ => .remove
  | .checksum _ => .checksum
  | .primary _ => .primary
  | .attach _ _ => .attach
  | .annotate _ _ _ => .annotate

/-- The path that a call is about. -/
def subject : Call → String
  | .identify path | .hasCollection path | .makeCollection path | .move path _ | .remove path _
  | .checksum path | .primary path | .annotate path _ _ => path
  | .attach _ dest => dest.path

end Call

/-- What a successful call answers with. -/
abbrev Call.Result : Call → Type
  | .identify _ => Option Int
  | .hasCollection _ => Bool
  | .makeCollection _ => Unit
  | .move _ _ => Unit
  | .remove _ _ => Unit
  | .checksum _ => Option String
  | .primary _ => Replica
  | .attach _ _ => Unit
  | .annotate _ _ _ => Unit

abbrev interface : Interface := ⟨Call, fun c => Except Failure c.Result⟩

def ask (c : Call) : Dialogue interface (Except Failure c.Result) :=
  .ask c .done

/-- The failure of a catalog as a failure of input and output. -/
def ioError (e : Failure) : IoError := .described .other e.describe

/-- A collection is a directory and a data object is a file; both have size zero. -/
def look (path : String) : Dialogue interface (Except IoError FileStatus) := do
  match ← ask (.hasCollection path) with
  | .error e => return .error (ioError e)
  | .ok true => return .ok ⟨true, 0⟩
  | .ok false =>
    match ← ask (.identify path) with
    | .error e => return .error (ioError e)
    | .ok (some _) => return .ok ⟨false, 0⟩
    | .ok none => return .error (.described .notFound s!"collection '{path}' not found")

def make (path : String) : Dialogue interface (Except IoError Unit) := do
  match ← ask (.makeCollection path) with
  | .error e => return .error (ioError e)
  | .ok () => return .ok ()

/-- The collections as directories; modes mean nothing here. -/
def asDirectory : (c : Directory.Call) → Dialogue interface (Directory.Answer c)
  | .stat path => look path
  | .mkdir path _ => make path

/-- A directory walk carried out on collections. -/
def onCollections (d : Dialogue Directory.interface α) : Dialogue interface α :=
  d.translate asDirectory

end DataGrid.Catalog
