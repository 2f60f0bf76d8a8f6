import Std.Data.TreeMap
import Std.Data.TreeSet
import DataGrid.Directory

/-! A file driver for rehearsals: a set of directories, a set of files and texts with which the
creation of certain directories fails. It records the calls it gets. -/
namespace DataGrid.Rehearsal

structure Directories where
  directories : Std.TreeSet String
  files : Std.TreeSet String
  failures : Std.TreeMap String String
  calls : List Directory.Call := []

namespace Directories

def record (d : Directories) (c : Directory.Call) : Directories :=
  { d with calls := d.calls ++ [c] }

def look (d : Directories) (path : String) : Except IoError FileStatus :=
  if d.directories.contains path then .ok ⟨true, 0⟩
  else if d.files.contains path then .ok ⟨false, 1⟩
  else .error (.described .notFound "not found")

def make (d : Directories) (path : String) : Except IoError Unit × Directories :=
  match d.failures[path]? with
  | some text => (.error (.described .permissionDenied text), d)
  | none => (.ok (), { d with directories := d.directories.insert path })

def serve : Server Directories Directory.interface
  | .stat path, d => (d.look path, d.record (.stat path))
  | .mkdir path mode, d => (d.record (.mkdir path mode)).make path

end Directories
end DataGrid.Rehearsal
