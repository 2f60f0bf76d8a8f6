import DataGrid.Catalog.Memory
import DataGrid.FileTree
import DataGrid.Merge.Collection
import DataGrid.Query.Report

/-! A stage on which grid operations are rehearsed: a catalog in memory whose calls can be made
to fail, a script that can stand in for the query primitive, and an executor that keeps a list
of its requests, refuses those that a rule names and otherwise carries them out on a file tree
or pretends to. -/
namespace DataGrid.Rehearsal

/-- The next calls of one kind on one path fail; without a count, all of them do. -/
structure Fault where
  operation : Catalog.Operation
  path : String
  error : Catalog.Failure
  times : Option Nat

/-- Whether the fault is set for these calls, used up or not. -/
def Fault.concerns (f : Fault) (operation : Catalog.Operation) (path : String) : Bool :=
  f.operation = operation ∧ f.path = path

/-- Requests of that name whose arguments hold a text are refused. -/
structure Refusal where
  command : String
  argument : String
  failure : Remote.Failure

def Refusal.applies (r : Refusal) (c : Remote.Command) : Bool :=
  c.name == r.command && Text.occurs r.argument.toList c.line.toList

structure Stage where
  catalog : Catalog.Memory
  files : FileTree
  faults : List Fault := []
  /-- Checksums that are answered in place of those on record. -/
  checksums : List (String × String) := []
  /-- The replies still to be given in place of the catalog's. -/
  script : Option (List (Except Catalog.Failure Query.Reply)) := none
  /-- The queries that reached the script. -/
  seen : List Query.Request := []
  refusals : List Refusal := []
  /-- The hosts whose commands are carried out; without them every command is pretended. -/
  hosts : Option (List String) := none
  /-- The requests that reached the executor. -/
  requests : List Remote.Request := []
  /-- Whether the number of a replica has wrapped around. -/
  wrapped : Bool := false

/-- The failure that a call meets, and the faults after it has struck. One that is used up
strikes no more. -/
def strike (operation : Catalog.Operation) (path : String) :
    List Fault → Option (Catalog.Failure × List Fault)
  | [] => none
  | f :: fs =>
    if f.concerns operation path ∧ f.times ≠ some 0 then
      some (f.error, { f with times := f.times.map (· - 1) } :: fs)
    else (strike operation path fs).map fun (e, fs) => (e, f :: fs)

namespace Stage

/-- Sets a fault in place of the one set before for the same calls, whatever was left of it. -/
def withFault (f : Fault) (s : Stage) : Stage :=
  { s with faults := f :: s.faults.filter fun g => !g.concerns f.operation f.path }

/-- Whether the call numbers a replica after the greatest number there is. -/
def wraps (m : Catalog.Memory) : Catalog.Call → Bool
  | .attach source _ => (m.replicasAt source.path).any fun r => r.number == .maxValue
  | _ => false

/-- The catalog alone. -/
def consult (c : Catalog.Call) (s : Stage) : Except Catalog.Failure c.Result × Stage :=
  let (r, catalog) := Catalog.Memory.serve c s.catalog
  (r, { s with catalog, wrapped := s.wrapped || (r.isOk && wraps s.catalog c) })

/-- The catalog with the faults that are set and the checksums that are given in advance. -/
def serveCatalog : Server Stage Catalog.interface := fun c s =>
  match strike c.operation c.subject s.faults with
  | some (e, faults) => (.error e, { s with faults })
  | none =>
    match c with
    | .checksum path =>
      match s.checksums.lookup path with
      | some value => (.ok (some value), s)
      | none => s.consult (.checksum path)
    | c => s.consult c

def exhausted : Catalog.Failure := .failed (-1) "script exhausted"

def serveQuery : Server Stage Query.interface := fun (r : Query.Request) s =>
  match s.script with
  | none =>
    let (a, catalog) := Catalog.Memory.serveQuery r s.catalog
    (a, { s with catalog })
  | some [] => (.error exhausted, { s with seen := s.seen ++ [r] })
  | some (a :: rest) => (a, { s with script := some rest, seen := s.seen ++ [r] })

def serveRemote : Server Stage Remote.interface := fun (r : Remote.Request) s =>
  let s := { s with requests := s.requests ++ [r] }
  match s.refusals.find? fun f => f.applies r.command with
  | some f => (.error f.failure, s)
  | none =>
    match s.hosts with
    | none => (.ok {}, s)
    | some hosts =>
      let (a, files) := Remote.serve hosts r s.files
      (a, { s with files })

def serveMerge : Server Stage Merge.interface := Server.sum serveCatalog serveRemote

def serveBatch : Server Stage Merge.batchInterface := Server.sum serveQuery serveMerge

/-- No drain of a fresh query takes more pages than this. -/
def pageBudget (s : Stage) : Nat :=
  match s.script with
  | some replies => replies.length + 1
  | none => s.catalog.pageBudget

end Stage
end DataGrid.Rehearsal
