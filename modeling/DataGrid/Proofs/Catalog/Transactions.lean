import DataGrid.Catalog.Memory

/-! The operations of a catalog in memory as transactions. A transaction fails, or it gives its
result and the whole catalog that it leaves; it has no state in between. The operations work in
place, change by change, and come to the same: every check that can fail stands before the first
change, so an operation that fails has changed nothing. -/
namespace DataGrid.Catalog.Memory
open Predicate (invalidArgument)

/-- The parent must exist already, except below the root. -/
def makeCollection (m : Memory) (coll : String) : Except Failure Memory := do
  m.allow .collCreate
  let coll := Path.trim coll
  let parent := Path.parent coll
  if m.collections.contains coll || m.objects.contains coll then .error (taken coll)
  else if parent != "/" && !m.collections.contains parent then
    .error (.failed unknownCollection s!"parent collection '{parent}' does not exist")
  else return { m with collections := m.collections.insert coll }.change

def move (m : Memory) (source dest : String) : Except Failure Memory := do
  m.allow .rename
  match m.objects[source]? with
  | none => .error (unknownObject source)
  | some o =>
    let parent := Path.parent dest
    if m.objects.contains dest || m.collections.contains dest then .error (taken dest)
    else if !m.collections.contains parent then
      .error (.failed unknownCollection s!"collection '{parent}' does not exist")
    else
      let moved := { o with replicas := o.replicas.map fun r => { r with path := dest } }
      return { m with objects := (m.objects.erase source).insert dest moved }.change

def remove (m : Memory) (path : String) : Except Failure Memory := do
  m.allow .unlink
  if m.objects.contains path then return { m with objects := m.objects.erase path }.change
  else .error (unknownObject path)

/-- Adds `dest` as a replica of the object that `source` describes. Two replicas never share
file and resource. -/
def attach (m : Memory) (source dest : Replica) : Except Failure Memory := do
  m.allow .registerReplica
  if source.path ≠ dest.path then
    .error (.failed invalidArgument
      s!"replica path '{dest.path}' differs from '{source.path}'")
  else
    match m.objects[source.path]? with
    | none => .error (unknownObject source.path)
    | some o =>
      if o.replicas.any fun r =>
          r.file == dest.file && r.resource.name == dest.resource.name then
        .error (.failed alreadyExists s!"replica at '{dest.file}' already registered")
      else
        let number := nextNumber o.replicas
        let replica := { dest with number, modified := m.clock m.changes }
        let grown := { o with replicas := o.replicas ++ [replica] }
        return { m with objects := m.objects.insert source.path grown }.change

def annotate (m : Memory) (path name value : String) : Except Failure Memory := do
  m.allow .setAttribute
  match m.objects[path]? with
  | none => .error (unknownObject path)
  | some o =>
    let marked := { o with attributes := o.attributes ++ [(name, value)] }
    return { m with objects := m.objects.insert path marked }.change

/-- The result of a call and the catalog after it. -/
def answer (m : Memory) : (c : Call) → Except Failure (c.Result × Memory)
  | .identify path => return (← m.identify path, m)
  | .hasCollection coll => return (m.hasCollection coll, m)
  | .makeCollection coll => return ((), ← m.makeCollection coll)
  | .move source dest => return ((), ← m.move source dest)
  | .remove path _ => return ((), ← m.remove path)
  | .checksum path => return (← m.checksum path, m)
  | .primary path => return (← m.primary path, m)
  | .attach source dest => return ((), ← m.attach source dest)
  | .annotate path name value => return ((), ← m.annotate path name value)

/-- A failed call leaves the catalog as it was. -/
def settle (m : Memory) : Except Failure (α × Memory) → Except Failure α × Memory
  | .ok (a, after) => (.ok a, after)
  | .error e => (.error e, m)

/-- Gives out the first rows and keeps the others under a fresh index. -/
def deliver (m : Memory) (limit : Nat) (select : List String) (rows : List Query.Row) :
    Query.Reply × Memory :=
  let attributeCount := UInt64.ofNat select.length
  match rows.drop limit with
  | [] => (⟨rows, 0, attributeCount⟩, m)
  | rest =>
    let issued := m.issued + 1
    (⟨rows.take limit, issued, attributeCount⟩,
      { m with issued, pending := m.pending.insert issued rest })

def query (m : Memory) (r : Query.Request) : Except Failure (Query.Reply × Memory) := do
  m.allow .query
  if r.maxRows = Query.releaseLimit then
    return (⟨[], 0, UInt64.ofNat r.select.length⟩,
      { m with pending := m.pending.erase r.continueIndex })
  else if r.maxRows ≤ 0 then
    .error (.failed invalidArgument s!"invalid max_rows {r.maxRows.toInt}")
  else
    let limit := r.maxRows.toInt.toNat
    if 0 < r.continueIndex then
      match m.pending[r.continueIndex]? with
      | none => .error (.failed invalidArgument s!"unknown continuation index {r.continueIndex}")
      | some rows =>
        return { m with pending := m.pending.erase r.continueIndex }.deliver limit r.select rows
    else return m.deliver limit r.select (← m.matching r)

/-! What operations in place come to. -/

namespace Action
variable {α β : Type}

@[simp] theorem outcome_consult (f : Memory → Except Failure α) (m : Memory) :
    (consult f).outcome m = (f m, m) := rfl

@[simp] theorem outcome_get_bind (k : Memory → Action α) (m : Memory) :
    (get >>= k).outcome m = (k m).outcome m := rfl

theorem outcome_bind (x : Action α) (k : α → Action β) (m : Memory) :
    (x >>= k).outcome m =
      match x.outcome m with
      | (.ok a, after) => (k a).outcome after
      | (.error e, after) => (.error e, after) := by
  simp only [outcome, ExceptT.run_bind, StateT.run_bind, Id.run_bind]
  rcases (x.run.run m).run with ⟨e | a, after⟩ <;> rfl

@[simp] theorem outcome_consult_bind (f : Memory → Except Failure α) (k : α → Action β)
    (m : Memory) :
    (consult f >>= k).outcome m =
      match f m with
      | .ok a => (k a).outcome m
      | .error e => (.error e, m) := by
  rw [outcome_bind, outcome_consult]
  cases f m <;> rfl

end Action

theorem outcome_makeCollection (coll : String) (m : Memory) :
    (Action.makeCollection coll).outcome m =
      m.settle (do return ((), ← m.makeCollection coll)) := by
  simp only [Action.makeCollection, makeCollection, Action.outcome_consult_bind,
    Action.outcome_get_bind]
  cases m.allow .collCreate with
  | error e => rfl
  | ok _ =>
    cases m.collections.contains (Path.trim coll) || m.objects.contains (Path.trim coll) with
    | true => rfl
    | false =>
      cases Path.parent (Path.trim coll) != "/" &&
        !m.collections.contains (Path.parent (Path.trim coll)) <;> rfl

theorem outcome_move (source dest : String) (m : Memory) :
    (Action.move source dest).outcome m = m.settle (do return ((), ← m.move source dest)) := by
  simp only [Action.move, move, Action.outcome_consult_bind, Action.outcome_get_bind]
  cases m.allow .rename with
  | error e => rfl
  | ok _ =>
    simp only [Bind.bind, Except.bind]
    cases m.objects[source]? with
    | none => rfl
    | some o =>
      cases m.objects.contains dest || m.collections.contains dest with
      | true => rfl
      | false => cases m.collections.contains (Path.parent dest) <;> rfl

theorem outcome_remove (path : String) (m : Memory) :
    (Action.remove path).outcome m = m.settle (do return ((), ← m.remove path)) := by
  simp only [Action.remove, remove, Action.outcome_consult_bind, Action.outcome_get_bind]
  cases m.allow .unlink with
  | error e => rfl
  | ok _ => cases m.objects.contains path <;> rfl

theorem outcome_attach (source dest : Replica) (m : Memory) :
    (Action.attach source dest).outcome m = m.settle (do return ((), ← m.attach source dest)) := by
  simp only [Action.attach, attach, Action.outcome_consult_bind]
  cases m.allow .registerReplica with
  | error e => rfl
  | ok _ =>
    by_cases differ : source.path ≠ dest.path
    · rw [if_pos differ, if_pos differ]
      rfl
    · rw [if_neg differ, if_neg differ, Action.outcome_get_bind]
      cases m.objects[source.path]? with
      | none => rfl
      | some o =>
        dsimp only
        cases o.replicas.any fun r =>
            r.file == dest.file && r.resource.name == dest.resource.name with
        | true => rfl
        | false => rfl

theorem outcome_annotate (path name value : String) (m : Memory) :
    (Action.annotate path name value).outcome m =
      m.settle (do return ((), ← m.annotate path name value)) := by
  simp only [Action.annotate, annotate, Action.outcome_consult_bind, Action.outcome_get_bind]
  cases m.allow .setAttribute with
  | error e => rfl
  | ok _ => cases m.objects[path]? <;> rfl

theorem outcome_lookup {α : Type} (f : Memory → Except Failure α) (m : Memory) :
    (Action.consult f).outcome m = m.settle (do return (← f m, m)) := by
  rw [Action.outcome_consult]
  cases f m <;> rfl

/-- A call is answered by its transaction. -/
theorem serve_eq_settle (c : Call) (m : Memory) : serve c m = m.settle (m.answer c) := by
  cases c with
  | identify path => exact outcome_lookup _ m
  | hasCollection coll => rfl
  | makeCollection coll => exact outcome_makeCollection coll m
  | move source dest => exact outcome_move source dest m
  | remove path force => exact outcome_remove path m
  | checksum path => exact outcome_lookup _ m
  | primary path => exact outcome_lookup _ m
  | attach source dest => exact outcome_attach source dest m
  | annotate path name value => exact outcome_annotate path name value m

theorem outcome_deliver (limit : Nat) (select : List String) (rows : List Query.Row)
    (m : Memory) :
    (Action.deliver limit select rows).outcome m =
      (.ok (m.deliver limit select rows).1, (m.deliver limit select rows).2) := by
  simp only [Action.deliver, deliver]
  cases rows.drop limit <;> rfl

theorem outcome_resume (k : Int) (m : Memory) :
    (Action.resume k).outcome m =
      match m.pending[k]? with
      | none => (.error (.failed invalidArgument s!"unknown continuation index {k}"), m)
      | some rows => (.ok rows, { m with pending := m.pending.erase k }) := by
  simp only [Action.resume, Action.outcome_get_bind]
  cases m.pending[k]? <;> rfl

/-- A query is answered by its transaction. What was kept under an index is taken out before the
rows are given out, but nothing fails in between. -/
theorem serveQuery_eq_settle (r : Query.Request) (m : Memory) :
    serveQuery r m = m.settle (m.query r) := by
  simp only [serveQuery, Action.query, query, Action.outcome_consult_bind]
  cases m.allow .query with
  | error e => rfl
  | ok _ =>
    by_cases release : r.maxRows = Query.releaseLimit
    · simp only [release, if_true]
      rfl
    by_cases limit : r.maxRows ≤ 0
    · simp only [release, limit, if_false, if_true]
      rfl
    by_cases later : 0 < r.continueIndex
    · simp only [release, limit, later, if_false, if_true, Action.outcome_bind, outcome_resume]
      simp only [Bind.bind, Except.bind]
      cases m.pending[r.continueIndex]? with
      | none => rfl
      | some rows => exact outcome_deliver _ _ _ _
    · simp only [release, limit, later, if_false, Action.outcome_consult_bind]
      simp only [Bind.bind, Except.bind]
      cases m.matching r with
      | error e => rfl
      | ok rows => exact outcome_deliver _ _ _ _

end DataGrid.Catalog.Memory
