import DataGrid.Proofs.Catalog.Transactions
import Std.Data.TreeMap.Lemmas
import Std.Data.TreeSet.Lemmas

/-! What each call does to a catalog held in memory: exactly when it succeeds, what it answers
and the catalog it leaves. A call that only looks something up leaves the catalog as it was,
and so does a call that fails. Every change is one of four: an object is put at a path, moved to
another or dropped, or a collection is opened. -/
namespace DataGrid

/-- The object under another path; only its replicas know where it is. -/
def DataObject.renamed (o : DataObject) (path : String) : DataObject :=
  { o with replicas := o.replicas.map fun r => { r with path } }

/-- The checksum that counts for the object, if there is one. -/
def DataObject.checksum? (o : DataObject) : Option String :=
  o.primary?.bind fun r => r.checksum.filter fun c => !c.isEmpty

/-- The same object, perhaps with further replicas under its path or other attributes. -/
structure DataObject.Grown (path : String) (o grown : DataObject) : Prop where
  id : grown.id = o.id
  replicas : ∃ more, grown.replicas = o.replicas ++ more ∧ ∀ r ∈ more, r.path = path

theorem DataObject.Grown.refl (path : String) (o : DataObject) : o.Grown path o :=
  ⟨rfl, [], by simp⟩

namespace Catalog.Memory
variable {m m' : Memory}

def put (m : Memory) (path : String) (o : DataObject) : Memory :=
  { m with objects := m.objects.insert path o }.change

def rehome (m : Memory) (source dest : String) (o : DataObject) : Memory :=
  { m with objects := (m.objects.erase source).insert dest (o.renamed dest) }.change

def drop (m : Memory) (path : String) : Memory :=
  { m with objects := m.objects.erase path }.change

def opened (m : Memory) (coll : String) : Memory :=
  { m with collections := m.collections.insert coll }.change

/-- All but the objects, the collections and the change count is the same. -/
structure Undisturbed (m m' : Memory) : Prop where
  pending : m'.pending = m.pending
  failures : m'.failures = m.failures
  added : m'.added = m.added
  issued : m'.issued = m.issued
  clock : m'.clock = m.clock

theorem Undisturbed.refl (m : Memory) : Undisturbed m m := ⟨rfl, rfl, rfl, rfl, rfl⟩

theorem Undisturbed.trans {m m' m'' : Memory} (h : Undisturbed m m') (h' : Undisturbed m' m'') :
    Undisturbed m m'' :=
  ⟨h'.pending.trans h.pending, h'.failures.trans h.failures, h'.added.trans h.added,
    h'.issued.trans h.issued, h'.clock.trans h.clock⟩

theorem put_undisturbed (m : Memory) (path : String) (o : DataObject) :
    Undisturbed m (m.put path o) := ⟨rfl, rfl, rfl, rfl, rfl⟩

theorem rehome_undisturbed (m : Memory) (source dest : String) (o : DataObject) :
    Undisturbed m (m.rehome source dest o) := ⟨rfl, rfl, rfl, rfl, rfl⟩

theorem drop_undisturbed (m : Memory) (path : String) : Undisturbed m (m.drop path) :=
  ⟨rfl, rfl, rfl, rfl, rfl⟩

theorem opened_undisturbed (m : Memory) (coll : String) : Undisturbed m (m.opened coll) :=
  ⟨rfl, rfl, rfl, rfl, rfl⟩

@[simp] theorem put_collections (m : Memory) (path : String) (o : DataObject) :
    (m.put path o).collections = m.collections := rfl

@[simp] theorem drop_collections (m : Memory) (path : String) :
    (m.drop path).collections = m.collections := rfl

@[simp] theorem rehome_collections (m : Memory) (source dest : String) (o : DataObject) :
    (m.rehome source dest o).collections = m.collections := rfl

@[simp] theorem opened_objects (m : Memory) (coll : String) :
    (m.opened coll).objects = m.objects := rfl

@[simp] theorem getElem?_put (m : Memory) (path : String) (o : DataObject) (x : String) :
    (m.put path o).objects[x]? = if path = x then some o else m.objects[x]? := by
  simp [put, change, Std.TreeMap.getElem?_insert]

@[simp] theorem getElem?_drop (m : Memory) (path x : String) :
    (m.drop path).objects[x]? = if path = x then none else m.objects[x]? := by
  simp [drop, change, Std.TreeMap.getElem?_erase]

@[simp] theorem getElem?_rehome (m : Memory) (source dest : String) (o : DataObject)
    (x : String) :
    (m.rehome source dest o).objects[x]? =
      if dest = x then some (o.renamed dest) else if source = x then none else m.objects[x]? := by
  simp [rehome, change, Std.TreeMap.getElem?_insert, Std.TreeMap.getElem?_erase]

@[simp] theorem mem_opened (m : Memory) (coll c : String) :
    c ∈ (m.opened coll).collections ↔ coll = c ∨ c ∈ m.collections := by
  simp [opened, change, Std.TreeSet.mem_insert]

theorem mem_objects_iff (m : Memory) (path : String) :
    path ∈ m.objects ↔ ∃ o, m.objects[path]? = some o := by
  rw [Std.TreeMap.mem_iff_isSome_getElem?, Option.isSome_iff_exists]

theorem not_mem_objects_iff (m : Memory) (path : String) :
    path ∉ m.objects ↔ m.objects[path]? = none := by
  rw [mem_objects_iff, ← Option.not_isSome_iff_eq_none, Option.isSome_iff_exists]

theorem size_erase_add_one {α β : Type} [Ord α] [Std.TransOrd α] {t : Std.TreeMap α β} {k : α}
    (h : k ∈ t) : (t.erase k).size + 1 = t.size := by
  have filled : t.isEmpty = false := Std.TreeMap.isEmpty_eq_false_iff_exists_mem.mpr ⟨k, h⟩
  rw [Std.TreeMap.isEmpty_eq_size_eq_zero, beq_eq_false_iff_ne] at filled
  rw [Std.TreeMap.size_erase, if_pos (Std.TreeMap.contains_iff_mem.mpr h)]
  omega

theorem allow_bind_eq_ok_iff {α : Type} {step : Step} {f : Unit → Except Failure α} {a : α} :
    (m.allow step >>= f) = .ok a ↔ m.failures step = none ∧ f () = .ok a := by
  cases h : m.failures step <;> simp [allow, h, Bind.bind, Except.bind]

/-! Calls that look something up. -/

theorem serve_identify (path : String) (m : Memory) :
    serve (.identify path) m = (m.identify path, m) := rfl

/-- A failed look-up has a status: the catalog does not answer it without rows. -/
theorem identify_eq_error {path : String} {f : Failure} (h : m.identify path = .error f) :
    f ≠ .noRows := by
  rw [identify, allow] at h
  split at h <;> cases h
  simp

theorem identify_eq_ok_iff {path : String} {id : Option Int} :
    m.identify path = .ok id ↔
      m.failures .lookup = none ∧ id = m.objects[path]?.map DataObject.id := by
  rw [identify, allow_bind_eq_ok_iff]
  simp [pure, Except.pure, eq_comm]

theorem checksum_eq_ok_iff {path : String} {c : Option String} :
    m.checksum path = .ok c ↔
      m.failures .checksum = none ∧ ∃ o, m.objects[path]? = some o ∧ c = o.checksum? := by
  rw [checksum, allow_bind_eq_ok_iff]
  cases ho : m.objects[path]? <;> simp [pure, Except.pure, eq_comm, DataObject.checksum?]

theorem primary_eq_ok_iff {path : String} {r : Replica} :
    m.primary path = .ok r ↔
      m.failures .objectInfo = none ∧ ∃ o, m.objects[path]? = some o ∧ o.primary? = some r := by
  rw [primary, allow_bind_eq_ok_iff]
  cases ho : m.objects[path]? with
  | none => simp
  | some o => cases hr : o.primary? <;> simp [hr, pure, Except.pure]

/-! Calls that change the catalog. -/

theorem makeCollection_eq_ok_iff {coll : String} :
    m.makeCollection coll = .ok m' ↔
      m.failures .collCreate = none ∧ Path.trim coll ∉ m.collections ∧
        Path.trim coll ∉ m.objects ∧
        (Path.parent (Path.trim coll) = "/" ∨ Path.parent (Path.trim coll) ∈ m.collections) ∧
        m' = m.opened (Path.trim coll) := by
  rw [makeCollection, allow_bind_eq_ok_iff]
  simp only [← Std.TreeSet.contains_iff_mem, ← Std.TreeMap.contains_iff_mem]
  cases hc : m.collections.contains (Path.trim coll) <;>
    cases ho : m.objects.contains (Path.trim coll) <;>
    cases hp : m.collections.contains (Path.parent (Path.trim coll)) <;>
    by_cases hr : Path.parent (Path.trim coll) = "/" <;>
    simp [hr, pure, Except.pure, opened, @eq_comm _ m']

theorem move_eq_ok_iff {source dest : String} :
    m.move source dest = .ok m' ↔
      m.failures .rename = none ∧ ∃ o, m.objects[source]? = some o ∧
        dest ∉ m.objects ∧ dest ∉ m.collections ∧ Path.parent dest ∈ m.collections ∧
        m' = m.rehome source dest o := by
  rw [move, allow_bind_eq_ok_iff]
  cases ho : m.objects[source]? with
  | none => simp
  | some o =>
    simp only [← Std.TreeSet.contains_iff_mem, ← Std.TreeMap.contains_iff_mem]
    cases hd : m.objects.contains dest <;> cases hc : m.collections.contains dest <;>
      cases hp : m.collections.contains (Path.parent dest) <;>
      simp [pure, Except.pure, DataObject.renamed, rehome, @eq_comm _ m']

theorem remove_eq_ok_iff {path : String} :
    m.remove path = .ok m' ↔
      m.failures .unlink = none ∧ path ∈ m.objects ∧ m' = m.drop path := by
  rw [remove, allow_bind_eq_ok_iff]
  rw [← Std.TreeMap.contains_iff_mem]
  cases h : m.objects.contains path <;> simp [pure, Except.pure, drop, @eq_comm _ m']

theorem attach_eq_ok_iff {source dest : Replica} :
    m.attach source dest = .ok m' ↔
      m.failures .registerReplica = none ∧ source.path = dest.path ∧
        ∃ o, m.objects[dest.path]? = some o ∧
          (o.replicas.any fun r =>
            r.file == dest.file && r.resource.name == dest.resource.name) = false ∧
          m' = m.put dest.path { o with replicas := o.replicas ++
            [{ dest with number := nextNumber o.replicas, modified := m.clock m.changes }] } := by
  rw [attach, allow_bind_eq_ok_iff]
  by_cases hp : source.path = dest.path
  · cases ho : m.objects[dest.path]? with
    | none => simp [hp, ho]
    | some o =>
      cases hr : o.replicas.any fun r =>
          r.file == dest.file && r.resource.name == dest.resource.name <;>
        simp [hp, ho, hr, pure, Except.pure, put, -List.any_eq_true, -List.any_eq_false,
          @eq_comm _ m']
  · simp [hp]

theorem annotate_eq_ok_iff {path name value : String} :
    m.annotate path name value = .ok m' ↔
      m.failures .setAttribute = none ∧ ∃ o, m.objects[path]? = some o ∧
        m' = m.put path { o with attributes := o.attributes ++ [(name, value)] } := by
  rw [annotate, allow_bind_eq_ok_iff]
  cases ho : m.objects[path]? <;> simp [pure, Except.pure, put, @eq_comm _ m']

/-! The same of the calls themselves. -/

theorem lookup_eq_ok_iff {α : Type} {x : Except Failure α} {a : α} :
    (do return (← x, m) : Except Failure (α × Memory)) = .ok (a, m') ↔ x = .ok a ∧ m' = m := by
  cases x <;> simp [Bind.bind, Except.bind, pure, Except.pure, @eq_comm _ m']

theorem change_eq_ok_iff {x : Except Failure Memory} {u : Unit} :
    (do return ((), ← x) : Except Failure (Unit × Memory)) = .ok (u, m') ↔ x = .ok m' := by
  cases x <;> simp [Bind.bind, Except.bind, pure, Except.pure]

theorem settle_eq_ok_iff {α : Type} {x : Except Failure (α × Memory)} {a : α} :
    m.settle x = (.ok a, m') ↔ x = .ok (a, m') := by
  rcases x with e | ⟨b, after⟩ <;> simp [settle]

theorem eq_of_settle_error {α : Type} {x : Except Failure (α × Memory)} {e : Failure}
    (h : m.settle x = (.error e, m')) : m' = m := by
  rcases x with failure | ⟨a, after⟩ <;> cases h
  rfl

theorem serve_eq_ok_iff {c : Call} {a : c.Result} :
    serve c m = (.ok a, m') ↔ m.answer c = .ok (a, m') := by
  rw [serve_eq_settle, settle_eq_ok_iff]

theorem answer_checksum_iff {path : String} {c : Option String} :
    m.answer (.checksum path) = .ok (c, m') ↔
      (m.failures .checksum = none ∧ ∃ o, m.objects[path]? = some o ∧ c = o.checksum?) ∧ m' = m :=
  lookup_eq_ok_iff.trans (and_congr_left' checksum_eq_ok_iff)

theorem answer_primary_iff {path : String} {r : Replica} :
    m.answer (.primary path) = .ok (r, m') ↔
      (m.failures .objectInfo = none ∧
        ∃ o, m.objects[path]? = some o ∧ o.primary? = some r) ∧ m' = m :=
  lookup_eq_ok_iff.trans (and_congr_left' primary_eq_ok_iff)

theorem answer_move_iff {source dest : String} {u : Unit} :
    m.answer (.move source dest) = .ok (u, m') ↔ m.move source dest = .ok m' :=
  change_eq_ok_iff

theorem answer_remove_iff {path : String} {force : Bool} {u : Unit} :
    m.answer (.remove path force) = .ok (u, m') ↔ m.remove path = .ok m' :=
  change_eq_ok_iff

theorem answer_attach_iff {source dest : Replica} {u : Unit} :
    m.answer (.attach source dest) = .ok (u, m') ↔ m.attach source dest = .ok m' :=
  change_eq_ok_iff

theorem answer_annotate_iff {path name value : String} {u : Unit} :
    m.answer (.annotate path name value) = .ok (u, m') ↔ m.annotate path name value = .ok m' :=
  change_eq_ok_iff

end Catalog.Memory
end DataGrid
