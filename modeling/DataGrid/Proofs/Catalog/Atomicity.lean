import DataGrid.Proofs.Catalog.Reachable

/-! Calls of a catalog in memory are all or nothing. A call that fails leaves the whole catalog as
it was: the objects, the collections, the rows that wait and every counter. A call that succeeds
and is no look-up counts as one change and changes the one thing that it is about. Queries only
touch the rows that wait. -/
namespace DataGrid.Catalog.Memory

variable {m m' : Memory} {path source dest coll : String} {o grown : DataObject}

/-- One change is counted; objects and collections apart, all else is the same. -/
structure Counted (m m' : Memory) : Prop extends Undisturbed m m' where
  changes : m'.changes = m.changes + 1

/-- Other paths than these hold what they held. -/
def SameOutside (paths : List String) (m m' : Memory) : Prop :=
  ∀ x, x ∉ paths → m'.objects[x]? = m.objects[x]?

/-- A collection is new and nothing else is. -/
structure Opens (coll : String) (m m' : Memory) : Prop extends Counted m m' where
  fresh : coll ∉ m.collections
  collections : ∀ c, c ∈ m'.collections ↔ c = coll ∨ c ∈ m.collections
  objects : m'.objects = m.objects

/-- The object at one path is now at another; only its replicas know of it. -/
structure Moves (source dest : String) (m m' : Memory) : Prop extends Counted m m' where
  moved : ∃ o, m.objects[source]? = some o ∧ m'.objects[dest]? = some (o.renamed dest)
  gone : m'.objects[source]? = none
  vacant : m.objects[dest]? = none
  outside : SameOutside [source, dest] m m'
  size : m'.objects.size = m.objects.size
  collections : m'.collections = m.collections

structure Removes (path : String) (m m' : Memory) : Prop extends Counted m m' where
  existed : ∃ o, m.objects[path]? = some o
  gone : m'.objects[path]? = none
  outside : SameOutside [path] m m'
  size : m'.objects.size + 1 = m.objects.size
  collections : m'.collections = m.collections

/-- The object at a path has become another. -/
structure Replaces (path : String) (o grown : DataObject) (m m' : Memory) : Prop
    extends Counted m m' where
  before : m.objects[path]? = some o
  after : m'.objects[path]? = some grown
  outside : SameOutside [path] m m'
  size : m'.objects.size = m.objects.size
  collections : m'.collections = m.collections

/-- What a call has done that succeeded. The catalog chooses the number and the time of a replica
that is attached. -/
def Done (m m' : Memory) : Call → Prop
  | .identify _ | .hasCollection _ | .checksum _ | .primary _ => m' = m
  | .makeCollection coll => Opens (Path.trim coll) m m'
  | .move source dest => Moves source dest m m'
  | .remove path _ => Removes path m m'
  | .attach source dest => source.path = dest.path ∧ ∃ o number modified,
      Replaces dest.path o
        { o with replicas := o.replicas ++ [{ dest with number, modified }] } m m'
  | .annotate path name value => ∃ o,
      Replaces path o { o with attributes := o.attributes ++ [(name, value)] } m m'

/-- Only rows that wait and their indices have changed. -/
structure Read (m m' : Memory) : Prop where
  collections : m'.collections = m.collections
  objects : m'.objects = m.objects
  failures : m'.failures = m.failures
  added : m'.added = m.added
  changes : m'.changes = m.changes
  clock : m'.clock = m.clock

/-! The four ways to change a catalog. -/

theorem opens_opened (fresh : coll ∉ m.collections) : Opens coll m (m.opened coll) where
  toUndisturbed := opened_undisturbed m coll
  changes := rfl
  fresh := fresh
  collections c := by rw [mem_opened, eq_comm]
  objects := rfl

theorem removes_drop (existed : m.objects[path]? = some o) : Removes path m (m.drop path) where
  toUndisturbed := drop_undisturbed m path
  changes := rfl
  existed := ⟨o, existed⟩
  gone := by simp
  outside x other := by
    rw [List.mem_singleton, eq_comm] at other
    rw [getElem?_drop, if_neg other]
  size := size_erase_add_one ((mem_objects_iff m path).mpr ⟨o, existed⟩)
  collections := rfl

theorem replaces_put (existed : m.objects[path]? = some o) :
    Replaces path o grown m (m.put path grown) where
  toUndisturbed := put_undisturbed m path grown
  changes := rfl
  before := existed
  after := by simp
  outside x other := by
    rw [List.mem_singleton, eq_comm] at other
    rw [getElem?_put, if_neg other]
  size := by
    have present : path ∈ m.objects := (mem_objects_iff m path).mpr ⟨o, existed⟩
    change (m.objects.insert path grown).size = _
    rw [Std.TreeMap.size_insert, if_pos (Std.TreeMap.contains_iff_mem.mpr present)]
  collections := rfl

theorem moves_rehome (existed : m.objects[source]? = some o) (vacant : dest ∉ m.objects) :
    Moves source dest m (m.rehome source dest o) := by
  have empty : m.objects[dest]? = none := (not_mem_objects_iff m dest).mp vacant
  have apart : dest ≠ source := by
    rintro rfl
    rw [empty] at existed
    contradiction
  refine { rehome_undisturbed m source dest o with
    changes := rfl, moved := ⟨o, existed, by simp⟩, gone := by simp [apart], vacant := empty,
    outside := fun x other => ?_, size := ?_, collections := rfl }
  · simp only [List.mem_cons, List.not_mem_nil, or_false, not_or] at other
    rw [getElem?_rehome, if_neg (Ne.symm other.2), if_neg (Ne.symm other.1)]
  · have absent : dest ∉ m.objects.erase source := by simp [vacant]
    change ((m.objects.erase source).insert dest (o.renamed dest)).size = _
    rw [Std.TreeMap.size_insert, if_neg (mt Std.TreeMap.contains_iff_mem.mp absent),
      size_erase_add_one ((mem_objects_iff m source).mpr ⟨o, existed⟩)]

/-! Calls and queries. -/

theorem done_of_serve {c : Call} {a : c.Result} (h : serve c m = (.ok a, m')) : Done m m' c := by
  rw [serve_eq_ok_iff] at h
  cases c with
  | identify path => exact (lookup_eq_ok_iff.mp h).2
  | hasCollection coll => exact (Prod.mk.inj (Except.ok.inj h)).2.symm
  | checksum path => exact (lookup_eq_ok_iff.mp h).2
  | primary path => exact (lookup_eq_ok_iff.mp h).2
  | makeCollection coll =>
    obtain ⟨-, fresh, -, -, rfl⟩ := makeCollection_eq_ok_iff.mp (change_eq_ok_iff.mp h)
    exact opens_opened fresh
  | move source dest =>
    obtain ⟨-, o, existed, vacant, -, -, rfl⟩ := move_eq_ok_iff.mp (answer_move_iff.mp h)
    exact moves_rehome existed vacant
  | remove path force =>
    obtain ⟨-, present, rfl⟩ := remove_eq_ok_iff.mp (answer_remove_iff.mp h)
    obtain ⟨o, existed⟩ := (mem_objects_iff m path).mp present
    exact removes_drop existed
  | attach source dest =>
    obtain ⟨-, same, o, existed, -, rfl⟩ := attach_eq_ok_iff.mp (answer_attach_iff.mp h)
    exact ⟨same, o, _, _, replaces_put existed⟩
  | annotate path name value =>
    obtain ⟨-, o, existed, rfl⟩ := annotate_eq_ok_iff.mp (answer_annotate_iff.mp h)
    exact ⟨o, replaces_put existed⟩

theorem read_serveQuery (r : Query.Request) (m : Memory) : Read m (serveQuery r m).2 := by
  obtain ⟨pending, issued, left⟩ := exists_serveQuery_eq r m
  rw [left]
  exact ⟨rfl, rfl, rfl, rfl, rfl, rfl⟩

/-- Failures change nothing, successes the one thing that they are about. -/
theorem all_or_nothing (m m' : Memory) :
    (∀ c e, serve c m = (.error e, m') → m' = m) ∧
      (∀ r e, serveQuery r m = (.error e, m') → m' = m) ∧
      (∀ c a, serve c m = (.ok a, m') → Done m m' c) ∧
      ∀ r reply, serveQuery r m = (.ok reply, m') → Read m m' := by
  refine ⟨fun c e h => ?_, fun r e h => ?_, fun _ _ => done_of_serve, fun r _ h => ?_⟩
  · rw [serve_eq_settle] at h
    exact eq_of_settle_error h
  · rw [serveQuery_eq_settle] at h
    exact eq_of_settle_error h
  · have after : (serveQuery r m).2 = m' := by rw [h]
    exact after ▸ read_serveQuery r m

/-- One object; removals are made to fail. -/
def Sample.guarded : Memory :=
  (({} : Memory).withReplica (replica "/z/a")).2.withFailure .unlink (-13000)

theorem refused_removal_changes_nothing :
    (serve (.remove "/z/a" true) Sample.guarded).2 = Sample.guarded ∧
      (serveQuery ⟨["DATA_NAME"], [], 5, 7⟩ Sample.guarded).2 = Sample.guarded ∧
      Done Sample.guarded (serve (.annotate "/z/a" "k" "v") Sample.guarded).2
        (.annotate "/z/a" "k" "v") ∧
      Read Sample.guarded (serveQuery ⟨["DATA_NAME"], [], 5, 0⟩ Sample.guarded).2 := by
  obtain ⟨removal, -, -, -⟩ := all_or_nothing Sample.guarded _
  obtain ⟨-, later, -, -⟩ := all_or_nothing Sample.guarded _
  obtain ⟨-, -, marked, -⟩ := all_or_nothing Sample.guarded _
  obtain ⟨-, -, -, read⟩ := all_or_nothing Sample.guarded _
  exact ⟨removal (.remove "/z/a" true) _ rfl, later ⟨["DATA_NAME"], [], 5, 7⟩ _ rfl,
    marked (.annotate "/z/a" "k" "v") () rfl, read ⟨["DATA_NAME"], [], 5, 0⟩ _ rfl⟩

end DataGrid.Catalog.Memory
