import DataGrid.Proofs.Catalog.Queries
import DataGrid.Proofs.Segments

/-! The catalogs that can arise: an empty one, seeded, made to fail and asked in any order. If all
paths in use are plain, then whatever is in use lies directly below the root or in a collection
that is in use, because a collection is opened with all above it or below one that is there, and
no collection is ever removed. -/
namespace DataGrid.Catalog.Memory
open DataGrid.Path (Plain Proper place spell)

/-- What one call can do. -/
inductive Change (m : Memory) : Memory → Prop
  | none : Change m m
  | put {path : String} {o grown : DataObject} (present : m.objects[path]? = some o)
      (grows : o.Grown path grown) : Change m (m.put path grown)
  | rehome {source dest : String} {o : DataObject} (candidate : m.objects[source]? = some o)
      (vacant : dest ∉ m.objects) (free : dest ∉ m.collections)
      (homed : Path.parent dest ∈ m.collections) : Change m (m.rehome source dest o)
  | drop {path : String} : Change m (m.drop path)
  | opened {coll : String} (free : coll ∉ m.collections) (vacant : coll ∉ m.objects)
      (homed : Path.parent coll = "/" ∨ Path.parent coll ∈ m.collections) :
      Change m (m.opened coll)

inductive Reachable : Memory → Prop
  | empty (clock : Nat → Int64) (takes : Predicate.Engine) : Reachable { clock, takes }
  | collection {m : Memory} (coll : String) : Reachable m → Reachable (m.withCollection coll)
  | replica {m : Memory} (r : Replica) : Reachable m → Reachable (m.withReplica r).2
  | failing {m : Memory} (step : Step) (status : Int32) :
      Reachable m → Reachable (m.withFailure step status)
  | repaired {m : Memory} : Reachable m → Reachable m.withoutFailures
  | call {m : Memory} (c : Call) : Reachable m → Reachable (serve c m).2
  | query {m : Memory} (r : Query.Request) : Reachable m → Reachable (serveQuery r m).2

/-- No path is both an object and a collection, and every path is plain. -/
structure Orderly (m : Memory) : Prop where
  separate : ∀ x ∈ m.objects, x ∉ m.collections
  objects : ∀ x ∈ m.objects, Plain x
  collections : ∀ c ∈ m.collections, Plain c

theorem orderly_iff {m : Memory} : Orderly m ↔
    (∀ x ∈ m.objects.keys, x ∉ m.collections ∧ Plain x) ∧
      ∀ c ∈ m.collections.toList, Plain c := by
  simp only [Std.TreeMap.mem_keys, Std.TreeSet.mem_toList]
  constructor
  · intro h
    exact ⟨fun x hx => ⟨h.separate x hx, h.objects x hx⟩, h.collections⟩
  · intro h
    exact ⟨fun x hx => (h.1 x hx).1, fun x hx => (h.1 x hx).2, h.2⟩

instance (m : Memory) : Decidable (Orderly m) := decidable_of_iff _ orderly_iff.symm

/-- Directly below the root or in a collection. -/
def Homed (m : Memory) (path : String) : Prop :=
  Path.parent path = "/" ∨ Path.parent path ∈ m.collections

/-- Unless there is a collection of another form, all plain paths in use are homed. -/
def Nested (m : Memory) : Prop :=
  (∀ c ∈ m.collections, Plain c) →
    (∀ c ∈ m.collections, m.Homed c) ∧ ∀ x ∈ m.objects, Plain x → m.Homed x

variable {m m' : Memory}

theorem change_of_settle {α : Type} {x : Except Failure (α × Memory)}
    (h : ∀ a m', x = .ok (a, m') → Change m m') : Change m (m.settle x).2 := by
  rcases x with e | ⟨a, m'⟩
  · exact .none
  · exact h a m' rfl

theorem change_of_serve (c : Call) (m : Memory) : Change m (serve c m).2 := by
  rw [serve_eq_settle]
  apply change_of_settle
  intro a m' ha
  cases c with
  | identify path =>
    obtain ⟨-, rfl⟩ := lookup_eq_ok_iff.mp ha
    exact .none
  | hasCollection coll =>
    cases ha
    exact .none
  | makeCollection coll =>
    obtain ⟨-, free, vacant, homed, rfl⟩ := makeCollection_eq_ok_iff.mp (change_eq_ok_iff.mp ha)
    exact .opened free vacant homed
  | move source dest =>
    obtain ⟨-, o, candidate, vacant, free, homed, rfl⟩ := move_eq_ok_iff.mp (answer_move_iff.mp ha)
    exact .rehome candidate vacant free homed
  | remove path force =>
    obtain ⟨-, -, rfl⟩ := remove_eq_ok_iff.mp (answer_remove_iff.mp ha)
    exact .drop
  | checksum path =>
    obtain ⟨-, rfl⟩ := answer_checksum_iff.mp ha
    exact .none
  | primary path =>
    obtain ⟨-, rfl⟩ := answer_primary_iff.mp ha
    exact .none
  | attach source dest =>
    obtain ⟨-, -, o, present, -, rfl⟩ := attach_eq_ok_iff.mp (answer_attach_iff.mp ha)
    exact .put present ⟨rfl, _, rfl, by simp⟩
  | annotate path name value =>
    obtain ⟨-, o, present, rfl⟩ := annotate_eq_ok_iff.mp (answer_annotate_iff.mp ha)
    exact .put present ⟨rfl, [], by simp⟩

theorem mem_put {path x : String} {o : DataObject} :
    x ∈ (m.put path o).objects ↔ path = x ∨ x ∈ m.objects := by
  simp [put, change]

theorem mem_drop {path x : String} : x ∈ (m.drop path).objects ↔ path ≠ x ∧ x ∈ m.objects := by
  simp [drop, change]

theorem mem_rehome {source dest x : String} {o : DataObject} :
    x ∈ (m.rehome source dest o).objects ↔ dest = x ∨ source ≠ x ∧ x ∈ m.objects := by
  simp [rehome, change]

theorem Homed.mono {path : String} (h : m.Homed path)
    (kept : ∀ c ∈ m.collections, c ∈ m'.collections) : m'.Homed path :=
  h.imp_right (kept _)

theorem Change.undisturbed (h : Change m m') : Undisturbed m m' := by
  cases h <;> exact ⟨rfl, rfl, rfl, rfl, rfl⟩

theorem Change.kept (h : Change m m') : ∀ c ∈ m.collections, c ∈ m'.collections := by
  intro c hc
  cases h with
  | opened free vacant homed => exact (mem_opened m _ c).mpr (.inr hc)
  | _ => exact hc

/-- What is in use after a call was in use before, or is homed. -/
theorem Change.homed (h : Change m m') :
    (∀ c ∈ m'.collections, c ∈ m.collections ∨ m.Homed c) ∧
      ∀ x ∈ m'.objects, x ∈ m.objects ∨ m.Homed x := by
  cases h with
  | none => exact ⟨fun c => .inl, fun x => .inl⟩
  | put present =>
    refine ⟨fun c => .inl, fun x hx => .inl ?_⟩
    rcases mem_put.mp hx with rfl | hx
    · exact (mem_objects_iff m _).mpr ⟨_, present⟩
    · exact hx
  | rehome candidate vacant free homed =>
    refine ⟨fun c => .inl, fun x hx => ?_⟩
    rcases mem_rehome.mp hx with rfl | ⟨-, hx⟩
    · exact .inr (.inr homed)
    · exact .inl hx
  | drop => exact ⟨fun c => .inl, fun x hx => .inl (mem_drop.mp hx).2⟩
  | opened free vacant homed =>
    refine ⟨fun c hc => ?_, fun x => .inl⟩
    rcases (mem_opened m _ c).mp hc with rfl | hc
    · exact .inr homed
    · exact .inl hc

theorem Change.separate (h : Change m m') (apart : ∀ x ∈ m.objects, x ∉ m.collections) :
    ∀ x ∈ m'.objects, x ∉ m'.collections := by
  cases h with
  | none => exact apart
  | put present =>
    intro x hx
    rcases mem_put.mp hx with rfl | hx
    · exact apart _ ((mem_objects_iff m _).mpr ⟨_, present⟩)
    · exact apart x hx
  | rehome candidate vacant free homed =>
    intro x hx
    rcases mem_rehome.mp hx with rfl | ⟨-, hx⟩
    · exact free
    · exact apart x hx
  | drop => exact fun x hx => apart x (mem_drop.mp hx).2
  | opened free vacant homed =>
    intro x hx hc
    rcases (mem_opened m _ x).mp hc with rfl | hc
    · exact vacant hx
    · exact apart x hx hc

theorem Change.nested (h : Change m m') (nested : Nested m) : Nested m' := by
  intro plain
  obtain ⟨colls, objs⟩ := nested fun c hc => plain c (h.kept c hc)
  refine ⟨fun c hc => ?_, fun x hx hp => ?_⟩
  · exact ((h.homed.1 c hc).elim (colls c) id).mono h.kept
  · exact ((h.homed.2 x hx).elim (objs x · hp) id).mono h.kept

/-! Seeding. -/

theorem mem_withCollection {coll c : String} :
    c ∈ (m.withCollection coll).collections ↔ c ∈ m.collections ∨ c ∈ chain coll := by
  simp [withCollection, Std.TreeSet.mem_insertMany_list]

/-- With a collection come all collections that lead to it. -/
theorem parent_mem_chain {coll c : String} (h : c ∈ chain coll) (plain : Plain c) :
    Path.parent c = "/" ∨ Path.parent c ∈ chain coll := by
  obtain ⟨names, some, proper, rfl⟩ := Path.plain_iff.mp plain
  obtain ⟨base, s, rfl⟩ := (List.eq_nil_or_concat names).resolve_left some
  rw [List.concat_eq_append] at h proper ⊢
  rw [Path.parent_place proper]
  by_cases top : base = []
  · exact .inl (by simp [top])
  · obtain ⟨rung, hrung, same⟩ := List.mem_map.mp h
    obtain rfl := String.ofList_inj.mp same
    obtain ⟨more, split, first⟩ := Path.eq_append_of_mem_rungs hrung
    have filled : spell base ≠ [] := fun none => top (Path.spell_eq_nil_iff.mp none)
    have longer : Path.trimChars coll.toList = spell base ++ '/' :: (s ++ more) := by
      rw [← List.nil_append (Path.trimChars _), split, Path.spell_concat]
      simp
    have above : [] ++ spell base ∈ Path.rungs [] (Path.trimChars coll.toList) :=
      Path.mem_rungs ('/' :: (s ++ more)) filled longer (by simp)
    rw [if_neg top]
    exact .inr (List.mem_map.mpr ⟨spell base, above, rfl⟩)

theorem homed_withCollection {path : String} (plain : Plain path) :
    (m.withCollection (Path.parent path)).Homed path := by
  obtain ⟨names, some, proper, rfl⟩ := Path.plain_iff.mp plain
  obtain ⟨base, s, rfl⟩ := (List.eq_nil_or_concat names).resolve_left some
  rw [List.concat_eq_append] at proper ⊢
  rw [Homed, Path.parent_place proper]
  by_cases top : base = []
  · exact .inl (by simp [top])
  · have filled : spell base ≠ [] := fun none => top (Path.spell_eq_nil_iff.mp none)
    have last : [] ++ spell base ∈ Path.rungs [] (Path.trimChars (place base).toList) := by
      rw [Path.toList_place, Path.trimChars_spell proper.left]
      exact Path.mem_rungs [] filled (by simp) (by simp)
    rw [if_neg top]
    exact .inr (mem_withCollection.mpr (.inr (List.mem_map.mpr ⟨spell base, last, rfl⟩)))

theorem nested_withCollection (coll : String) (nested : Nested m) :
    Nested (m.withCollection coll) := by
  intro plain
  have kept (c : String) (hc : c ∈ m.collections) : c ∈ (m.withCollection coll).collections :=
    mem_withCollection.mpr (.inl hc)
  obtain ⟨colls, objs⟩ := nested fun c hc => plain c (kept c hc)
  refine ⟨fun c hc => ?_, fun x hx hp => (objs x hx hp).mono kept⟩
  rcases mem_withCollection.mp hc with hc | hchain
  · exact (colls c hc).mono kept
  · exact (parent_mem_chain hchain (plain c hc)).imp_right fun h => mem_withCollection.mpr (.inr h)

theorem collections_withReplica (m : Memory) (r : Replica) :
    (m.withReplica r).2.collections = (m.withCollection (Path.parent r.path)).collections := by
  simp only [withReplica]
  split <;> rfl

theorem mem_withReplica {r : Replica} {x : String} (h : x ∈ (m.withReplica r).2.objects) :
    r.path = x ∨ x ∈ m.objects := by
  have keys : (m.withCollection (Path.parent r.path)).objects = m.objects := rfl
  simp only [withReplica, keys] at h
  split at h <;> simpa using h

theorem nested_withReplica (r : Replica) (nested : Nested m) : Nested (m.withReplica r).2 := by
  have grown := nested_withCollection (Path.parent r.path) nested
  have same := collections_withReplica m r
  intro plain
  rw [same] at plain
  obtain ⟨colls, objs⟩ := grown plain
  have homed {x : String} (h : (m.withCollection (Path.parent r.path)).Homed x) :
      (m.withReplica r).2.Homed x := by
    simpa only [Homed, same] using h
  refine ⟨fun c hc => homed (colls c (same ▸ hc)), fun x hx hp => homed ?_⟩
  rcases mem_withReplica hx with rfl | hx
  · exact homed_withCollection hp
  · exact objs x hx hp

/-! Queries keep the paths as they are. -/

/-- The same objects and collections, none of them added. -/
def SamePaths (m m' : Memory) : Prop :=
  m'.collections = m.collections ∧ m'.objects = m.objects ∧ m'.added = m.added

theorem samePaths_serveQuery (r : Query.Request) (m : Memory) :
    SamePaths m (serveQuery r m).2 := by
  obtain ⟨pending, issued, left⟩ := exists_serveQuery_eq r m
  rw [left]
  exact ⟨rfl, rfl, rfl⟩

theorem Nested.samePaths (h : Nested m) (same : SamePaths m m') : Nested m' := by
  obtain ⟨colls, objs, -⟩ := same
  simpa only [Nested, Homed, colls, objs] using h

theorem nested_of_reachable (h : Reachable m) : Nested m := by
  induction h with
  | empty clock takes =>
    intro plain
    exact ⟨fun c hc => absurd hc (by simp), fun x hx => absurd hx (by simp)⟩
  | collection coll _ ih => exact nested_withCollection coll ih
  | replica r _ ih => exact nested_withReplica r ih
  | failing step status _ ih => exact ih
  | repaired _ ih => exact ih
  | call c _ ih => exact (change_of_serve c _).nested ih
  | query r _ ih => exact ih.samePaths (samePaths_serveQuery r _)

/-! Orderly catalogs in which all paths in use are homed. -/

structure Tidy (m : Memory) : Prop extends Orderly m where
  nested : Nested m

theorem Reachable.tidy (h : Reachable m) (orderly : Orderly m) : Tidy m :=
  ⟨orderly, nested_of_reachable h⟩

namespace Tidy
variable {base rest : List (List Char)} {s : List Char}

theorem collection_homed (h : Tidy m) {c : String} (hc : c ∈ m.collections) : m.Homed c :=
  (h.nested h.collections).1 c hc

theorem object_homed (h : Tidy m) {x : String} (hx : x ∈ m.objects) : m.Homed x :=
  (h.nested h.collections).2 x hx (h.objects x hx)

theorem mem_of_homed (some : base ≠ []) (proper : Proper (base ++ [s]))
    (h : m.Homed (place (base ++ [s]))) : place base ∈ m.collections := by
  rw [Homed, Path.parent_place proper, if_neg some] at h
  exact h.resolve_left (Path.place_ne_root proper.left)

/-- What lies above a collection is a collection. -/
theorem collection_above (h : Tidy m) (some : base ≠ []) (proper : Proper (base ++ rest))
    (hc : place (base ++ rest) ∈ m.collections) : place base ∈ m.collections := by
  induction rest generalizing base with
  | nil => simpa using hc
  | cons s rest ih =>
    have regroup : base ++ s :: rest = base ++ [s] ++ rest := by simp
    rw [regroup] at hc proper
    exact mem_of_homed some proper.left (h.collection_homed (ih (by simp) proper hc))

/-- What lies above an object is a collection. -/
theorem collection_over_object (h : Tidy m) (some : base ≠ []) (below : rest ≠ [])
    (proper : Proper (base ++ rest)) (hx : place (base ++ rest) ∈ m.objects) :
    place base ∈ m.collections := by
  obtain ⟨between, s, rfl⟩ := (List.eq_nil_or_concat rest).resolve_left below
  rw [List.concat_eq_append, ← List.append_assoc] at hx proper
  have parent : place (base ++ between) ∈ m.collections :=
    mem_of_homed (by simp [some]) proper (h.object_homed hx)
  exact h.collection_above some proper.left parent

end Tidy

def Sample.replica (path : String) : Replica :=
  { path, file := path, resource := ⟨"r", "/v", ⟨"h", "z", .here⟩, "z"⟩ }

end DataGrid.Catalog.Memory
