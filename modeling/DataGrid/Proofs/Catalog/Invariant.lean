import DataGrid.Proofs.Catalog.Numbering
import DataGrid.Proofs.Catalog.Reachable

/-! What is so of every catalog that can arise, whatever its paths look like. Every object knows
where it is and has a number of its own. With a collection there is every place above it and with
an object the collection that it is in, because seeding adds whole chains and everything else asks
for the parent first. The root is the one exception: it is taken to be there and need not be. -/
namespace DataGrid.Catalog.Memory
open DataGrid.Path (Above)

variable {m m' : Memory}

/-! Objects. -/

/-- Objects have replicas, all under their own path, and numbers that differ. -/
structure Filed (m : Memory) : Prop where
  copies : ∀ (x : String) (o : DataObject), m.objects[x]? = some o →
    o.replicas ≠ [] ∧ ∀ r ∈ o.replicas, r.path = x
  bounded : ∀ (x : String) (o : DataObject), m.objects[x]? = some o → o.id ≤ idBase + m.added
  distinct : ∀ (x y : String) (o p : DataObject), m.objects[x]? = some o →
    m.objects[y]? = some p → o.id = p.id → x = y

/-- No object is new, and each has at most grown. -/
theorem Filed.grown (h : Filed m) (added : m'.added = m.added)
    (origin : ∀ (x : String) (grown : DataObject), m'.objects[x]? = some grown →
      ∃ o, m.objects[x]? = some o ∧ o.Grown x grown) : Filed m' := by
  refine ⟨fun x grown hx => ?_, fun x grown hx => ?_, fun x y o' p' hx hy same => ?_⟩
  · obtain ⟨o, ho, grows⟩ := origin x grown hx
    obtain ⟨some, own⟩ := h.copies x o ho
    obtain ⟨more, split, new⟩ := grows.replicas
    rw [split]
    refine ⟨by simp [some], fun r hr => ?_⟩
    exact (List.mem_append.mp hr).elim (own r) (new r)
  · obtain ⟨o, ho, grows⟩ := origin x grown hx
    rw [grows.id, added]
    exact h.bounded x o ho
  · obtain ⟨o, ho, growsO⟩ := origin x o' hx
    obtain ⟨p, hp, growsP⟩ := origin y p' hy
    rw [growsO.id, growsP.id] at same
    exact h.distinct x y o p ho hp same

/-- One object is new, with the next number. -/
theorem Filed.insert (h : Filed m) (r : Replica) (added : m'.added = m.added + 1)
    (after : ∀ x : String, m'.objects[x]? =
      if r.path = x then some ⟨idBase + m'.added, [r], []⟩ else m.objects[x]?) : Filed m' := by
  have old {x : String} {o : DataObject} (ho : m.objects[x]? = some o) :
      o.id < idBase + m'.added := by
    have := h.bounded x o ho
    omega
  refine ⟨fun x o hx => ?_, fun x o hx => ?_, fun x y o p hx hy same => ?_⟩
  · rw [after] at hx
    split at hx
    · next here =>
      cases hx
      simp [here]
    · exact h.copies x o hx
  · rw [after] at hx
    split at hx
    · cases hx
      exact Int.le_refl _
    · exact Int.le_of_lt (old hx)
  · rw [after] at hx hy
    split at hx <;> split at hy
    · next hx' hy' => exact hx'.symm.trans hy'
    · cases hx
      exact absurd same (Int.ne_of_gt (old hy))
    · cases hy
      exact absurd same (Int.ne_of_lt (old hx))
    · exact h.distinct x y o p hx hy same

theorem Filed.rehome (h : Filed m) {source dest : String} {o : DataObject}
    (candidate : m.objects[source]? = some o) : Filed (m.rehome source dest o) := by
  -- Whatever is there afterwards was there before, with the same number and elsewhere at most.
  have origin (x : String) (p' : DataObject) (hx : (m.rehome source dest o).objects[x]? = some p') :
      (dest = x ∧ p' = o.renamed dest) ∨ (dest ≠ x ∧ source ≠ x ∧ m.objects[x]? = some p') := by
    rw [getElem?_rehome] at hx
    split at hx
    · next here => exact .inl ⟨here, (Option.some.inj hx).symm⟩
    · next other =>
      split at hx
      · contradiction
      · next elsewhere => exact .inr ⟨other, elsewhere, hx⟩
  refine ⟨fun x p hx => ?_, fun x p hx => ?_, fun x y p q hx hy same => ?_⟩
  · rcases origin x p hx with ⟨rfl, rfl⟩ | ⟨-, -, hp⟩
    · refine ⟨by simpa [DataObject.renamed] using (h.copies source o candidate).1, fun r hr => ?_⟩
      obtain ⟨before, -, rfl⟩ := List.mem_map.mp hr
      rfl
    · exact h.copies x p hp
  · rcases origin x p hx with ⟨rfl, rfl⟩ | ⟨-, -, hp⟩
    · exact h.bounded source o candidate
    · exact h.bounded x p hp
  · rcases origin x p hx with ⟨rfl, rfl⟩ | ⟨-, fromX, hp⟩ <;>
      rcases origin y q hy with ⟨rfl, rfl⟩ | ⟨-, fromY, hq⟩
    · rfl
    · exact absurd (h.distinct source y o q candidate hq same) fromY
    · exact absurd (h.distinct source x o p candidate hp same.symm) fromX
    · exact h.distinct x y p q hp hq same

theorem Change.filed (change : Change m m') (h : Filed m) : Filed m' := by
  cases change with
  | none => exact h
  | rehome candidate vacant free homed => exact h.rehome candidate
  | opened free vacant homed => exact ⟨h.copies, h.bounded, h.distinct⟩
  | @put path o grown present grows =>
    refine h.grown rfl fun x p hx => ?_
    rw [getElem?_put] at hx
    split at hx
    · next here =>
      cases hx
      exact ⟨o, here ▸ present, here ▸ grows⟩
    · exact ⟨p, hx, .refl x p⟩
  | drop =>
    refine h.grown rfl fun x p hx => ?_
    rw [getElem?_drop] at hx
    split at hx
    · contradiction
    · exact ⟨p, hx, .refl x p⟩

theorem Filed.withCollection (h : Filed m) (coll : String) : Filed (m.withCollection coll) :=
  h.grown rfl fun x o hx => ⟨o, hx, .refl x o⟩

theorem Filed.withReplica (h : Filed m) (r : Replica) : Filed (m.withReplica r).2 := by
  have objects : (m.withCollection (Path.parent r.path)).objects = m.objects := rfl
  simp only [Memory.withReplica, objects]
  split
  · next o present =>
    refine h.grown rfl fun x grown hx => ?_
    rw [Std.TreeMap.getElem?_insert] at hx
    split at hx
    · next here =>
      obtain rfl := Std.compare_eq_iff_eq.mp here
      cases hx
      exact ⟨o, present, rfl, [r], by simp⟩
    · exact ⟨grown, hx, .refl x grown⟩
  · refine h.insert r rfl fun x => ?_
    simp [Std.TreeMap.getElem?_insert]

/-! Collections. -/

/-- With a collection there is every place above it but the root. -/
structure Layered (m : Memory) : Prop where
  named : "" ∉ m.collections
  above : ∀ c ∈ m.collections, ∀ place, Above place c → place ≠ "" → place ≠ "/" →
    place ∈ m.collections

/-- The object is in a collection, or lies directly below the root. -/
def Housed (m : Memory) (path : String) : Prop :=
  Path.trim (Path.parent path) = "" ∨ Path.trim (Path.parent path) ∈ m.collections

theorem mem_chain_of_above {coll c place : String} (h : c ∈ chain coll) (above : Above place c)
    (some : place ≠ "") : place ∈ chain coll := by
  obtain ⟨rung, hrung, rfl⟩ := List.mem_map.mp h
  obtain ⟨more, split, -⟩ := Path.eq_append_of_mem_rungs hrung
  obtain ⟨rest, hrest⟩ := above
  rw [String.toList_ofList] at hrest
  rw [List.nil_append, hrest, List.append_assoc] at split
  have filled : place.toList ≠ [] := by simpa using some
  have found : [] ++ place.toList ∈ Path.rungs [] (Path.trimChars coll.toList) :=
    Path.mem_rungs _ filled split (by simp)
  exact List.mem_map.mpr ⟨_, found, by simp⟩

theorem trim_mem_chain {coll : String} (some : Path.trim coll ≠ "") :
    Path.trim coll ∈ chain coll := by
  have filled : Path.trimChars coll.toList ≠ [] := fun none => some (by rw [Path.trim, none])
  have found : [] ++ Path.trimChars coll.toList ∈ Path.rungs [] (Path.trimChars coll.toList) :=
    Path.mem_rungs [] filled (by simp) (by simp)
  exact List.mem_map.mpr ⟨_, found, rfl⟩

theorem Layered.withCollection (h : Layered m) (coll : String) :
    Layered (m.withCollection coll) := by
  refine ⟨fun none => ?_, fun c hc place above some other => mem_withCollection.mpr ?_⟩
  · rcases mem_withCollection.mp none with none | none
    · exact h.named none
    · obtain ⟨rung, hrung, empty⟩ := List.mem_map.mp none
      exact Path.ne_nil_of_mem_rungs hrung (String.ofList_inj.mp empty)
  · rcases mem_withCollection.mp hc with hc | hc
    · exact .inl (h.above c hc place above some other)
    · exact .inr (mem_chain_of_above hc above some)

theorem Layered.opened (h : Layered m) {coll : String}
    (homed : Path.parent coll = "/" ∨ Path.parent coll ∈ m.collections) :
    Layered (m.opened coll) := by
  -- A path without a slash has no parent, so it cannot be opened.
  have filled : Path.parent coll ≠ "" := by
    intro none
    rw [none] at homed
    exact h.named (homed.resolve_left (by decide))
  obtain ⟨leaf, split⟩ := Path.exists_leaf_of_parent filled
  refine ⟨fun none => ?_, fun c hc place above some other => (mem_opened m coll place).mpr ?_⟩
  · rcases (mem_opened m coll "").mp none with rfl | none
    · contradiction
    · exact h.named none
  · right
    rcases (mem_opened m coll c).mp hc with rfl | hc
    · rcases above.of_split? split with empty | rfl | higher
      · exact absurd empty some
      · exact homed.resolve_left other
      · rcases homed with root | homed
        · exact absurd (root ▸ higher).eq_empty_of_root some
        · exact h.above _ homed place higher some other
    · exact h.above c hc place above some other

theorem Layered.trim_mem (h : Layered m) {c : String} (hc : c ∈ m.collections) :
    Path.trim c = "" ∨ Path.trim c ∈ m.collections := by
  by_cases empty : Path.trim c = ""
  · exact .inl empty
  · right
    rcases Path.trim_eq_or_above c with same | above
    · rwa [same]
    · exact h.above c hc _ above empty (Path.trim_ne_root c)

theorem Housed.mono {path : String} (h : m.Housed path)
    (kept : ∀ c ∈ m.collections, c ∈ m'.collections) : m'.Housed path :=
  h.imp_right (kept _)

theorem Change.layered (change : Change m m') (h : Layered m) : Layered m' := by
  cases change with
  | opened free vacant homed => exact h.opened homed
  | _ => exact ⟨h.named, h.above⟩

theorem Change.housed (change : Change m m') (h : Layered m)
    (housed : ∀ x ∈ m.objects, m.Housed x) : ∀ x ∈ m'.objects, m'.Housed x := by
  intro x hx
  refine Housed.mono ?_ change.kept
  cases change with
  | none => exact housed x hx
  | opened free vacant homed => exact housed x hx
  | drop => exact housed x (mem_drop.mp hx).2
  | put present grows =>
    rcases mem_put.mp hx with rfl | hx
    · exact housed _ ((mem_objects_iff m _).mpr ⟨_, present⟩)
    · exact housed x hx
  | rehome candidate vacant free homed =>
    rcases mem_rehome.mp hx with rfl | ⟨-, hx⟩
    · exact h.trim_mem homed
    · exact housed x hx

/-! All of it. -/

/-- The invariant of the catalogs that can arise. -/
structure Sound (m : Memory) : Prop extends Filed m, Layered m where
  housed : ∀ x ∈ m.objects, m.Housed x

theorem sound_withReplica (h : Sound m) (r : Replica) : Sound (m.withReplica r).2 := by
  have same := collections_withReplica m r
  have layered := h.toLayered.withCollection (Path.parent r.path)
  refine { h.toFiled.withReplica r with named := ?_, above := ?_, housed := fun x hx => ?_ }
  · rw [same]
    exact layered.named
  · rw [same]
    exact layered.above
  · rw [Housed, same, mem_withCollection]
    rcases mem_withReplica hx with rfl | hx
    · by_cases top : Path.trim (Path.parent r.path) = ""
      · exact .inl top
      · exact .inr (.inr (trim_mem_chain top))
    · exact (h.housed x hx).imp_right .inl

theorem Sound.samePaths (h : Sound m) (same : SamePaths m m') : Sound m' := by
  obtain ⟨colls, objs, added⟩ := same
  refine
    { copies := ?_, bounded := ?_, distinct := ?_, named := ?_, above := ?_, housed := ?_ }
  · simpa only [objs] using h.copies
  · simpa only [objs, added] using h.bounded
  · simpa only [objs] using h.distinct
  · simpa only [colls] using h.named
  · simpa only [colls] using h.above
  · simpa only [objs, Housed, colls] using h.housed

theorem sound_empty (clock : Nat → Int64) (takes : Predicate.Engine) :
    Sound { clock, takes } where
  copies x o hx := by simp at hx
  bounded x o hx := by simp at hx
  distinct x y o p hx := by simp at hx
  named := by simp
  above c hc := by simp at hc
  housed x hx := by simp at hx

theorem sound_of_reachable (h : Reachable m) : Sound m := by
  induction h with
  | empty clock takes => exact sound_empty clock takes
  | @collection m coll _ ih =>
    exact { ih.toFiled.withCollection coll, ih.toLayered.withCollection coll with
      housed := fun x hx => (ih.housed x hx).mono fun c hc => mem_withCollection.mpr (.inl hc) }
  | replica r _ ih => exact sound_withReplica ih r
  | failing step status _ ih => exact ih.samePaths ⟨rfl, rfl, rfl⟩
  | repaired _ ih => exact ih.samePaths ⟨rfl, rfl, rfl⟩
  | @call m c _ ih =>
    have change := change_of_serve c m
    exact { change.filed ih.toFiled, change.layered ih.toLayered with
      housed := change.housed ih.toLayered ih.housed }
  | query r _ ih => exact ih.samePaths (samePaths_serveQuery r _)

/-- A replica that is attached gets a number above all that the object had, as long as there is
one. -/
theorem number_of_attach {source dest : Replica}
    (h : serve (.attach source dest) m = (.ok (), m')) :
    ∃ o added, m.objects[dest.path]? = some o ∧
      m'.objects[dest.path]? = some { o with replicas := o.replicas ++ [added] } ∧
      ((∀ r ∈ o.replicas, r.number ≠ .maxValue) →
        ∀ r ∈ o.replicas, r.number < added.number) := by
  obtain ⟨-, -, o, present, -, rfl⟩ :=
    attach_eq_ok_iff.mp (answer_attach_iff.mp (serve_eq_ok_iff.mp h))
  exact ⟨o, { dest with number := nextNumber o.replicas, modified := m.clock m.changes }, present,
    by simp, lt_nextNumber⟩

/-- Every catalog that can arise is sound, numbers of replicas grow as long as there are any left,
and no call makes a path both an object and a collection. -/
theorem catalog_invariant :
    (∀ m, Reachable m → Sound m) ∧
      (∀ m source dest m', serve (.attach source dest) m = (.ok (), m') →
        ∃ o added, m.objects[dest.path]? = some o ∧
          m'.objects[dest.path]? = some { o with replicas := o.replicas ++ [added] } ∧
          ((∀ r ∈ o.replicas, r.number ≠ .maxValue) →
            ∀ r ∈ o.replicas, r.number < added.number)) ∧
      ∀ m : Memory, (∀ x ∈ m.objects, x ∉ m.collections) →
        ∀ c, ∀ x ∈ (serve c m).2.objects, x ∉ (serve c m).2.collections :=
  ⟨fun _ => sound_of_reachable, fun _ _ _ _ => number_of_attach,
    fun m apart c => (change_of_serve c m).separate apart⟩

/-- An object has been moved into a collection whose name ends with a slash. -/
def Sample.doubled : Memory :=
  (serve (.move "/z/a" "/z//b")
    ((({} : Memory).withCollection "/z//y").withReplica (replica "/z/a")).2).2

theorem sound_with_doubled_slash :
    Reachable Sample.doubled ∧ "/z//b" ∈ Sample.doubled.objects ∧
      "/z/" ∈ Sample.doubled.collections ∧ Sound Sample.doubled ∧
      (∀ x ∈ Sample.doubled.objects, x ∉ Sample.doubled.collections) ∧
      ∀ x ∈ (serve (.makeCollection "/z//b") Sample.doubled).2.objects,
        x ∉ (serve (.makeCollection "/z//b") Sample.doubled).2.collections := by
  have reachable : Reachable Sample.doubled := .call _ (.replica _ (.collection _ (.empty _ _)))
  have apart : ∀ x ∈ Sample.doubled.objects, x ∉ Sample.doubled.collections := by
    simp only [← Std.TreeMap.mem_keys]
    decide +kernel
  obtain ⟨sound, -, separate⟩ := catalog_invariant
  exact ⟨reachable, by decide +kernel, by decide +kernel, sound _ reachable, apart,
    separate _ apart _⟩

/-- A replica with the last number there is, and another to be attached beside it. -/
def Sample.last : Memory :=
  (({} : Memory).withReplica { replica "/z/a" with number := .maxValue }).2

def Sample.other : Replica := { replica "/z/a" with file := "/b" }

/-- The root is above a collection and is none itself, and the first number comes after the
last. -/
theorem root_missing_and_numbers_wrap :
    (Reachable (serve (.makeCollection "//a") {}).2 ∧
      "//a" ∈ (serve (.makeCollection "//a") {}).2.collections ∧
      Above "/" "//a" ∧ "/" ≠ "" ∧ "/" ∉ (serve (.makeCollection "//a") {}).2.collections) ∧
    Reachable Sample.last ∧
      (serve (.attach Sample.other Sample.other) Sample.last).1 = .ok () ∧
      ((serve (.attach Sample.other Sample.other) Sample.last).2.replicasAt "/z/a").map
        Replica.number = [.maxValue, .minValue] := by
  constructor
  · exact ⟨.call _ (.empty _ _), rfl, ⟨['a'], rfl⟩, by decide, Bool.false_ne_true⟩
  · exact ⟨.replica _ (.empty _ _), rfl, rfl⟩

end DataGrid.Catalog.Memory
