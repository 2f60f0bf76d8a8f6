import DataGrid.Proofs.Catalog.Numbering
import DataGrid.Proofs.Merge.Course

/-! What one merge does to a catalog, by its result. A moved object is found under the master
path with everything it had; a linked one has become one more replica of the master object; a
flagged one has one more attribute. A missing checksum changes nothing, and a failure keeps the
steps before it: collections above the master path if creating or renaming failed, the new
replica if unlinking failed, and nothing otherwise. -/
namespace DataGrid.Merge
open Catalog (Memory)
open Catalog.Memory

/-- The objects at all other paths are the same. -/
def SameElsewhere (paths : List String) (m m' : Memory) : Prop :=
  ∀ x, x ∉ paths → m'.objects[x]? = m.objects[x]?

structure Moved (obj master : String) (m m' : Memory) : Prop where
  vacant : m.objects[master]? = none
  record : ∃ o, m.objects[obj]? = some o ∧ m'.objects[master]? = some (o.renamed master)
  gone : m'.objects[obj]? = none
  elsewhere : SameElsewhere [obj, master] m m'
  kept : ∀ c ∈ m.collections, c ∈ m'.collections
  fresh : ∀ c ∈ m'.collections, c ∈ m.collections ∨ Path.Above c master
  undisturbed : m.Undisturbed m'

/-- The object at `master` has one replica more: the primary one of the object at `obj`, with a
path, a file, a number and a time of its own. Both checksums are known and equal. The number is the
next after those of the other replicas. -/
def Gained (obj master physical : String) (m m' : Memory) : Prop :=
  ∃ o kept copy primary sum number,
    m.objects[obj]? = some o ∧ o.primary? = some copy ∧ copy.checksum = some sum ∧
    m.objects[master]? = some kept ∧ kept.primary? = some primary ∧
    primary.checksum = some sum ∧ sum ≠ "" ∧
    physicalPath copy.resource master = .ok physical ∧
    Numbered kept.replicas number ∧
    m'.objects[master]? = some { kept with
      replicas := kept.replicas ++
        [{ copy with path := master, file := physical, number, modified := m.clock m.changes }] }

structure Linked (obj master physical : String) (m m' : Memory) : Prop where
  gained : Gained obj master physical m m'
  gone : m'.objects[obj]? = none
  elsewhere : SameElsewhere [obj, master] m m'
  collections : m'.collections = m.collections
  undisturbed : m.Undisturbed m'

/-- A link whose copy could not be unlinked. -/
structure HalfLinked (obj master : String) (m m' : Memory) : Prop where
  gained : ∃ physical, Gained obj master physical m m'
  elsewhere : SameElsewhere [master] m m'
  collections : m'.collections = m.collections
  undisturbed : m.Undisturbed m'

structure Flagged (mark sum obj master : String) (m m' : Memory) : Prop where
  differ : ∃ o kept, m.objects[obj]? = some o ∧ m.objects[master]? = some kept ∧
    kept.checksum? = some sum ∧ (∃ own, o.checksum? = some own ∧ own ≠ sum) ∧
    m'.objects[obj]? = some { o with attributes := o.attributes ++ [(mark, sum)] }
  elsewhere : SameElsewhere [obj] m m'
  collections : m'.collections = m.collections
  undisturbed : m.Undisturbed m'

/-- Nothing has changed, because a checksum is missing. -/
structure Unavailable (currentMissing masterMissing : Bool) (obj master : String)
    (m m' : Memory) : Prop where
  missing : ∃ o kept, m.objects[obj]? = some o ∧ m.objects[master]? = some kept ∧
    currentMissing = o.checksum?.isNone ∧ masterMissing = kept.checksum?.isNone
  some_missing : (currentMissing || masterMissing) = true
  unchanged : m' = m

/-- What a failure at a step leaves of the steps before it. -/
def Aborted (obj master : String) (m m' : Memory) : Option Step → Prop
  | some .collCreate | some .rename => m.Opened (Path.Above · master) m'
  | some .unlink => HalfLinked obj master m m'
  | _ => m' = m

/-- What a merge of `obj` with `master` has done to the catalog when it ends with the result. -/
def Effect (rules : Rules) (obj master : String) (m m' : Memory) : Except Error Outcome → Prop
  | .ok (.moved path) => path = master ∧ Moved obj master m m'
  | .ok (.linked path physical) => path = master ∧ Linked obj master physical m m'
  | .ok (.flagged sum) => Flagged rules.mismatchAttribute sum obj master m m'
  | .ok (.checksumUnavailable current kept) => Unavailable current kept obj master m m'
  | .error e => Aborted obj master m m' e.step?

variable {τ : Type} {m m' : Memory} {rules : Rules} {obj master physical : String}

theorem aborted_of_unchanged {step : Option Step} (reversible : step ≠ some .unlink) :
    Aborted obj master m m step := by
  unfold Aborted
  split
  · exact .refl _ m
  · exact .refl _ m
  · contradiction
  · rfl

/-- Attaching the copy is the gain, whatever happens to the copy's own path afterwards. -/
theorem gained_of_match {kept : DataObject} {copy : Replica} {sum : String}
    (found : Match obj master m kept copy physical) (known : kept.checksum? = some sum)
    (same : copy.checksum = some sum)
    (after : m'.objects[master]? = some (withCopy m kept copy master physical)) :
    Gained obj master physical m m' := by
  obtain ⟨⟨o, candidate, best⟩, present, named, place⟩ := found
  obtain ⟨primary, hprimary⟩ := Option.isSome_iff_exists.mp named
  obtain ⟨agreed, filled⟩ := checksum?_eq_some hprimary known
  exact ⟨o, kept, copy, primary, sum, _, candidate, best, same, present, hprimary, agreed, filled,
    place, numbered_next kept.replicas, after⟩

theorem sameElsewhere_of_course {r : Except Error Outcome}
    (course : Course rules obj master m m' r) : SameElsewhere [obj, master] m m' := by
  intro x hx
  simp only [List.mem_cons, List.not_mem_nil, or_false, not_or] at hx
  exact course.elsewhere (Ne.symm hx.1) (Ne.symm hx.2)

theorem effect_of_course {r : Except Error Outcome} (apart : master ≠ obj)
    (course : Course rules obj master m m' r) : Effect rules obj master m m' r := by
  have elsewhere := sameElsewhere_of_course course
  have undisturbed := course.undisturbed
  cases course with
  | stopped step => exact aborted_of_unchanged step
  | roomMade vacant room step =>
    change Aborted obj master m m' _
    rcases step with step | step
    · rw [step]
      exact room
    · rw [step]
      exact room
  | @moved mid o vacant room candidate =>
    have record : (mid.rehome obj master o).objects[master]? = some (o.renamed master) := by simp
    have gone : (mid.rehome obj master o).objects[obj]? = none := by simp [apart]
    exact ⟨rfl, vacant, ⟨o, candidate, record⟩, gone, elsewhere, room.kept, room.fresh,
      undisturbed⟩
  | @unavailable o kept candidate present missing =>
    refine ⟨⟨o, kept, candidate, present, rfl, rfl⟩, ?_, rfl⟩
    rcases missing with missing | missing <;> simp [missing]
  | @flagged o kept own sum candidate present known other differ =>
    refine ⟨⟨o, kept, candidate, present, other, ⟨own, known, differ⟩, by simp⟩, ?_, rfl,
      undisturbed⟩
    intro x hx
    have away : obj ≠ x := by
      rintro rfl
      simp at hx
    simp [away]
  | attached found known same step =>
    change Aborted obj master m _ _
    rw [step]
    refine ⟨⟨_, gained_of_match found known same (by simp)⟩, ?_, rfl, undisturbed⟩
    intro x hx
    have away : master ≠ x := by
      rintro rfl
      simp at hx
    simp [away]
  | linked found known same =>
    exact ⟨rfl, gained_of_match found known same (by simp [apart.symm]), by simp, elsewhere, rfl,
      undisturbed⟩

/-- Whatever the hosts answer and whichever steps fail, a merge has done to the catalog what its
result says. -/
theorem object_effect {hosts : Hosts τ} {t t' : τ} {current coll : String}
    {r : Except Error Outcome}
    (hrun : (object rules obj current coll).run.run (world hosts) (m, t) = (r, m', t'))
    (hpath : destination obj current coll = .ok master) (apart : master ≠ obj) :
    Effect rules obj master m m' r :=
  effect_of_course apart (object_course hpath hrun)

theorem second_copy_linked : ∃ m',
    (object .usual "/z/h/x" "/z/h" "/z/a/").run.run (world Sample.willing)
      (Sample.catalog ["/z/h/x", "/z/a/x"], ()) = (.ok (.linked "/z/a/x" "/v/a/x"), m', ()) ∧
    destination "/z/h/x" "/z/h" "/z/a/" = .ok "/z/a/x" ∧ "/z/a/x" ≠ "/z/h/x" ∧
    Linked "/z/h/x" "/z/a/x" "/v/a/x" (Sample.catalog ["/z/h/x", "/z/a/x"]) m' := by
  have path : destination "/z/h/x" "/z/h" "/z/a/" = .ok "/z/a/x" := rfl
  have apart : "/z/a/x" ≠ "/z/h/x" := by decide
  have run : (object .usual "/z/h/x" "/z/h" "/z/a/").run.run (world Sample.willing)
      (Sample.catalog ["/z/h/x", "/z/a/x"], ()) = (.ok (.linked "/z/a/x" "/v/a/x"), _, ()) := rfl
  have effect := object_effect run path apart
  exact ⟨_, run, path, apart, effect.2⟩

/-- A master object whose replicas have the last number and the first. -/
def Sample.outnumbered : Memory :=
  [Int32.maxValue, Int32.minValue].foldl
    (fun m number => (m.withReplica { Sample.replica "/z/a/x" with number }).2)
    (Sample.catalog ["/z/h/x"])

/-- The replica that it gains has a number that is in use. -/
theorem number_in_use_linked : ∃ m',
    (object .usual "/z/h/x" "/z/h" "/z/a/").run.run (world Sample.willing)
      (Sample.outnumbered, ()) = (.ok (.linked "/z/a/x" "/v/a/x"), m', ()) ∧
    destination "/z/h/x" "/z/h" "/z/a/" = .ok "/z/a/x" ∧ "/z/a/x" ≠ "/z/h/x" ∧
    (Sample.outnumbered.replicasAt "/z/a/x").map Replica.number = [.maxValue, .minValue] ∧
    (m'.replicasAt "/z/a/x").map Replica.number = [.maxValue, .minValue, .minValue] :=
  ⟨_, rfl, rfl, by decide, rfl, rfl⟩

end DataGrid.Merge
