import DataGrid.Proofs.Merge.Course
import DataGrid.Proofs.Merge.Destination

/-! When a merge keeps the data object. A copy that is renamed, flagged or left alone stays where
the result says, and a copy that is unlinked has become a replica of the master object, provided
that this is another object. Two spellings of one collection make the copy its own master; then
the unlinked object is the one that has just got the replica, and nothing is left. -/
namespace DataGrid.Merge
open Catalog (Memory)
open Catalog.Memory

/-- One of the two paths names an object, and a reported replica is there. -/
structure Survives (obj path : String) (m' : Memory) (r : Except Error Outcome) : Prop where
  present : obj ∈ m'.objects ∨ path ∈ m'.objects
  reported : ∀ replicaPath physical, r = .ok (.linked replicaPath physical) →
    ∃ o, m'.objects[replicaPath]? = some o ∧ ∃ copy ∈ o.replicas, copy.file = physical

variable {τ : Type} {hosts : Hosts τ} {t t' : τ} {m m' : Memory} {rules : Rules}
  {obj current coll path : String} {r : Except Error Outcome}

theorem survives_of_kept {kept : String} (there : kept = obj ∨ kept = path)
    (present : kept ∈ m'.objects) (unlinked : ∀ rp pp, r ≠ .ok (.linked rp pp)) :
    Survives obj path m' r := by
  refine ⟨?_, fun rp pp linked => absurd linked (unlinked rp pp)⟩
  rcases there with rfl | rfl
  · exact .inl present
  · exact .inr present

theorem survives_of_course (existed : obj ∈ m.objects) (course : Course rules obj path m m' r)
    (safe : path = obj → ∀ rp pp, r ≠ .ok (.linked rp pp)) : Survives obj path m' r := by
  cases course with
  | stopped step => exact survives_of_kept (.inl rfl) existed (by simp)
  | roomMade vacant room step =>
    rw [← room.objects] at existed
    exact survives_of_kept (.inl rfl) existed (by simp)
  | moved vacant room candidate =>
    exact survives_of_kept (.inr rfl) (by simp [mem_objects_iff]) (by simp)
  | unavailable candidate present missing => exact survives_of_kept (.inl rfl) existed (by simp)
  | flagged candidate present known other differ =>
    exact survives_of_kept (.inl rfl) (by simp [mem_objects_iff]) (by simp)
  | attached found known same step =>
    exact survives_of_kept (.inr rfl) (by simp [mem_objects_iff]) (by simp)
  | @linked kept copy physical sum found known same =>
    have apart : obj ≠ path := fun one => safe one.symm path physical rfl
    have after : ((m.put path (withCopy m kept copy path physical)).drop obj).objects[path]?
        = some (withCopy m kept copy path physical) := by
      simp [apart]
    refine ⟨.inr ((mem_objects_iff _ path).mpr ⟨_, after⟩), ?_⟩
    intro rp pp linked
    cases linked
    refine ⟨_, after, { copy with
      path, file := physical, number := nextNumber kept.replicas, modified := m.clock m.changes },
      ?_, rfl⟩
    simp [withCopy]

/-- Linking an object onto itself removes it. -/
theorem not_survives_of_course (course : Course rules obj obj m m' r) {rp pp : String}
    (linked : r = .ok (.linked rp pp)) : ¬ Survives obj obj m' r := by
  rintro ⟨present, -⟩
  cases course with
  | linked found known same =>
    simp only [or_self] at present
    obtain ⟨o, ho⟩ := (mem_objects_iff _ obj).mp present
    simp at ho
  | _ => cases linked

/-- A merge of an object keeps it unless it links it and both names are of one collection. -/
theorem survives_iff
    (hrun : (object rules obj current coll).run.run (world hosts) (m, t) = (r, m', t'))
    (hpath : destination obj current coll = .ok path) (existed : obj ∈ m.objects) :
    Survives obj path m' r ↔
      ¬ (Path.trim current = Path.trim coll ∧ ∃ rp pp, r = .ok (.linked rp pp)) := by
  have course : Course rules obj path m m' r := object_course hpath hrun
  constructor
  · rintro survives ⟨same, rp, pp, linked⟩
    obtain rfl := (destination_eq_self_iff hpath).mpr same
    exact not_survives_of_course course linked survives
  · intro safe
    apply survives_of_course existed course
    intro one rp pp linked
    exact safe ⟨(destination_eq_self_iff hpath).mp one, rp, pp, linked⟩

theorem nested_copy_survives : ∃ m',
    (object .usual "/z/h/x" "/z/h" "/z/h/a").run.run (world Sample.willing)
      (Sample.catalog ["/z/h/x", "/z/h/a/x"], ()) =
        (.ok (.linked "/z/h/a/x" "/v/h/a/x"), m', ()) ∧
    destination "/z/h/x" "/z/h" "/z/h/a" = .ok "/z/h/a/x" ∧
    "/z/h/x" ∈ (Sample.catalog ["/z/h/x", "/z/h/a/x"]).objects ∧
    Survives "/z/h/x" "/z/h/a/x" m' (.ok (.linked "/z/h/a/x" "/v/h/a/x")) := by
  have path : destination "/z/h/x" "/z/h" "/z/h/a" = .ok "/z/h/a/x" := rfl
  have existed : "/z/h/x" ∈ (Sample.catalog ["/z/h/x", "/z/h/a/x"]).objects := rfl
  have run : (object .usual "/z/h/x" "/z/h" "/z/h/a").run.run (world Sample.willing)
      (Sample.catalog ["/z/h/x", "/z/h/a/x"], ()) =
        (.ok (.linked "/z/h/a/x" "/v/h/a/x"), _, ()) := rfl
  refine ⟨_, run, path, existed, (survives_iff run path existed).mpr ?_⟩
  rintro ⟨same, -⟩
  exact absurd same (by decide)

/-- An object that is merged into its own collection is gone. -/
theorem same_collection_loses_object : ∃ m',
    (object .usual "/z/h/x" "/z/h" "/z/h/").run.run (world Sample.willing)
      (Sample.catalog ["/z/h/x"], ()) = (.ok (.linked "/z/h/x" "/v/h/x"), m', ()) ∧
    destination "/z/h/x" "/z/h" "/z/h/" = .ok "/z/h/x" ∧
    "/z/h/x" ∈ (Sample.catalog ["/z/h/x"]).objects ∧ m'.objects["/z/h/x"]? = none ∧
    ¬ Survives "/z/h/x" "/z/h/x" m' (.ok (.linked "/z/h/x" "/v/h/x")) := by
  have path : destination "/z/h/x" "/z/h" "/z/h/" = .ok "/z/h/x" := rfl
  have run : (object .usual "/z/h/x" "/z/h" "/z/h/").run.run (world Sample.willing)
      (Sample.catalog ["/z/h/x"], ()) = (.ok (.linked "/z/h/x" "/v/h/x"), _, ()) := rfl
  exact ⟨_, run, path, rfl, rfl, not_survives_of_course (object_course path run) rfl⟩

end DataGrid.Merge
