import DataGrid.Proofs.Merge.Phases
import DataGrid.Proofs.Merge.World

/-! The courses that a merge can take on a catalog in memory. Each names the result and the
catalog that is left, from what was found at the two paths. -/
namespace DataGrid.Merge
open Catalog (Memory)
open Catalog.Memory

/-- The master object with the replica that it gains. -/
def withCopy (m : Memory) (kept : DataObject) (copy : Replica) (master physical : String) :
    DataObject :=
  let number := nextNumber kept.replicas
  { kept with replicas := kept.replicas ++
      [{ copy with path := master, file := physical, number, modified := m.clock m.changes }] }

/-- What a link has found when it attaches `copy` to the master object. -/
structure Match (obj master : String) (m : Memory) (kept : DataObject) (copy : Replica)
    (physical : String) : Prop where
  candidate : ∃ o, m.objects[obj]? = some o ∧ o.primary? = some copy
  present : m.objects[master]? = some kept
  named : kept.primary?.isSome
  place : physicalPath copy.resource master = .ok physical

/-- A merge of `obj` with `master` on the catalog `m` ends with a catalog and a result. -/
inductive Course (rules : Rules) (obj master : String) (m : Memory) :
    Memory → Except Error Outcome → Prop
  | stopped {e : Error} (step : e.step? ≠ some .unlink) : Course rules obj master m m (.error e)
  | roomMade {m' : Memory} {e : Error} (vacant : m.objects[master]? = none)
      (room : m.Opened (Path.Above · master) m')
      (step : e.step? = some .collCreate ∨ e.step? = some .rename) :
      Course rules obj master m m' (.error e)
  | moved {m' : Memory} {o : DataObject} (vacant : m.objects[master]? = none)
      (room : m.Opened (Path.Above · master) m') (candidate : m.objects[obj]? = some o) :
      Course rules obj master m (m'.rehome obj master o) (.ok (.moved master))
  | unavailable {o kept : DataObject} (candidate : m.objects[obj]? = some o)
      (present : m.objects[master]? = some kept)
      (missing : o.checksum? = none ∨ kept.checksum? = none) :
      Course rules obj master m m
        (.ok (.checksumUnavailable o.checksum?.isNone kept.checksum?.isNone))
  | flagged {o kept : DataObject} {own sum : String} (candidate : m.objects[obj]? = some o)
      (present : m.objects[master]? = some kept) (known : o.checksum? = some own)
      (other : kept.checksum? = some sum) (differ : own ≠ sum) :
      Course rules obj master m
        (m.put obj { o with attributes := o.attributes ++ [(rules.mismatchAttribute, sum)] })
        (.ok (.flagged sum))
  | attached {kept : DataObject} {copy : Replica} {physical sum : String} {e : Error}
      (found : Match obj master m kept copy physical)
      (known : kept.checksum? = some sum) (same : copy.checksum = some sum)
      (step : e.step? = some .unlink) :
      Course rules obj master m (m.put master (withCopy m kept copy master physical))
        (.error e)
  | linked {kept : DataObject} {copy : Replica} {physical sum : String}
      (found : Match obj master m kept copy physical)
      (known : kept.checksum? = some sum) (same : copy.checksum = some sum) :
      Course rules obj master m
        ((m.put master (withCopy m kept copy master physical)).drop obj)
        (.ok (.linked master physical))

variable {τ : Type} {hosts : Hosts τ} {s s' : Memory × τ} {rules : Rules}
  {obj master path : String}

section
variable {m m' : Memory} {r : Except Error Outcome} (course : Course rules obj master m m' r)
include course

theorem Course.elsewhere {x : String} (hobj : obj ≠ x) (hmaster : master ≠ x) :
    m'.objects[x]? = m.objects[x]? := by
  cases course with
  | stopped step => rfl
  | roomMade vacant room step => rw [room.objects]
  | moved vacant room candidate => simp [hobj, hmaster, room.objects]
  | unavailable candidate present missing => rfl
  | flagged candidate present known other differ => simp [hobj]
  | attached found known same step => simp [hmaster]
  | linked found known same => simp [hobj, hmaster]

theorem Course.undisturbed : m.Undisturbed m' := by
  cases course with
  | stopped step => exact .refl m
  | roomMade vacant room step => exact room.undisturbed
  | moved vacant room candidate => exact room.undisturbed.trans (rehome_undisturbed _ _ _ _)
  | unavailable candidate present missing => exact .refl m
  | flagged candidate present known other differ => exact put_undisturbed _ _ _
  | attached found known same step => exact put_undisturbed _ _ _
  | linked found known same => exact (put_undisturbed _ _ _).trans (drop_undisturbed _ _)

/-- Where there is a master object, no collections are opened. -/
theorem Course.collections_of_present {kept : DataObject}
    (present : m.objects[master]? = some kept) : m'.collections = m.collections := by
  cases course with
  | roomMade vacant room step =>
    rw [vacant] at present
    contradiction
  | moved vacant room candidate =>
    rw [vacant] at present
    contradiction
  | _ => rfl

end

theorem step?_of_physicalPath {resource : Resource} {e : Error}
    (h : physicalPath resource master = .error e) : e.step? = none := by
  rw [physicalPath] at h
  split at h <;> cases h
  rfl

theorem step?_of_parentAndName {e : Error} (h : Directory.parentAndName path = .error e) :
    e.step? = none := by
  rw [Directory.parentAndName] at h
  split at h <;> cases h
  rfl

/-- A catalog in memory knows whether there is an object. -/
theorem masterExists_ends {r : Except Error Bool} (h : Ends hosts (masterExists path) s r s') :
    s' = s ∧ (r = .ok s.1.objects[path]?.isSome ∨ ∃ e, r = .error e ∧ e.step? = some .lookup) := by
  have answer : world hosts (.inl (.identify path)) s = (s.1.identify path, s) :=
    congrArg (fun a => (a.1, a.2, s.2)) (serve_identify path s.1)
  change Dialogue.run (world hosts) (Dialogue.ask (.inl (.identify path)) _) s = _ at h
  rw [Dialogue.run_ask, answer] at h
  cases hid : s.1.identify path with
  | error f =>
    rw [hid] at h
    cases f with
    | noRows => exact absurd rfl (identify_eq_error hid)
    | failed status message =>
      cases h
      exact ⟨rfl, .inr ⟨_, rfl, rfl⟩⟩
  | ok id =>
    rw [hid] at h
    cases h
    obtain ⟨-, rfl⟩ := identify_eq_ok_iff.mp hid
    refine ⟨rfl, .inl ?_⟩
    rw [Option.isSome_map]

theorem known_checksum_idem (o : DataObject) :
    (o.checksum?).filter (fun c => !c.isEmpty) = o.checksum? := by
  rw [DataObject.checksum?]
  cases o.primary? with
  | none => rfl
  | some r => simp [Option.filter_filter]

theorem knownChecksum_ends {r : Except Error (Option String)}
    (h : Ends hosts (knownChecksum path) s r s') :
    s' = s ∧ ((∃ o, s.1.objects[path]? = some o ∧ r = .ok o.checksum?) ∨
      ∃ e, r = .error e ∧ e.step? = some .checksum) := by
  rw [knownChecksum, ends_bind_iff] at h
  rcases h with ⟨e, hask, rfl⟩ | ⟨c, mid, hask, hpure⟩
  · obtain ⟨rfl, hstep⟩ := ask_failed hask
    exact ⟨rfl, .inr ⟨e, rfl, hstep⟩⟩
  · obtain ⟨rfl, rfl⟩ := ends_pure_iff.mp hpure
    obtain ⟨ha, hs⟩ := ask_done hask
    obtain ⟨⟨-, o, ho, rfl⟩, hm⟩ := answer_checksum_iff.mp ha
    exact ⟨Prod.ext hm hs, .inl ⟨o, ho, by rw [known_checksum_idem]⟩⟩

/-- Making room opens collections above the master path, whether it succeeds or not. -/
theorem makeRoom_ends {r : Except Error Unit} (h : Ends hosts (makeRoom rules master) s r s') :
    s.1.Opened (Path.Above · master) s'.1 ∧ s'.2 = s.2 ∧
      (r = .ok () ∨ ∃ e, r = .error e ∧ e.step? = some .collCreate) := by
  rw [Ends, makeRoom, ExceptT.run_mk, Dialogue.run_bind, run_onCollections] at h
  have opened := opened_of_run_ensureParent rules.directoryMode (firstSegment master) master s.1
  generalize hrun : (Directory.ensureParent (firstSegment master) master
    rules.directoryMode).run asDirectory s.1 = out at h opened
  obtain ⟨e | n, m'⟩ := out
  · cases h
    exact ⟨opened, rfl, .inr ⟨_, rfl, rfl⟩⟩
  · cases h
    exact ⟨opened, rfl, .inl rfl⟩

theorem move_course {r : Except Error Outcome} (h : Ends hosts (move rules obj master) s r s')
    (vacant : s.1.objects[master]? = none) : Course rules obj master s.1 s'.1 r := by
  rw [move, ends_bind_iff] at h
  rcases h with ⟨e, hroom, rfl⟩ | ⟨u, mid, hroom, h⟩
  · obtain ⟨opened, -, hr | ⟨e', he, hstep⟩⟩ := makeRoom_ends hroom
    · contradiction
    · cases he
      exact .roomMade vacant opened (.inl hstep)
  obtain ⟨opened, ht, -⟩ := makeRoom_ends hroom
  rw [ends_bind_iff] at h
  rcases h with ⟨e, hask, rfl⟩ | ⟨u', last, hask, hpure⟩
  · obtain ⟨rfl, hstep⟩ := ask_failed hask
    exact .roomMade vacant opened (.inr hstep)
  obtain ⟨rfl, rfl⟩ := ends_pure_iff.mp hpure
  obtain ⟨-, o, ho, -, -, -, hm⟩ := move_eq_ok_iff.mp (answer_move_iff.mp (ask_done hask).1)
  rw [hm]
  rw [opened.objects] at ho
  exact .moved vacant opened ho

/-- Preparing a link changes nothing, and finds the primary replicas of both objects. -/
theorem prepare_ends {r : Except Error (Replica × Replica × String)}
    (h : Ends hosts (prepare obj master) s r s') :
    s'.1 = s.1 ∧ ((∃ e, r = .error e ∧ e.step? ≠ some .unlink) ∨
      ∃ o copy kept primary physical, s.1.objects[obj]? = some o ∧ o.primary? = some copy ∧
        s.1.objects[master]? = some kept ∧ kept.primary? = some primary ∧
        physicalPath copy.resource master = .ok physical ∧ r = .ok (copy, primary, physical)) := by
  rw [prepare, ends_bind_iff] at h
  rcases h with ⟨e, hcopy, rfl⟩ | ⟨copy, s₁, hcopy, h⟩
  · obtain ⟨rfl, he⟩ := ask_failed hcopy
    exact ⟨rfl, .inl ⟨e, rfl, by simp [he]⟩⟩
  obtain ⟨⟨-, o, ho, hbest⟩, hm₁⟩ := answer_primary_iff.mp (ask_done hcopy).1
  rw [ends_bind_iff] at h
  rcases h with ⟨e, hprimary, rfl⟩ | ⟨primary, s₂, hprimary, h⟩
  · obtain ⟨rfl, he⟩ := ask_failed hprimary
    exact ⟨hm₁, .inl ⟨e, rfl, by simp [he]⟩⟩
  obtain ⟨⟨-, kept, hkept, hp⟩, hm₂⟩ := answer_primary_iff.mp (ask_done hprimary).1
  rw [hm₁] at hm₂ hkept
  rw [ends_bind_iff] at h
  rcases h with ⟨e, hphysical, rfl⟩ | ⟨physical, s₃, hphysical, h⟩
  · obtain ⟨he, rfl⟩ := ends_known_iff.mp hphysical
    exact ⟨hm₂, .inl ⟨e, rfl, by simp [step?_of_physicalPath he.symm]⟩⟩
  obtain ⟨hphys, rfl⟩ := ends_known_iff.mp hphysical
  rw [ends_bind_iff] at h
  rcases h with ⟨e, hparent, rfl⟩ | ⟨⟨parent, leaf⟩, s₄, hparent, h⟩
  · obtain ⟨he, rfl⟩ := ends_known_iff.mp hparent
    exact ⟨hm₂, .inl ⟨e, rfl, by simp [step?_of_parentAndName he.symm]⟩⟩
  obtain ⟨-, rfl⟩ := ends_known_iff.mp hparent
  rw [ends_bind_iff] at h
  rcases h with ⟨e, hmkdir, rfl⟩ | ⟨u, s₅, hmkdir, h⟩
  · obtain ⟨hs, he⟩ := command_failed hmkdir
    exact ⟨hs.trans hm₂, .inl ⟨e, rfl, by simp [he]⟩⟩
  obtain ⟨rfl, -⟩ := ends_command_iff.mp hmkdir
  rw [ends_bind_iff] at h
  rcases h with ⟨e, hlink, rfl⟩ | ⟨u, s₆, hlink, h⟩
  · obtain ⟨hs, he⟩ := command_failed hlink
    exact ⟨hs.trans hm₂, .inl ⟨e, rfl, by simp [he]⟩⟩
  obtain ⟨rfl, -⟩ := ends_command_iff.mp hlink
  obtain ⟨rfl, rfl⟩ := ends_pure_iff.mp h
  exact ⟨hm₂, .inr ⟨o, copy, kept, primary, physical, ho, hbest, hkept, hp, hphys.symm, rfl⟩⟩

/-- The checksum that counts is the one of the primary replica. -/
theorem checksum?_eq_some {o : DataObject} {copy : Replica} {sum : String}
    (hbest : o.primary? = some copy) (h : o.checksum? = some sum) :
    copy.checksum = some sum ∧ sum ≠ "" := by
  rw [DataObject.checksum?, hbest, Option.bind_some, Option.filter_eq_some_iff] at h
  simpa using h

/-- Once both checksums are known to be equal, a link takes one of three courses. -/
theorem link_course {r : Except Error Outcome} (h : Ends hosts (link obj master) s r s')
    {o kept : DataObject} {sum : String} (candidate : s.1.objects[obj]? = some o)
    (present : s.1.objects[master]? = some kept) (own : o.checksum? = some sum)
    (other : kept.checksum? = some sum) : Course rules obj master s.1 s'.1 r := by
  rw [link_eq, ends_bind_iff] at h
  rcases h with ⟨e, hprepare, rfl⟩ | ⟨⟨copy, primary, physical⟩, mid, hprepare, h⟩
  · obtain ⟨hm, ⟨e', he, hstep⟩ | ⟨_, _, _, _, _, _, _, _, _, _, hr⟩⟩ := prepare_ends hprepare
    · cases he
      rw [hm]
      exact .stopped hstep
    · contradiction
  obtain ⟨hm, ⟨e', he, -⟩ | ⟨o', _, kept', _, _, ho, hbest, hkept, hprimary, hphys, hr⟩⟩ :=
    prepare_ends hprepare
  · contradiction
  cases hr
  cases candidate.symm.trans ho
  cases present.symm.trans hkept
  have same := (checksum?_eq_some hbest own).1
  change Ends hosts (register obj master copy primary physical) mid r s' at h
  rw [register, ends_bind_iff] at h
  rcases h with ⟨e, hattach, rfl⟩ | ⟨u, s₁, hattach, h⟩
  · obtain ⟨rfl, he⟩ := ask_failed hattach
    rw [hm]
    exact .stopped (by simp [he])
  have attach := (ask_done hattach).1
  rw [hm] at attach
  obtain ⟨-, -, kept', hkept', -, hm₁⟩ :=
    attach_eq_ok_iff.mp (answer_attach_iff.mp attach)
  cases present.symm.trans hkept'
  have found : Match obj master s.1 kept copy physical :=
    ⟨⟨o, candidate, hbest⟩, present, by simp [hprimary], hphys⟩
  have grown : s₁.1 = s.1.put master (withCopy s.1 kept copy master physical) := hm₁
  rw [ends_bind_iff] at h
  rcases h with ⟨e, hremove, rfl⟩ | ⟨u', s₂, hremove, h⟩
  · obtain ⟨rfl, he⟩ := ask_failed hremove
    rw [grown]
    exact .attached found other same he
  obtain ⟨-, -, hm₂⟩ := remove_eq_ok_iff.mp (answer_remove_iff.mp (ask_done hremove).1)
  obtain ⟨rfl, rfl⟩ := ends_pure_iff.mp h
  rw [hm₂, grown]
  exact .linked found other same

theorem reconcile_course {r : Except Error Outcome}
    (h : Ends hosts (reconcile rules obj master) s r s') : Course rules obj master s.1 s'.1 r := by
  rw [reconcile, ends_bind_iff] at h
  rcases h with ⟨e, hown, rfl⟩ | ⟨current, s₁, hown, h⟩
  · obtain ⟨rfl, ⟨_, _, hr⟩ | ⟨e', he, hstep⟩⟩ := knownChecksum_ends hown
    · contradiction
    · cases he
      exact .stopped (by simp [hstep])
  obtain ⟨rfl, found⟩ := knownChecksum_ends hown
  rcases found with ⟨o, candidate, hr⟩ | ⟨e, he, -⟩
  case inr => contradiction
  cases hr
  rw [ends_bind_iff] at h
  rcases h with ⟨e, hother, rfl⟩ | ⟨other, s₂, hother, h⟩
  · obtain ⟨rfl, ⟨_, _, hr⟩ | ⟨e', he, hstep⟩⟩ := knownChecksum_ends hother
    · contradiction
    · cases he
      exact .stopped (by simp [hstep])
  obtain ⟨rfl, found⟩ := knownChecksum_ends hother
  rcases found with ⟨kept, present, hr⟩ | ⟨e, he, -⟩
  case inr => contradiction
  cases hr
  have missing (none : o.checksum? = none ∨ kept.checksum? = none)
      (h : Ends hosts (pure (.checksumUnavailable o.checksum?.isNone kept.checksum?.isNone))
        s₂ r s') : Course rules obj master s₂.1 s'.1 r := by
    obtain ⟨rfl, rfl⟩ := ends_pure_iff.mp h
    exact .unavailable candidate present none
  cases own : o.checksum? with
  | none =>
    rw [own] at h missing
    exact missing (.inl rfl) h
  | some sum =>
    cases other : kept.checksum? with
    | none =>
      rw [own, other] at h missing
      exact missing (.inr rfl) h
    | some sum' =>
      rw [own, other] at h
      by_cases same : sum = sum'
      · subst same
        simp only [if_true] at h
        exact link_course h candidate present own other
      · simp only [same, if_false] at h
        rw [ends_bind_iff] at h
        rcases h with ⟨e, hmark, rfl⟩ | ⟨u, s₃, hmark, h⟩
        · obtain ⟨rfl, he⟩ := ask_failed hmark
          exact .stopped (by simp [he])
        obtain ⟨-, o', ho', hm⟩ :=
          annotate_eq_ok_iff.mp (answer_annotate_iff.mp (ask_done hmark).1)
        cases candidate.symm.trans ho'
        obtain ⟨rfl, rfl⟩ := ends_pure_iff.mp h
        rw [hm]
        exact .flagged candidate present own other same

/-- Every merge takes one of the courses. -/
theorem object_course {current coll : String} {r : Except Error Outcome}
    (hpath : destination obj current coll = .ok master)
    (h : Ends hosts (object rules obj current coll) s r s') :
    Course rules obj master s.1 s'.1 r := by
  rw [object, ends_bind_iff] at h
  rcases h with ⟨e, hknown, rfl⟩ | ⟨path, s₁, hknown, h⟩
  · obtain ⟨he, -⟩ := ends_known_iff.mp hknown
    rw [hpath] at he
    contradiction
  obtain ⟨hok, rfl⟩ := ends_known_iff.mp hknown
  rw [hpath] at hok
  cases hok
  rw [ends_bind_iff] at h
  rcases h with ⟨e, hexists, rfl⟩ | ⟨found, s₂, hexists, h⟩
  · obtain ⟨rfl, hr | ⟨e', he, hstep⟩⟩ := masterExists_ends hexists
    · contradiction
    · cases he
      exact .stopped (by simp [hstep])
  obtain ⟨rfl, hr | ⟨e', he, -⟩⟩ := masterExists_ends hexists
  · cases hr
    cases present : s₂.1.objects[master]? with
    | none =>
      rw [present] at h
      exact move_course h present
    | some kept =>
      rw [present] at h
      exact reconcile_course h
  · contradiction

end DataGrid.Merge
