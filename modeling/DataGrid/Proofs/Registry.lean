import DataGrid.Proofs.OwnedPath

/-! A registry under one registration after another. An accepted one appends its resource and a
refused one leaves the registry as it was, so what is listed is what was accepted, in that order.
Look-ups take the first resource that answers, and no registration comes before an earlier one:
what a look-up has found once it finds ever after. -/
namespace DataGrid
open Text

namespace Registry

variable {g g' : Registry} {r : Resource} {rs : List Resource}

/-- The resource may be registered: its vault path is neither empty nor passes through a parent
directory, and its name is not taken. -/
structure Admits (g : Registry) (r : Resource) : Prop where
  filled : r.vault ≠ ""
  level : ¬ climb.toList <:+: r.vault.toList
  fresh : ∀ known ∈ g.resources, known.name ≠ r.name

theorem register_eq_ok_iff : g.register r = .ok g' ↔ g.Admits r ∧ g' = ⟨g.resources ++ [r]⟩ := by
  rw [register]
  constructor
  · intro h
    split at h
    · contradiction
    · next filled =>
      split at h
      · contradiction
      · next level =>
        split at h
        · contradiction
        · next fresh =>
          cases h
          refine ⟨⟨by simpa using filled, by simpa [climbs, occurs_iff] using level, ?_⟩, rfl⟩
          simpa using fresh
  · rintro ⟨⟨filled, level, fresh⟩, rfl⟩
    have level : climbs r.vault = false := by simpa [climbs, ← occurs_iff] using level
    have fresh : (g.resources.any fun known => known.name == r.name) = false := by simpa using fresh
    simp [filled, level, fresh]

/-- A registration: its answer, and the registry that it leaves. -/
def call (g : Registry) (r : Resource) : Except Error Unit × Registry :=
  match g.register r with
  | .ok g' => (.ok (), g')
  | .error e => (.error e, g)

theorem call_cases (g : Registry) (r : Resource) :
    g.Admits r ∧ g.call r = (.ok (), ⟨g.resources ++ [r]⟩) ∨
      ¬ g.Admits r ∧ ∃ e, g.register r = .error e ∧ g.call r = (.error e, g) := by
  rw [call]
  cases h : g.register r with
  | ok g' =>
    obtain ⟨admits, rfl⟩ := register_eq_ok_iff.mp h
    exact .inl ⟨admits, rfl⟩
  | error e =>
    refine .inr ⟨fun admits => ?_, e, rfl, rfl⟩
    rw [register_eq_ok_iff.mpr ⟨admits, rfl⟩] at h
    cases h

theorem call_eq_ok_iff : (g.call r).1 = .ok () ↔ g.Admits r := by
  rcases call_cases g r with ⟨admits, same⟩ | ⟨refused, e, -, same⟩
  · simp [same, admits]
  · simp [same, refused]

/-! Several registrations. -/

/-- The registry that is left after all of them. -/
def after (g : Registry) (rs : List Resource) : Registry := rs.foldl (fun g r => (g.call r).2) g

/-- The resources with the answers to their registrations. -/
def answers (g : Registry) : List Resource → List (Resource × Except Error Unit)
  | [] => []
  | r :: rs => (r, (g.call r).1) :: answers (g.call r).2 rs

/-- The resources whose registrations were accepted. -/
def accepted (answers : List (Resource × Except Error Unit)) : List Resource :=
  (answers.filter fun a => a.2.isOk).map (·.1)

@[simp] theorem accepted_ok (answers : List (Resource × Except Error Unit)) :
    accepted ((r, .ok ()) :: answers) = r :: accepted answers := rfl

@[simp] theorem accepted_error (e : Error) (answers : List (Resource × Except Error Unit)) :
    accepted ((r, .error e) :: answers) = accepted answers := rfl

theorem resources_after (g : Registry) (rs : List Resource) :
    (g.after rs).resources = g.resources ++ accepted (g.answers rs) := by
  induction rs generalizing g with
  | nil => exact (List.append_nil _).symm
  | cons r rs ih =>
    refine (ih (g.call r).2).trans ?_
    rcases call_cases g r with ⟨-, same⟩ | ⟨-, e, -, same⟩ <;> simp [answers, same]

/-- No two resources share a name, and each has a vault path of the kind that is accepted. -/
structure Orderly (g : Registry) : Prop where
  names : (g.resources.map (·.name)).Nodup
  vaults : ∀ r ∈ g.resources, r.vault ≠ "" ∧ ¬ climb.toList <:+: r.vault.toList

theorem Orderly.call (orderly : Orderly g) (r : Resource) : Orderly (g.call r).2 := by
  rcases call_cases g r with ⟨admits, same⟩ | ⟨-, e, -, same⟩
  · rw [same]
    constructor
    · rw [List.map_append, List.nodup_append]
      refine ⟨orderly.names, by simp, ?_⟩
      rintro _ taken name listed rfl
      obtain ⟨known, mem, rfl⟩ := List.mem_map.mp taken
      exact admits.fresh known mem (by simpa using listed)
    · intro s mem
      rcases List.mem_append.mp mem with mem | mem
      · exact orderly.vaults s mem
      · obtain rfl := List.mem_singleton.mp mem
        exact ⟨admits.filled, admits.level⟩
  · rwa [same]

theorem Orderly.after (orderly : Orderly g) (rs : List Resource) : Orderly (g.after rs) := by
  induction rs generalizing g with
  | nil => exact orderly
  | cons r rs ih => exact ih (orderly.call r)

/-! Look-ups. -/

/-- What is listed after the resource that a path is placed with has no say. -/
theorem placement?_append {path : String} {host : Host} {m : Placement}
    (found : g.placement? path host = some m) (more : List Resource) :
    placement? ⟨g.resources ++ more⟩ path host = some m := by
  obtain ⟨free, spelled, before, others, split, begins, first⟩ :=
    placement?_eq_some_iff_first.mp found
  exact placement?_eq_some_iff_first.mpr
    ⟨free, spelled, before, others ++ more, by simp [split], begins, first⟩

theorem placement?_after {path : String} {host : Host} {m : Placement}
    (found : g.placement? path host = some m) (more : List Resource) :
    (g.after more).placement? path host = some m := by
  have listed := placement?_append found (accepted (g.answers more))
  rwa [← resources_after] at listed

theorem find?_after {name : String} (found : g.find? name = some r) (more : List Resource) :
    (g.after more).find? name = some r := by
  rw [find?] at found
  rw [find?, resources_after, List.find?_append, found, Option.some_or]

/-! Registration of a whole list, which ends with the first refusal. -/

theorem foldlM_register_eq_ok_iff :
    rs.foldlM register g = .ok g' ↔ (∀ a ∈ g.answers rs, a.2 = .ok ()) ∧ g' = g.after rs := by
  induction rs generalizing g with
  | nil => simp [answers, after, eq_comm, pure, Except.pure]
  | cons r rs ih =>
    rw [List.foldlM_cons, answers, List.forall_mem_cons, after, List.foldl_cons]
    rcases call_cases g r with ⟨admits, same⟩ | ⟨-, e, refused, same⟩
    · rw [register_eq_ok_iff.mpr ⟨admits, rfl⟩, same]
      exact ih.trans (by simp [after])
    · simp [refused, same, bind, Except.bind]

/-- Without the refused resources, the list is registered as a whole. -/
theorem foldlM_register_accepted (g : Registry) (rs : List Resource) :
    (accepted (g.answers rs)).foldlM register g = .ok (g.after rs) := by
  induction rs generalizing g with
  | nil => rfl
  | cons r rs ih =>
    have later := ih (g.call r).2
    rw [answers, after, List.foldl_cons]
    rcases call_cases g r with ⟨admits, same⟩ | ⟨-, e, -, same⟩ <;> rw [same] at later ⊢
    · rw [accepted_ok, List.foldlM_cons, register_eq_ok_iff.mpr ⟨admits, rfl⟩]
      exact later
    · exact later

/-- Whatever is registered: what is accepted next, that a refusal changes nothing, what is listed,
that what a look-up has found stays found, and that a list is registered as its resources are one
after another. -/
theorem registrations_stay (rs : List Resource) :
    let g := after {} rs
    (∀ r, (g.call r).1 = .ok () ↔ g.Admits r) ∧
    (∀ r e, (g.call r).1 = .error e → after {} (rs ++ [r]) = g) ∧
    g.resources = accepted (answers {} rs) ∧ ofList (accepted (answers {} rs)) = .ok g ∧
    Orderly g ∧
    (∀ path host m, g.placement? path host = some m →
      ∀ more, (after {} (rs ++ more)).placement? path host = some m) ∧
    (∀ name r, g.find? name = some r → ∀ more, (after {} (rs ++ more)).find? name = some r) ∧
    ∀ g', ofList rs = .ok g' ↔ (∀ a ∈ answers {} rs, a.2 = .ok ()) ∧ g' = g := by
  have continued (more : List Resource) : after {} (rs ++ more) = (after {} rs).after more :=
    List.foldl_append
  refine ⟨fun r => call_eq_ok_iff, ?_, resources_after {} rs, foldlM_register_accepted {} rs,
    .after ⟨by simp, by simp⟩ rs, ?_, ?_, fun g' => foldlM_register_eq_ok_iff⟩
  · intro r e refused
    rw [continued]
    rcases call_cases (after {} rs) r with ⟨-, same⟩ | ⟨-, e', -, same⟩
    · rw [same] at refused
      cases refused
    · exact congrArg Prod.snd same
  · intro path host m found more
    rw [continued]
    exact placement?_after found more
  · intro name r found more
    rw [continued]
    exact find?_after found more

end Registry

/-- A vault within the other, under the same name. -/
def Sample.within : Resource := { demo with vault := "/data/Vault/zoneA" }

/-- Of two vaults on one host, one around the other, the first to be registered is found for a path
in both, also after a resource of its name with a closer vault was refused. -/
theorem Registry.first_vault_stays :
    let path := "/data/Vault/zoneA/x"
    let rs := [Sample.demo, Sample.within, Sample.around]
    let placed : Placement := ⟨Sample.demo, "/zoneA/x".toList⟩
    (after {} [Sample.demo]).placement? path Sample.demo.host = some placed ∧
    (after {} rs).resources = [Sample.demo, Sample.around] ∧
    (after {} rs).placement? path Sample.demo.host = some placed ∧
    (after {} rs).find? "demoResc" = some Sample.demo := by
  have found : (after {} [Sample.demo]).placement? "/data/Vault/zoneA/x" Sample.demo.host =
    some ⟨Sample.demo, "/zoneA/x".toList⟩ := rfl
  obtain ⟨-, -, -, -, -, place, name, -⟩ := registrations_stay [Sample.demo]
  exact ⟨found, by decide +kernel, place _ _ _ found [Sample.within, Sample.around],
    name _ _ rfl [Sample.within, Sample.around]⟩

end DataGrid
