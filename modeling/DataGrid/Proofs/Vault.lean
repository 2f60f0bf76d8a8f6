import DataGrid.Vault
import DataGrid.Proofs.Resolution

/-! What the gate to a user's own area lets through. It reads the path as it is spelled: one
character after the vault path is passed over, whatever it is, and the third segment from there
must be the user's. A path is confined to the area if, once resolved, the third name below the
vault is the user's. The two agree where a slash sets the vault path apart and names follow it
with no step back; a path that goes on from the name of the vault is beside the vault. -/
namespace DataGrid
open Text DataGrid.Path

variable {g : Registry} {path user : String} {host : Host}

theorem afterSlash?_eq_some_iff {cs rest : List Char} :
    afterSlash? cs = some rest ↔ ∃ s, '/' ∉ s ∧ cs = s ++ '/' :: rest := by
  have same : (fun c => c != '/') = fun c => !isSlash c := rfl
  rw [afterSlash?, same]
  constructor
  · intro h
    have whole := List.takeWhile_append_dropWhile (p := fun c => !isSlash c) (l := cs)
    have first := head?_dropWhile_slash cs
    split at h
    · contradiction
    · next slash tail hd =>
      cases h
      rw [hd] at whole first
      obtain rfl : slash = '/' := first slash rfl
      exact ⟨_, slash_not_mem_takeWhile cs, whole.symm⟩
  · rintro ⟨s, free, rfl⟩
    rw [(takeWhile_name free ('/' :: rest) (by simp)).2]

theorem beginsWithName_iff {name cs : List Char} :
    beginsWithName name cs = true ↔ ∃ more, cs = name ++ more ∧ ∀ c ∈ more.head?, c = '/' := by
  constructor
  · intro h
    rw [beginsWithName] at h
    split at h
    · next hs => exact ⟨[], eq_append_of_stripLead? hs, by simp⟩
    · next c more hs => exact ⟨c :: more, eq_append_of_stripLead? hs, by simpa using h⟩
    · contradiction
  · rintro ⟨more, rfl, first⟩
    rw [beginsWithName, stripLead?_append]
    cases more with
    | nil => rfl
    | cons c more => simpa using first c rfl

/-- One character, two segments and the name of the user, which ends where a segment ends. -/
theorem leadsToUser_iff {rest : List Char} :
    leadsToUser user rest = true ↔ ∃ c a b more, '/' ∉ a ∧ '/' ∉ b ∧
      rest = c :: (a ++ '/' :: (b ++ '/' :: (user.toList ++ more))) ∧
      ∀ d ∈ more.head?, d = '/' := by
  constructor
  · intro h
    cases rest with
    | nil => contradiction
    | cons c cs =>
      simp only [leadsToUser] at h
      split at h
      · next tail after =>
        obtain ⟨mid, first, second⟩ := Option.bind_eq_some_iff.mp after
        obtain ⟨a, ha, rfl⟩ := afterSlash?_eq_some_iff.mp first
        obtain ⟨b, hb, rfl⟩ := afterSlash?_eq_some_iff.mp second
        obtain ⟨more, rfl, ends⟩ := beginsWithName_iff.mp h
        exact ⟨c, a, b, more, ha, hb, rfl, ends⟩
      · contradiction
  · rintro ⟨c, a, b, more, ha, hb, rfl, ends⟩
    have first : afterSlash? (a ++ '/' :: (b ++ '/' :: (user.toList ++ more))) = some _ :=
      afterSlash?_eq_some_iff.mpr ⟨a, ha, rfl⟩
    have second : afterSlash? (b ++ '/' :: (user.toList ++ more)) = some _ :=
      afterSlash?_eq_some_iff.mpr ⟨b, hb, rfl⟩
    simp only [leadsToUser, first, Option.bind_some, second]
    exact beginsWithName_iff.mpr ⟨more, rfl, ends⟩

/-- For a user without a slash: the third segment after one character is the user's. -/
theorem leadsToUser_cons_iff {c : Char} {cs : List Char} (whole : '/' ∉ user.toList) :
    leadsToUser user (c :: cs) = true ↔ (segments cs)[2]? = some user.toList := by
  rw [leadsToUser_iff]
  constructor
  · rintro ⟨_, a, b, more, ha, hb, split, ends⟩
    obtain ⟨rfl, rfl⟩ := List.cons.inj split
    cases more with
    | nil => simp [segments_append_slash, segments_of_not_mem, ha, hb, whole]
    | cons d more =>
      obtain rfl := ends d rfl
      simp [segments_append_slash, segments_of_not_mem, ha, hb, whole]
  · intro third
    match split : segments cs with
    | [] | [_] | [_, _] => simp [split] at third
    | a :: b :: u :: more =>
      obtain rfl : u = user.toList := by simpa [split] using third
      have free := slash_not_mem_segments cs
      rw [split] at free
      have spelled := join_segments cs
      rw [split, join_cons, spell_cons, spell_cons] at spelled
      exact ⟨c, a, b, spell more, free a (by simp), free b (by simp), by rw [spelled],
        head?_spell more⟩

namespace Registry

/-- The first resource on the host whose vault path begins the path. -/
theorem placement?_eq_some_iff {m : Placement} :
    g.placement? path host = some m ↔ climbs path = false ∧
      path.toList = m.resource.vault.toList ++ m.rest ∧
      ∃ before after, g.onHost host = before ++ m.resource :: after ∧
        ∀ r ∈ before, ¬ r.vault.toList <+: path.toList := by
  rw [placement?]
  cases climbs path with
  | true => simp
  | false =>
    simp only [Bool.false_eq_true, if_false, List.findSome?_eq_some_iff, Option.map_eq_some_iff,
      Option.map_eq_none_iff, stripLead?_eq_some_iff, stripLead?_eq_none_iff, true_and]
    constructor
    · rintro ⟨before, r, after, split, ⟨rest, spelled, rfl⟩, others⟩
      exact ⟨spelled, before, after, split, others⟩
    · rintro ⟨spelled, before, after, split, others⟩
      exact ⟨before, m.resource, after, split, ⟨m.rest, spelled, rfl⟩, others⟩

theorem ownsPath_iff : g.ownsPath path host user = true ↔
    user ≠ "" ∧ ∃ m, g.placement? path host = some m ∧ leadsToUser user m.rest = true := by
  rw [ownsPath]
  cases g.placement? path host <;> simp

theorem checkPath_eq_owned_iff {fallback : Fallback}
    (strict : fallback path host user ≠ .ownedVaultPath) :
    g.checkPath path host user fallback = .ok .ownedVaultPath ↔
      g.ownsPath path host user = true := by
  rw [checkPath]
  cases high : climbs path with
  | true => simp [ownsPath, placement?, high]
  | false => cases g.ownsPath path host user <;> simp [strict]

end Registry

/-- The path, once resolved, is at or below `<vault>/<z>/<h>/<user>` for some `z` and `h`. -/
def Confined (vault path user : String) : Prop :=
  ∃ z h, resolved vault.toList ++ [z, h, user.toList] <+: resolved path.toList

/-- Between the vault path and what follows, which begins with `c`, stands a slash. -/
def Apart (vault : String) (c : Char) : Prop := c = '/' ∨ ∃ front, vault.toList = front ++ ['/']

/-- The last segment of the path is a name. -/
def EndsInName (path : String) : Prop := ∃ front s, segments path.toList = front ++ [s] ∧ IsName s

theorem climbs_eq_false_iff :
    climbs path = false ↔ ¬ '/' :: (back ++ ['/']) <:+: path.toList := by
  rw [← Bool.not_eq_true, climbs, occurs_iff]
  rfl

theorem confined_iff_of_split {vault : String} (place : List Char) {below : List Char}
    (free : climbs path = false) (spelled : path.toList = place ++ '/' :: below)
    (same : resolved vault.toList = resolved place) :
    Confined vault path user ↔ (resolved below)[2]? = some user.toList := by
  rw [climbs_eq_false_iff, spelled] at free
  simp only [Confined, same, spelled,
    append_prefix_resolved_iff free (List.cons_ne_nil _ _), exists_prefix_iff_third]

/-- Where a slash sets the vault path apart, the third name below it must be the user's. -/
theorem confined_iff_third {vault : String} {c : Char} {cs : List Char}
    (free : climbs path = false) (spelled : path.toList = vault.toList ++ c :: cs)
    (apart : Apart vault c) :
    Confined vault path user ↔ (resolved (c :: cs))[2]? = some user.toList := by
  rcases apart with rfl | ⟨front, ends⟩
  · rw [resolved_slash]
    exact confined_iff_of_split vault.toList free spelled rfl
  · refine confined_iff_of_split front free ?_ ?_
    · rw [spelled, ends, List.append_assoc]
      rfl
    · rw [ends, resolved_concat_slash]

namespace Sample

/-- A resource of one host. -/
def demo : Resource :=
  { name := "demoResc", vault := "/data/Vault", zone := "zoneA",
    host := { name := "resc1.example.org", zone := "zoneA" } }

/-- Paths that are spelled past the gate, each with the user for whom it is asked. -/
def escapes : List (String × String) :=
  [("/data/Vault2/home/alice", "alice"), ("/data/Vault//home/alice", "alice"),
    ("/data/Vault/zoneA/home/alice/..", "alice"), ("/data/Vault/zoneA/home/..", "..")]

end Sample

namespace Registry
open Sample

/-- What a path that the gate allows as the user's own comes to. It is confined if a slash, three
names, the last of them the user's, and no step back follow the vault path; wherever a slash sets
the vault path apart, the third resolved name decides; and where the path goes on from the name
of the vault it is not even in the vault. -/
theorem owned_confined_iff {fallback : Fallback}
    (accepted : g.checkPath path host user fallback = .ok .ownedVaultPath)
    (strict : fallback path host user ≠ .ownedVaultPath) (whole : '/' ∉ user.toList) :
    ∃ r c cs, g.placement? path host = some ⟨r, c :: cs⟩ ∧
      (segments cs)[2]? = some user.toList ∧
      (c = '/' → (∀ s ∈ (segments cs).take 3, IsName s) → back ∉ segments cs →
        Confined r.vault path user) ∧
      (Apart r.vault c →
        (Confined r.vault path user ↔ (resolved (c :: cs))[2]? = some user.toList)) ∧
      (c ≠ '/' → EndsInName r.vault → covers r.vault path = false) := by
  obtain ⟨-, ⟨r, rest⟩, placed, leads⟩ :=
    ownsPath_iff.mp ((checkPath_eq_owned_iff strict).mp accepted)
  cases rest with
  | nil => contradiction
  | cons c cs =>
    obtain ⟨free, spelled, -⟩ := placement?_eq_some_iff.mp placed
    have third : (segments cs)[2]? = some user.toList := (leadsToUser_cons_iff whole).mp leads
    refine ⟨r, c, cs, placed, third, ?_, confined_iff_third free spelled, ?_⟩
    · rintro rfl names forward
      rw [confined_iff_third free spelled (.inl rfl), resolved_slash]
      exact third_resolved third names forward
    · rintro apart ⟨front, last, split, name⟩
      rw [climbs_eq_false_iff, spelled] at free
      rw [Bool.eq_false_iff, ne_eq, covers_iff, spelled]
      exact not_prefix_resolved_append split name apart free

theorem escapes_are_owned : ofList [demo] = .ok ⟨[demo]⟩ ∧ ∀ e ∈ escapes,
    checkPath ⟨[demo]⟩ e.1 demo.host e.2 denyOutside = .ok .ownedVaultPath ∧
      (placement? ⟨[demo]⟩ e.1 demo.host).map (·.resource) = some demo ∧
      ¬ Confined demo.vault e.1 e.2 := by
  refine ⟨rfl, fun e he => ⟨?_, ?_, ?_⟩⟩
  · rw [checkPath_eq_owned_iff (by simp [denyOutside])]
    revert e
    decide +kernel
  · revert e
    decide +kernel
  · -- Confined paths have three names below the two of the vault.
    rintro ⟨z, h, inside⟩
    have shallow : ∀ e ∈ escapes, (resolved e.1.toList).length < 5 := by decide +kernel
    have base : (resolved demo.vault.toList).length = 2 := by decide +kernel
    have deep := inside.length_le
    simp only [List.length_append, List.length_cons, List.length_nil, base] at deep
    exact absurd (shallow e he) (by omega)

theorem own_file_is_confined :
    checkPath ⟨[demo]⟩ "/data/Vault/zoneA/home/alice/x.txt" demo.host "alice" denyOutside =
        .ok .ownedVaultPath ∧
      Confined demo.vault "/data/Vault/zoneA/home/alice/x.txt" "alice" := by
  have strict : denyOutside "/data/Vault/zoneA/home/alice/x.txt" demo.host "alice" ≠
      .ownedVaultPath := by simp [denyOutside]
  have accepted := (checkPath_eq_owned_iff (g := ⟨[demo]⟩) strict).mpr (by decide +kernel)
  refine ⟨accepted, ?_⟩
  obtain ⟨r, c, cs, placed, -, safe, -⟩ := owned_confined_iff accepted strict (by decide)
  have here : placement? ⟨[demo]⟩ "/data/Vault/zoneA/home/alice/x.txt" demo.host =
      some ⟨demo, "/zoneA/home/alice/x.txt".toList⟩ := rfl
  rw [here] at placed
  cases placed
  exact safe rfl (by decide) (by decide)

end Registry
end DataGrid
