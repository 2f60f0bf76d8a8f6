import DataGrid.Proofs.Vault

/-! The decision on a user's own path. The resources are tried in the order of the registry, and
the first one on the host whose vault path begins the path settles it: one character after the
vault path, then two pieces without a slash, each with its slash, and then the user. What is
registered after that resource is not looked at. The texts are cut by counting bytes; each cut
falls between two characters. -/
namespace DataGrid
open Text

variable {g : Registry} {path user : String} {host : Host}

/-! The first resource. -/

/-- The resource is on the host and its vault path begins the path. -/
structure Resource.Begins (r : Resource) (path : String) (host : Host) : Prop where
  name : r.host.name = host.name
  zone : r.host.zone = host.zone
  lead : r.vault.toList <+: path.toList

theorem Resource.begins_iff {r : Resource} :
    r.Begins path host ↔ r.host.sameMachine host = true ∧ r.vault.toList <+: path.toList := by
  simp only [Host.sameMachine, Bool.and_eq_true, beq_iff_eq]
  constructor
  · rintro ⟨name, zone, lead⟩
    exact ⟨⟨name, zone⟩, lead⟩
  · rintro ⟨⟨name, zone⟩, lead⟩
    exact ⟨name, zone, lead⟩

/-- After the vault path of the resource come one character, two pieces that end with a slash, and
the user, alone or with a slash. -/
def Resource.Leads (r : Resource) (path user : String) : Prop :=
  ∃ c a b t, '/' ∉ a ∧ '/' ∉ b ∧
    path.toList = r.vault.toList ++ c :: (a ++ '/' :: (b ++ '/' :: t)) ∧
    (t = user.toList ∨ user.toList ++ ['/'] <+: t)

theorem leadsToUser_iff_leads {r : Resource} {rest : List Char}
    (spelled : path.toList = r.vault.toList ++ rest) :
    leadsToUser user rest = true ↔ r.Leads path user := by
  rw [leadsToUser_iff]
  constructor
  · rintro ⟨c, a, b, more, ha, hb, rfl, ends⟩
    refine ⟨c, a, b, user.toList ++ more, ha, hb, spelled, ?_⟩
    cases more with
    | nil => exact .inl (List.append_nil _)
    | cons d more =>
      obtain rfl := ends d rfl
      exact .inr ⟨more, by simp⟩
  · rintro ⟨c, a, b, t, ha, hb, split, ends⟩
    obtain rfl := List.append_cancel_left (spelled.symm.trans split)
    rcases ends with rfl | ⟨more, rfl⟩
    · exact ⟨c, a, b, [], ha, hb, by simp, by simp⟩
    · exact ⟨c, a, b, '/' :: more, ha, hb, by simp, by simp⟩

namespace Registry

/-- The first resource that begins the path is the one that the path is placed with. -/
theorem placement?_eq_some_iff_first {m : Placement} :
    g.placement? path host = some m ↔ climbs path = false ∧
      path.toList = m.resource.vault.toList ++ m.rest ∧
      ∃ before after, g.resources = before ++ m.resource :: after ∧
        m.resource.Begins path host ∧ ∀ r ∈ before, ¬ r.Begins path host := by
  rw [placement?_eq_some_iff]
  refine and_congr_right fun free => and_congr_right fun spelled => ?_
  have lead : m.resource.vault.toList <+: path.toList := ⟨_, spelled.symm⟩
  constructor
  · rintro ⟨before, after, split, others⟩
    -- Before it in the registry stand resources of the host and, just before it, of other hosts.
    obtain ⟨front, back, whole, kept, rest⟩ := List.filter_eq_append_iff.mp split
    obtain ⟨skipped, after', whole', none, there, -⟩ := List.filter_eq_cons_iff.mp rest
    refine ⟨front ++ skipped, after', by simp [whole, whole'],
      Resource.begins_iff.mpr ⟨there, lead⟩, fun r hr begins => ?_⟩
    obtain ⟨here, leads⟩ := Resource.begins_iff.mp begins
    rcases List.mem_append.mp hr with hr | hr
    · exact others r (kept ▸ List.mem_filter.mpr ⟨hr, here⟩) leads
    · exact none r hr here
  · rintro ⟨before, after, split, begins, others⟩
    obtain ⟨there, -⟩ := Resource.begins_iff.mp begins
    refine ⟨before.filter fun r => r.host.sameMachine host,
      after.filter fun r => r.host.sameMachine host, ?_, fun r hr leads => ?_⟩
    · rw [onHost, split, List.filter_append, List.filter_cons, if_pos there]
    · obtain ⟨mem, here⟩ := List.mem_filter.mp hr
      exact others r mem (Resource.begins_iff.mpr ⟨here, leads⟩)

/-- What comes after a resource that begins the path has no say. -/
theorem placement?_congr {before after others : List Resource} {r : Resource}
    (begins : r.Begins path host) :
    placement? ⟨before ++ r :: others⟩ path host =
      placement? ⟨before ++ r :: after⟩ path host := by
  obtain ⟨there, rest, spelled⟩ := Resource.begins_iff.mp begins
  have here : stripLead? r.vault.toList path.toList = some rest :=
    stripLead?_eq_some_iff.mpr spelled.symm
  simp [placement?, onHost, there, List.findSome?_append, here]

end Registry

/-! The cuts, as they are made in bytes. -/

/-- The text from a byte on; none if the byte is inside of a character or beyond the end. -/
def fromByte? (s : String) (i : Nat) : Option String :=
  (s.pos? ⟨i⟩).map fun p => (s.sliceFrom p).copy

theorem fromByte?_append {whole s t : String} (split : whole = s ++ t) :
    fromByte? whole s.utf8ByteSize = some t := by
  subst split
  have valid : s.rawEndPos.IsValid (s ++ t) :=
    String.Pos.Raw.isValid_iff_exists_append.mpr ⟨s, t, rfl, rfl⟩
  have here : (s ++ t).pos? s.rawEndPos = some ((s ++ t).pos s.rawEndPos valid) := by
    simp [String.pos?, String.pos, String.Slice.pos?, valid.toSlice]
  have splits : ((s ++ t).pos s.rawEndPos valid).Splits s t := ⟨rfl, rfl⟩
  change ((s ++ t).pos? s.rawEndPos).map _ = _
  rw [here, Option.map_some, splits.copy_sliceFrom_eq]

/-- The byte after the second slash, where the text goes on at the byte `i` and `seen` slashes have
come before. -/
def afterSecond? : (i seen : Nat) → List Char → Option Nat
  | _, _, [] => none
  | i, seen, c :: cs =>
    if c = '/' then
      if seen + 1 = 2 then some (i + 1) else afterSecond? (i + c.utf8Size) (seen + 1) cs
    else afterSecond? (i + c.utf8Size) seen cs

theorem afterSecond?_append {i seen : Nat} {a cs : List Char} (free : '/' ∉ a) :
    afterSecond? i seen (a ++ cs) = afterSecond? (i + (String.ofList a).utf8ByteSize) seen cs := by
  induction a generalizing i with
  | nil => rfl
  | cons c a ih =>
    rw [List.mem_cons, not_or] at free
    obtain ⟨other, free⟩ := free
    rw [List.cons_append, afterSecond?, if_neg (Ne.symm other), ih free, String.ofList_cons,
      String.utf8ByteSize_append, String.utf8ByteSize_singleton, Nat.add_assoc]

/-- Two pieces with their slashes take up this many bytes. -/
theorem afterSecond?_pieces {a b : List Char} (ha : '/' ∉ a) (hb : '/' ∉ b) (t : List Char) :
    afterSecond? 0 0 (a ++ '/' :: (b ++ '/' :: t)) =
      some (String.ofList (a ++ '/' :: (b ++ ['/']))).utf8ByteSize := by
  have slash : '/'.utf8Size = 1 := by decide
  rw [afterSecond?_append ha, afterSecond?, if_pos rfl, if_neg (by decide),
    afterSecond?_append hb, afterSecond?, if_pos rfl, if_pos rfl]
  simp only [String.ofList_append, String.ofList_cons, String.utf8ByteSize_append,
    String.utf8ByteSize_singleton, String.ofList_nil, String.utf8ByteSize_empty, slash,
    Option.some.injEq]
  omega

theorem afterSecond?_eq_none {a b : List Char} (ha : '/' ∉ a) (hb : '/' ∉ b) (i : Nat) :
    afterSecond? i 0 (a ++ '/' :: b) = none := by
  rw [afterSecond?_append ha, afterSecond?, if_pos rfl, if_neg (by decide), ← List.append_nil b,
    afterSecond?_append hb, afterSecond?]

theorem afterSlash?_eq_none {cs : List Char} (none : afterSlash? cs = none) : '/' ∉ cs := by
  intro mem
  obtain ⟨a, rest, rfl, free⟩ := List.eq_append_cons_of_mem mem
  simp [afterSlash?_eq_some_iff.mpr ⟨a, free, rfl⟩] at none

/-- Whether what follows a vault path leads to the user, with the user cut off at a byte; none if
that byte is inside of a character. -/
def leadsInBytes (user : String) : List Char → Option Bool
  | [] => some false
  | _ :: cs =>
    match afterSecond? 0 0 cs with
    | none => some false
    | some start =>
      (fromByte? (String.ofList cs) start).map fun tail => beginsWithName user.toList tail.toList

theorem leadsInBytes_eq (user : String) (rest : List Char) :
    leadsInBytes user rest = some (leadsToUser user rest) := by
  cases rest with
  | nil => rfl
  | cons c cs =>
    rw [leadsInBytes, leadsToUser]
    cases first : afterSlash? cs with
    | none =>
      have free := afterSlash?_eq_none first
      rw [← List.append_nil cs, afterSecond?_append free]
      rfl
    | some mid =>
      obtain ⟨a, ha, rfl⟩ := afterSlash?_eq_some_iff.mp first
      rw [Option.bind_some]
      cases second : afterSlash? mid with
      | none =>
        rw [afterSecond?_eq_none ha (afterSlash?_eq_none second)]
      | some tail =>
        obtain ⟨b, hb, rfl⟩ := afterSlash?_eq_some_iff.mp second
        have split : String.ofList (a ++ '/' :: (b ++ '/' :: tail)) =
            String.ofList (a ++ '/' :: (b ++ ['/'])) ++ String.ofList tail := by
          rw [← String.ofList_append]
          simp
        rw [afterSecond?_pieces ha hb]
        simp only
        rw [fromByte?_append split, Option.map_some, String.toList_ofList]

namespace Registry

/-- The decision with all cuts made in bytes; none if one of them is inside of a character. -/
def ownsPathInBytes (g : Registry) (path : String) (host : Host) (user : String) : Option Bool :=
  if user.isEmpty then some false
  else
    match g.placement? path host with
    | none => some false
    | some m => (fromByte? path m.prefixLength).bind fun rest => leadsInBytes user rest.toList

theorem ownsPathInBytes_eq :
    g.ownsPathInBytes path host user = some (g.ownsPath path host user) := by
  rw [ownsPathInBytes, ownsPath]
  cases user.isEmpty with
  | true => rfl
  | false =>
    cases placed : g.placement? path host with
    | none => rfl
    | some m =>
      obtain ⟨-, spelled, -⟩ := placement?_eq_some_iff.mp placed
      have split : path = m.resource.vault ++ String.ofList m.rest := by
        rw [← String.toList_inj, String.toList_append, String.toList_ofList, spelled]
      have cut : fromByte? path m.prefixLength = some (String.ofList m.rest) :=
        fromByte?_append split
      simp [cut, leadsInBytes_eq]

/-- For every registry, path, host and user: the exact condition, that nothing registered after the
resource that decides has a say, and that no cut ever falls inside of a character. -/
theorem ownsPath_decides (g : Registry) (path : String) (host : Host) (user : String) :
    (g.ownsPath path host user = true ↔
      user ≠ "" ∧ ¬ climb.toList <:+: path.toList ∧
      ∃ before r after, g.resources = before ++ r :: after ∧ r.Begins path host ∧
        (∀ o ∈ before, ¬ o.Begins path host) ∧ r.Leads path user) ∧
    (∀ before r after others, g.resources = before ++ r :: after → r.Begins path host →
      ownsPath ⟨before ++ r :: others⟩ path host user = g.ownsPath path host user) ∧
    g.ownsPathInBytes path host user = some (g.ownsPath path host user) := by
  refine ⟨?_, ?_, ownsPathInBytes_eq⟩
  · rw [ownsPath_iff]
    refine and_congr_right fun _ => ?_
    constructor
    · rintro ⟨m, placed, leads⟩
      obtain ⟨free, spelled, before, after, split, begins, first⟩ :=
        placement?_eq_some_iff_first.mp placed
      exact ⟨climbs_eq_false_iff.mp free, before, m.resource, after, split, begins, first,
        (leadsToUser_iff_leads spelled).mp leads⟩
    · rintro ⟨free, before, r, after, split, begins, first, leads⟩
      obtain ⟨rest, spelled⟩ := begins.lead
      exact ⟨⟨r, rest⟩, placement?_eq_some_iff_first.mpr ⟨climbs_eq_false_iff.mpr free,
        spelled.symm, before, after, split, begins, first⟩,
        (leadsToUser_iff_leads spelled.symm).mpr leads⟩
  · intro before r after others split begins
    obtain ⟨resources⟩ := g
    obtain rfl : resources = before ++ r :: after := split
    rw [ownsPath, ownsPath, placement?_congr begins]

end Registry

/-- A vault on the same host, around the other. -/
def Sample.around : Resource := { demo with name := "aroundResc", vault := "/data" }

/-- Registered first, the vault around the other decides, and the path is of another user. -/
theorem Registry.vault_around_decides :
    ownsPath ⟨[Sample.around, Sample.demo]⟩ "/data/Vault/zön/home/ann" Sample.demo.host "home" =
      true ∧
    ownsPathInBytes ⟨[Sample.around, Sample.demo]⟩ "/data/Vault/zön/home/ann" Sample.demo.host
      "home" = some true ∧
    ownsPath ⟨[Sample.around, Sample.demo]⟩ "/data/Vault/zön/home/ann" Sample.demo.host "ann" =
      false ∧
    ownsPath ⟨[Sample.demo, Sample.around]⟩ "/data/Vault/zön/home/ann" Sample.demo.host "ann" =
      true := by
  obtain ⟨exact, -, inBytes⟩ := ownsPath_decides ⟨[Sample.around, Sample.demo]⟩
    "/data/Vault/zön/home/ann" Sample.demo.host "home"
  have owned := exact.mpr ⟨by decide, climbs_eq_false_iff.mp (by decide +kernel), [],
    Sample.around, [Sample.demo], rfl, ⟨rfl, rfl, ⟨"/Vault/zön/home/ann".toList, rfl⟩⟩, by simp,
    '/', "Vault".toList, "zön".toList, "home/ann".toList, by decide, by decide, rfl,
    .inr ⟨"ann".toList, rfl⟩⟩
  exact ⟨owned, by rw [inBytes, owned], by decide +kernel, by decide +kernel⟩

end DataGrid
