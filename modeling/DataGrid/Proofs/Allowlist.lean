import DataGrid.Allowlist
import DataGrid.FileTree
import DataGrid.Proofs.Resolution

/-! The decision of an allowlist. A path that is not a link as it is spelled is allowed exactly if
the normal form of an entry begins its own, name by name. Spellings with one normal form are decided
alike if they agree on whether there is a link. They need not: a slash after a link leads on to
where the link points, so that the spelling with the slash is not of a link and is allowed. -/
namespace DataGrid

/-! Names of normal forms. -/

namespace Path

/-- The names between the slashes of a path. -/
def components (p : String) : List (List Char) := (segments p.toList).filter fun s => !s.isEmpty

theorem mem_foldl_resolveStep {xs done : List (List Char)} {s : List Char}
    (h : s ∈ xs.foldl resolveStep done) : s ∈ done ∨ s ∈ xs ∧ IsName s := by
  induction xs generalizing done with
  | nil => exact .inl h
  | cons x xs ih =>
    rcases ih h with before | ⟨mem, name⟩
    · by_cases name : IsName x
      · rw [name.resolveStep] at before
        rcases List.mem_cons.mp before with rfl | before
        · exact .inr ⟨List.mem_cons_self, name⟩
        · exact .inl before
      · by_cases last : x = back
        · subst last
          exact .inl (List.mem_of_mem_tail before)
        · rw [resolveStep_of_not_isName name last] at before
          exact .inl before
    · exact .inr ⟨List.mem_cons_of_mem x mem, name⟩

theorem proper_resolved (p : List Char) : Proper (resolved p) := by
  intro s hs
  rcases mem_foldl_resolveStep (List.mem_reverse.mp hs) with none | ⟨mem, name⟩
  · exact absurd none List.not_mem_nil
  · exact ⟨name.1, slash_not_mem_segments p s mem⟩

theorem components_normal (p : String) : components (normal p) = resolved p.toList := by
  have proper := proper_resolved p.toList
  rw [components, normal, String.toList_ofList]
  cases h : resolved p.toList with
  | nil => rfl
  | cons s names =>
    rw [h] at proper
    have spelled : '/' :: join (s :: names) = spell (s :: names) := by
      rw [join_cons, spell_cons]
    rw [spelled, segments_spell proper]
    have full : (s :: names).filter (fun s => !s.isEmpty) = s :: names := by
      rw [List.filter_eq_self]
      intro t ht
      simpa using (proper t ht).1
    exact full

end Path

namespace Allowlist
open DataGrid.Path (components normal)

/-! The entries of a list. -/

def Separates (c : Char) : Prop := c = ';' ∨ c = ','

/-- Cut out of the list between separators and trimmed, and not blank. -/
def IsEntry (list e : String) : Prop :=
  ∃ before piece after, list.toList = before ++ (piece ++ after) ∧
    (∀ c ∈ before.getLast?, Separates c) ∧ (∀ c ∈ after.head?, Separates c) ∧
    (∀ c ∈ piece, ¬ Separates c) ∧ e.toList = Text.trimChars piece ∧ e ≠ ""

variable {isCut : Char → Bool} {cs piece : List Char} {list other e path : String}

theorem cut_eq_splitOnP (isCut : Char → Bool) (cs : List Char) :
    cut isCut cs = cs.splitOnP isCut := by
  induction cs with
  | nil => rfl
  | cons c cs ih =>
    rw [cut, List.splitOnP_cons_eq_if_modifyHead, ih]
    cases hs : cs.splitOnP isCut with
    | nil => exact absurd hs (List.splitOnP_ne_nil isCut cs)
    | cons s ss => rfl

theorem exists_of_mem_splitOnP {cs : List Char} (mem : piece ∈ cs.splitOnP isCut) :
    ∃ before after, cs = before ++ (piece ++ after) ∧ (∀ c ∈ before.getLast?, isCut c = true) ∧
      (∀ c ∈ after.head?, isCut c = true) ∧ ∀ c ∈ piece, isCut c = false := by
  have whole := List.takeWhile_append_dropWhile (p := fun c => !isCut c) (l := cs)
  have free : ∀ c ∈ cs.takeWhile (fun c => !isCut c), isCut c = false := fun c hc => by
    simpa using List.all_eq_true.mp List.all_takeWhile c hc
  cases rest : cs.dropWhile (fun c => !isCut c) with
  | nil =>
    rw [rest, List.append_nil] at whole
    rw [whole] at free
    rw [List.splitOnP_eq_singleton free] at mem
    obtain rfl := List.mem_singleton.mp mem
    exact ⟨[], [], by simp, by simp, by simp, free⟩
  | cons c b =>
    have hit : isCut c = true := by
      have first := List.head?_dropWhile_not (fun c => !isCut c) cs
      simpa [rest] using first
    have shorter : b.length < cs.length := by
      rw [← whole, rest, List.length_append, List.length_cons]
      omega
    rw [← whole, rest, List.splitOnP_append_cons_of_forall_mem free c hit] at mem
    -- The first piece ends at the first cut; the others are pieces of what comes after it.
    rcases List.mem_cons.mp mem with rfl | later
    · exact ⟨[], c :: b, by rw [← rest, whole]; rfl, by simp, by simpa using hit, free⟩
    · obtain ⟨before, after, split, starts, ends, solid⟩ := exists_of_mem_splitOnP later
      refine ⟨cs.takeWhile (fun c => !isCut c) ++ c :: before, after, ?_, ?_, ends, solid⟩
      · rw [List.append_assoc, List.cons_append, ← split, ← rest, whole]
      · intro d last
        rw [List.getLast?_append, List.getLast?_cons, Option.some_or] at last
        cases front : before.getLast? with
        | none =>
          obtain rfl : c = d := by simpa [front] using last
          exact hit
        | some d' =>
          obtain rfl : d' = d := by simpa [front] using last
          exact starts d' front
termination_by cs.length

/-- The pieces reach from cut to cut. -/
theorem mem_cut_iff : piece ∈ cut isCut cs ↔ ∃ before after, cs = before ++ (piece ++ after) ∧
    (∀ c ∈ before.getLast?, isCut c = true) ∧ (∀ c ∈ after.head?, isCut c = true) ∧
    ∀ c ∈ piece, isCut c = false := by
  rw [cut_eq_splitOnP]
  refine ⟨exists_of_mem_splitOnP, ?_⟩
  rintro ⟨before, after, rfl, starts, ends, free⟩
  have last : piece ∈ (piece ++ after).splitOnP isCut := by
    cases after with
    | nil => simp [List.splitOnP_eq_singleton free]
    | cons c after =>
      rw [List.splitOnP_append_cons_of_forall_mem free c (ends c rfl)]
      exact List.mem_cons_self
  rcases List.eq_nil_or_concat before with rfl | ⟨front, c, rfl⟩
  · exact last
  · rw [List.concat_eq_append, List.append_assoc, List.singleton_append,
      List.splitOnP_append_cons _ _ (starts c (by simp))]
    exact List.mem_append_right _ last

theorem mem_entries_iff : e ∈ entries list ↔ IsEntry list e := by
  have separates (c : Char) : (c == ';' || c == ',') = true ↔ Separates c := by
    simp [Separates]
  have free (c : Char) : (c == ';' || c == ',') = false ↔ ¬ Separates c := by
    rw [← separates, Bool.not_eq_true]
  simp only [entries, List.mem_filterMap, List.mem_map, IsEntry]
  constructor
  · rintro ⟨_, ⟨piece, mem, rfl⟩, kept⟩
    split at kept
    · contradiction
    · next filled =>
      cases kept
      obtain ⟨before, after, split, starts, ends, solid⟩ := mem_cut_iff.mp mem
      simp only [separates, free] at starts ends solid
      exact ⟨before, piece, after, split, starts, ends, solid, String.toList_ofList,
        by simpa using filled⟩
  · rintro ⟨before, piece, after, split, starts, ends, solid, trimmed, filled⟩
    refine ⟨_, ⟨piece, mem_cut_iff.mpr ⟨before, after, split, ?_⟩, rfl⟩, ?_⟩
    · simp only [separates, free]
      exact ⟨starts, ends, solid⟩
    · rw [← trimmed, String.ofList_toList]
      simpa using filled

theorem entries_append {c : Char} (h : Separates c) :
    entries (list ++ String.singleton c ++ other) = entries list ++ entries other := by
  have cuts := List.splitOnP_append_cons (p := fun c => c == ';' || c == ',') list.toList
    other.toList (show (c == ';' || c == ',') = true by simpa [Separates] using h)
  simp only [entries, cut_eq_splitOnP, String.toList_append, String.toList_singleton,
    List.append_assoc, List.singleton_append, cuts, List.map_append, List.filterMap_append]

/-! The decision. -/

/-- The normal form of an entry begins that of the path, name by name. -/
def Covered (list path : String) : Prop :=
  ∃ e, IsEntry list e ∧ components (normal e) <+: components (normal path)

theorem permits_iff {isLink : String → Bool} :
    permits isLink path list = true ↔ isLink path = false ∧ Covered list path := by
  simp only [permits, Bool.and_eq_true, Bool.not_eq_true', List.any_eq_true, mem_entries_iff,
    Path.covers_iff, Covered, Path.components_normal]

/-- For every notion of a link and every list: which paths are allowed; when two spellings with one
normal form are decided alike; that all below an allowed path is allowed, and below the only entry
nothing else than what stays there; and that lists add up. -/
theorem permits_decides (isLink : String → Bool) (list : String) :
    (∀ path, permits isLink path list = true ↔ isLink path = false ∧ Covered list path) ∧
    (∀ path spelling, normal path = normal spelling →
      (permits isLink path list = permits isLink spelling list ↔
        isLink path = isLink spelling ∨ ¬ Covered list path)) ∧
    (∀ dir path, permits isLink dir list = true → isLink path = false →
      components (normal dir) <+: components (normal path) → permits isLink path list = true) ∧
    (∀ dir path below, (∀ e, IsEntry list e ↔ e = dir) →
      path.toList = Path.trimChars dir.toList ++ '/' :: below →
      (permits isLink path list = true ↔ isLink path = false ∧
        Path.Stays (Path.resolved dir.toList) (Path.segments below))) ∧
    ∀ other path c, Separates c → permits isLink path (list ++ String.singleton c ++ other) =
      (permits isLink path list || permits isLink path other) := by
  refine ⟨fun path => permits_iff, ?_, ?_, ?_, ?_⟩
  · intro path spelling same
    have covered : Covered list spelling ↔ Covered list path := by rw [Covered, Covered, same]
    rw [Bool.eq_iff_iff, permits_iff, permits_iff, covered]
    cases isLink path <;> cases isLink spelling <;> simp
  · intro dir path allowed spelled below
    obtain ⟨-, e, entry, covers⟩ := permits_iff.mp allowed
    exact permits_iff.mpr ⟨spelled, e, entry, covers.trans below⟩
  · intro dir path below only spelled
    rw [permits_iff, ← Path.covers_iff_stays spelled, Path.covers_iff]
    simp only [Covered, only, exists_eq_left, Path.components_normal]
  · intro other path c separates
    simp only [permits, entries_append separates, List.any_append]
    cases isLink path <;> simp

/-- An entry between blanks and empty pieces, and a path that steps back into it. -/
theorem step_back_into_entry :
    permits (fun _ => false) "/data/y/../x/f" ",/data/x ; /srv" = true ∧
    permits (fun _ => false) "/data/x2/f" ",/data/x ; /srv" = false := by
  refine ⟨((permits_decides (fun _ => false) ",/data/x ; /srv").1 "/data/y/../x/f").mpr
    ⟨rfl, "/data/x", ⟨",".toList, "/data/x ".toList, "; /srv".toList, rfl, ?_, ?_, ?_, ?_, ?_⟩,
      ?_⟩, ?_⟩
  · simp [Separates]
  · simp [Separates]
  · simp [Separates]
  · decide
  · decide
  · decide
  · decide +kernel

theorem lookUp_of_walk {t : FileTree} {follow : Bool} {spot : FileTree.Spot}
    (checked : FileTree.checked path = .ok ())
    (walked : t.walk follow FileTree.maxLinks [FileTree.root] (FileTree.namesOf path) = .ok spot) :
    t.lookUp follow path = .ok spot := by
  rw [FileTree.lookUp, checked, walked]
  rfl

/-- A directory and a link to it. -/
def Sample.linked : FileTree where
  nodes := .ofList [(0, FileNode.directory 0o755 (.ofList [("d", 1), ("l", 2)])),
    (1, FileNode.directory 0o755 ∅), (2, FileNode.link "/d")]
  next := 3

/-- The link is refused, and with a slash after it it is allowed. -/
theorem slash_after_link_allowed :
    Sample.linked.isLink "/l" = true ∧ normal "/l/" = normal "/l" ∧
    permits Sample.linked.isLink "/l" "/" = false ∧
    permits Sample.linked.isLink "/l/" "/" = true := by
  -- The directories are maps, which do not evaluate as a whole: the walk is taken step by step.
  have there : Sample.linked.entryAt FileTree.root "l" = .ok (some 2) := rfl
  have node : Sample.linked.node? 2 = some (.link "/d") := rfl
  have stops : Sample.linked.lookUp false "/l" = .ok (.leaf 2) := by
    have names : FileTree.namesOf "/l" = ["l"] := by decide
    refine lookUp_of_walk rfl ?_
    simp [names, FileTree.walk, there, node]
  have goes : Sample.linked.lookUp false "/l/" = .ok (.directory [1, FileTree.root]) := by
    have names : FileTree.namesOf "/l/" = ["l", ""] := by decide
    have target : FileTree.namesOf "/d" = ["d"] := by decide
    have absolute : FileTree.isAbsolute "/d" = true := by decide
    have entry : Sample.linked.entryAt FileTree.root "d" = .ok (some 1) := rfl
    have dir : Sample.linked.node? 1 = some (.directory 0o755 ∅) := rfl
    refine lookUp_of_walk rfl ?_
    simp [names, FileTree.walk, FileTree.maxLinks, there, node, target, absolute, entry, dir]
  have link : Sample.linked.isLink "/l" = true := by
    rw [FileTree.isLink, stops]
    rfl
  have beyond : Sample.linked.isLink "/l/" = false := by
    rw [FileTree.isLink, goes]
    rfl
  have covered : (entries "/").any (fun e => Path.covers e "/l/") = true := by decide +kernel
  refine ⟨link, by decide, ?_, ?_⟩
  · rw [permits, link, Bool.not_true, Bool.false_and]
  · rw [permits, beyond, covered, Bool.not_false, Bool.and_true]

end Allowlist
end DataGrid
