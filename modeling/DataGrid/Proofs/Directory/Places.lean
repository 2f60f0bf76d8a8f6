import DataGrid.Proofs.Directory.Scans
import Mathlib.Data.List.Infix
import Mathlib.Data.List.Sort
import Mathlib.Data.List.TakeWhile

/-! The places of a directory walk. A path has a boundary before each slash and at its end; the
beginnings of the path up to its boundaries are the path itself and all that is above it. A walk
from a start to a destination can be at the boundaries of the destination that are longer than
the start, and each of them has just one name more than the one before it. -/
namespace DataGrid.Path

/-- The beginnings of the path that end before a slash or with the path, shortest first. -/
def boundaries (p : String) : List String :=
  (p.toList.inits.filter fun b => (p.toList.drop b.length).head?.all isSlash).map String.ofList

theorem mem_boundaries_iff {b p : String} : b ∈ boundaries p ↔ b = p ∨ Above b p := by
  simp only [boundaries, List.mem_map, List.mem_filter, List.mem_inits]
  constructor
  · rintro ⟨front, ⟨⟨rest, split⟩, first⟩, rfl⟩
    rw [← split, List.drop_left] at first
    cases rest with
    | nil => exact .inl (by rw [← String.toList_inj, ← split]; simp)
    | cons c cs =>
      have slash : c = '/' := by simpa [isSlash] using first
      exact .inr ⟨cs, by rw [← split, slash]; simp⟩
  · rintro (rfl | ⟨rest, split⟩)
    · exact ⟨b.toList, ⟨List.prefix_refl _, by simp⟩, by simp⟩
    · exact ⟨b.toList, ⟨⟨_, split.symm⟩, by rw [split, List.drop_left]; rfl⟩, by simp⟩

theorem inits_ascending {α : Type} (l : List α) :
    l.inits.Pairwise fun a b => a.length < b.length := by
  induction l with
  | nil => simp
  | cons c cs ih =>
    rw [List.inits_cons, List.pairwise_cons, List.pairwise_map]
    refine ⟨by simp, ih.imp ?_⟩
    intro a b shorter
    simpa using shorter

theorem boundaries_ascending (p : String) :
    (boundaries p).Pairwise fun a b => a.length < b.length := by
  rw [boundaries, List.pairwise_map]
  refine ((inits_ascending p.toList).filter _).imp ?_
  intro a b shorter
  simpa using shorter

/-- A boundary can be cut at: it is a position of the path, and so is the one after the slash. -/
theorem isValid_of_mem_boundaries {b p : String} (h : b ∈ boundaries p) :
    b.rawEndPos.IsValid p ∧ (b = p ∨ (b ++ "/").rawEndPos.IsValid p) := by
  simp only [String.Pos.Raw.isValid_iff_exists_append]
  rcases mem_boundaries_iff.mp h with rfl | ⟨rest, split⟩
  · exact ⟨⟨b, "", by simp, rfl⟩, .inl rfl⟩
  · refine ⟨⟨b, String.ofList ('/' :: rest), ?_, rfl⟩, .inr ⟨b ++ "/", String.ofList rest, ?_, rfl⟩⟩
    · rw [← String.toList_inj, split]
      simp
    · rw [← String.toList_inj, split]
      simp

/-- The path is the parent, a slash and a name; the parent of a name after the first slash is the
root. -/
inductive Splits : (path parent name : String) → Prop
  | root {name : String} (free : '/' ∉ name.toList) : Splits ("/" ++ name) "/" name
  | below {parent name : String} (free : '/' ∉ name.toList) (filled : parent ≠ "") :
      Splits (parent ++ "/" ++ name) parent name

theorem split?_slash {parent name : String} (free : '/' ∉ name.toList) :
    split? (parent ++ "/" ++ name) = some (if parent = "" then "/" else parent, name) := by
  have spelled : parent ++ "/" ++ name = String.ofList (parent.toList ++ '/' :: name.toList) := by
    rw [← String.toList_inj]
    simp
  rw [spelled, split?_concat free]
  by_cases empty : parent = "" <;> simp [empty]

theorem split?_eq_some_iff {path parent name : String} :
    split? path = some (parent, name) ↔ Splits path parent name := by
  constructor
  · intro h
    obtain ⟨free, ⟨rfl, whole⟩ | whole⟩ := split?_eq_some h
    · obtain rfl : path = "/" ++ name := by
        rw [← String.toList_inj, whole]
        simp
      exact .root free
    · obtain rfl : path = parent ++ "/" ++ name := by
        rw [← String.toList_inj, whole]
        simp
      refine .below free ?_
      rintro rfl
      rw [split?_slash free] at h
      simp at h
  · rintro (free | ⟨free, filled⟩)
    · have top : split? ("" ++ "/" ++ name) = some (_, name) := split?_slash free
      simpa using top
    · rw [split?_slash free, if_neg filled]

theorem split?_eq_none_iff {path : String} : split? path = none ↔ '/' ∉ path.toList := by
  constructor
  · intro none mem
    simp only [split?] at none
    split at none
    · next passed =>
      rw [List.dropWhile_eq_nil_iff] at passed
      simpa [isSlash] using passed '/' (List.mem_reverse.mpr mem)
    · contradiction
  · intro free
    cases split : split? path with
    | none => rfl
    | some parts =>
      obtain ⟨-, ⟨-, whole⟩ | whole⟩ := split?_eq_some split <;> simp [whole] at free

theorem below?_eq_some_iff {root p rest : List Char} :
    below? root p = some rest ↔ p = root ++ rest ∧ ∀ c ∈ rest.head?, c = '/' := by
  constructor
  · exact eq_append_of_below?
  · rintro ⟨rfl, first⟩
    rw [below?, Text.stripLead?_append]
    cases rest with
    | nil => rfl
    | cons c cs => simp [first c rfl]

instance : Trans Above Above Above where
  trans := by
    rintro a b c ⟨rest, below⟩ ⟨more, further⟩
    exact ⟨rest ++ '/' :: more, by simp [further, below]⟩

/-! Rungs. -/

theorem rungs_ascending (base rest : List Char) :
    (∀ rung ∈ rungs base rest, base.length < rung.length) ∧
      (rungs base rest).Pairwise fun a b => a.length < b.length := by
  induction base, rest using rungs.induct with
  | case1 base => simp [rungs]
  | case2 base c cs seg next ih =>
    have longer : base.length < next.length := by simp [next]
    obtain ⟨above, ascending⟩ := ih
    rw [rungs, List.forall_mem_cons, List.pairwise_cons]
    exact ⟨⟨longer, fun rung mem => Nat.lt_trans longer (above rung mem)⟩, above, ascending⟩

/-- The second place has one name more than the first. -/
def OneFurther (b b' : String) : Prop := ∃ name, '/' ∉ name ∧ b'.toList = b.toList ++ '/' :: name

theorem OneFurther.above {b b' : String} (h : OneFurther b b') : Above b b' := by
  obtain ⟨name, -, split⟩ := h
  exact ⟨name, split⟩

theorem OneFurther.parent {b b' : String} (h : OneFurther b b') :
    Path.parent b' = if b = "" then "/" else b := by
  obtain ⟨name, free, split⟩ := h
  have cut := split?_concat free b.toList
  rw [← split, String.ofList_toList] at cut
  rw [Path.parent, cut]
  by_cases empty : b = "" <;> simp [empty]

theorem rungs_chain (base rest : List Char) (first : ∀ c ∈ rest.head?, c = '/') :
    (String.ofList base :: (rungs base rest).map String.ofList).IsChain OneFurther := by
  induction base, rest using rungs.induct with
  | case1 base => simp [rungs]
  | case2 base c cs seg next ih =>
    rw [rungs, List.map_cons, List.isChain_cons_cons]
    refine ⟨⟨seg, slash_not_mem_takeWhile cs, ?_⟩, ih (head?_dropWhile_slash cs)⟩
    simp [seg, first c rfl]

end DataGrid.Path

namespace DataGrid.Directory
open DataGrid.Path (trim boundaries mem_boundaries_iff OneFurther)

variable {start dest place : String}

/-- The places from just below `start` down to `dest`: the boundaries of `dest` that are longer
than `start`, both without trailing slashes. -/
def stages (start dest : String) : List String :=
  (boundaries (trim dest)).filter fun b => (trim start).length < b.length

theorem mem_stages_iff : place ∈ stages start dest ↔
    (place = trim dest ∨ Path.Above place (trim dest)) ∧ (trim start).length < place.length := by
  rw [stages, List.mem_filter, mem_boundaries_iff, decide_eq_true_eq]

theorem stages_ascending (start dest : String) :
    (stages start dest).Pairwise fun a b => a.length < b.length :=
  (Path.boundaries_ascending _).filter _

theorem stages_nodup (start dest : String) : (stages start dest).Nodup := by
  refine (stages_ascending start dest).imp ?_
  rintro a b shorter rfl
  exact Nat.lt_irrefl _ shorter

theorem trim_mem_boundaries_iff : trim start ∈ boundaries (trim dest) ↔
    ∃ rest, Path.below? (Path.trimChars start.toList) (Path.trimChars dest.toList) = some rest := by
  simp only [mem_boundaries_iff, Path.below?_eq_some_iff, trim, Path.Above, String.toList_ofList,
    String.ofList_inj]
  constructor
  · rintro (same | ⟨rest, split⟩)
    · exact ⟨[], by simp [same], by simp⟩
    · exact ⟨'/' :: rest, split, by simp⟩
  · rintro ⟨rest, split, first⟩
    cases rest with
    | nil => exact .inl (by simp [split])
    | cons c cs => exact .inr ⟨cs, by rw [split, first c rfl]⟩

theorem rungs_eq_stages {rest : List Char}
    (below : Path.below? (Path.trimChars start.toList) (Path.trimChars dest.toList) = some rest) :
    (Path.rungs (Path.trimChars start.toList) rest).map String.ofList = stages start dest := by
  obtain ⟨split, first⟩ := Path.below?_eq_some_iff.mp below
  obtain ⟨longer, ascending⟩ := Path.rungs_ascending (Path.trimChars start.toList) rest
  have ordered : Std.Antisymm fun a b : String => a.length < b.length :=
    ⟨fun a b h h' => absurd h (Nat.lt_asymm h')⟩
  have strict : Std.Irrefl fun a b : String => a.length < b.length := ⟨fun a => Nat.lt_irrefl _⟩
  refine List.Pairwise.eq_of_mem_iff ?_ (stages_ascending start dest) ?_
  · rw [List.pairwise_map]
    refine ascending.imp ?_
    intro a b shorter
    simpa using shorter
  intro place
  simp only [List.mem_map, mem_stages_iff, Path.Above, trim, String.length_ofList]
  constructor
  · rintro ⟨rung, mem, rfl⟩
    refine ⟨?_, by simpa using longer rung mem⟩
    obtain ⟨more, whole, next⟩ := Path.eq_append_of_mem_rungs mem
    rw [← split] at whole
    cases more with
    | nil => exact .inl (by simp [whole])
    | cons c cs => exact .inr ⟨cs, by simp [whole, next c rfl]⟩
  · rintro ⟨boundary, longer⟩
    have prefixed : ∃ more, Path.trimChars start.toList ++ rest = place.toList ++ more ∧
        ∀ c ∈ more.head?, c = '/' := by
      rcases boundary with rfl | ⟨more, whole⟩
      · exact ⟨[], by simp [split], by simp⟩
      · exact ⟨'/' :: more, by simpa [split] using whole, by simp⟩
    obtain ⟨more, whole, next⟩ := prefixed
    rcases List.append_eq_append_iff.mp whole with ⟨front, hplace, hrest⟩ | ⟨front, hstart, -⟩
    · have some : front ≠ [] := by
        rintro rfl
        simp [← String.length_toList, hplace] at longer
      exact ⟨_, Path.mem_rungs more some hrest next, by simp [← hplace]⟩
    · simp only [← String.length_toList, hstart, List.length_append] at longer
      omega

/-- There is a route if the start is a boundary of the destination. -/
theorem route?_of_mem (inside : trim start ∈ boundaries (trim dest)) :
    route? start dest = some (stages start dest) := by
  obtain ⟨rest, below⟩ := trim_mem_boundaries_iff.mp inside
  rw [route?, below, Option.map_some, rungs_eq_stages below]

theorem route?_of_not_mem (outside : trim start ∉ boundaries (trim dest)) :
    route? start dest = none := by
  rw [route?, Option.map_eq_none_iff, Option.eq_none_iff_forall_ne_some]
  intro rest below
  exact outside (trim_mem_boundaries_iff.mpr ⟨rest, below⟩)

/-- No level is left out on the way down. -/
theorem stages_chain (inside : trim start ∈ boundaries (trim dest)) :
    (trim start :: stages start dest).IsChain OneFurther := by
  obtain ⟨rest, below⟩ := trim_mem_boundaries_iff.mp inside
  rw [← rungs_eq_stages below]
  exact Path.rungs_chain _ rest (Path.below?_eq_some_iff.mp below).2

theorem stages_descend (inside : trim start ∈ boundaries (trim dest)) :
    (trim start :: stages start dest).Pairwise Path.Above :=
  List.isChain_iff_pairwise.mp ((stages_chain inside).imp fun _ _ => OneFurther.above)

end DataGrid.Directory
