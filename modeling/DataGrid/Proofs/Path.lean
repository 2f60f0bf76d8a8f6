import DataGrid.Path
import DataGrid.Directory

/-! Paths and the places above them. A place is above a path if the path goes on from it with a
slash; every rung on the way to the parent of a path is above the path. -/
namespace DataGrid.Path
open Text

/-- The path is the place, a slash and more. -/
def Above (place path : String) : Prop :=
  ∃ rest, path.toList = place.toList ++ '/' :: rest

theorem not_above_self (p : String) : ¬ Above p p := by
  rintro ⟨rest, split⟩
  have := congrArg List.length split
  simp at this

theorem exists_append_trimChars (p : List Char) :
    ∃ slashes, p = trimChars p ++ slashes ∧ ∀ c ∈ slashes, c = '/' := by
  obtain ⟨slashes, split, all⟩ := exists_append_dropEndWhile isSlash p
  exact ⟨slashes, split, by simpa [isSlash] using all⟩

theorem trimChars_append_slashes (p : List Char) {slashes : List Char}
    (all : ∀ c ∈ slashes, c = '/') : trimChars (p ++ slashes) = trimChars p :=
  dropEndWhile_append_of_all p (by simpa [isSlash] using all)

theorem trimChars_trimChars (p : List Char) : trimChars (trimChars p) = trimChars p := by
  obtain ⟨slashes, split, all⟩ := exists_append_trimChars p
  calc trimChars (trimChars p) = trimChars (trimChars p ++ slashes) :=
        (trimChars_append_slashes _ all).symm
    _ = trimChars p := by rw [← split]

theorem trim_trim (p : String) : trim (trim p) = trim p := by
  rw [trim, trim, String.toList_ofList, trimChars_trimChars]

theorem getLast?_trimChars (p : List Char) : (trimChars p).getLast? ≠ some '/' := by
  intro last
  have first := List.head?_dropWhile_not isSlash p.reverse
  rw [trimChars, dropEndWhile, List.getLast?_reverse] at last
  rw [last] at first
  simp [isSlash] at first

theorem trimChars_of_last {p : List Char} (last : p.getLast? ≠ some '/') : trimChars p = p := by
  rcases List.eq_nil_or_concat p with rfl | ⟨init, c, rfl⟩
  · rfl
  · rw [List.concat_eq_append] at last ⊢
    exact dropEndWhile_append_of_neg init (by simpa [isSlash] using last)

theorem trim_append_slashes (p : String) (n : Nat) :
    trim (p ++ String.ofList (List.replicate n '/')) = trim p := by
  rw [trim, trim, String.toList_append, String.toList_ofList,
    trimChars_append_slashes _ fun c mem => List.eq_of_mem_replicate mem]

/-- `base` is the path without the slashes at its end. -/
structure Trims (p base : String) : Prop where
  spelled : ∃ n, p = base ++ String.ofList (List.replicate n '/')
  last : base.toList.getLast? ≠ some '/'

theorem trims_iff {p base : String} : Trims p base ↔ base = trim p := by
  constructor
  · rintro ⟨⟨n, rfl⟩, last⟩
    rw [trim_append_slashes, trim, trimChars_of_last last, String.ofList_toList]
  · rintro rfl
    obtain ⟨slashes, split, all⟩ := exists_append_trimChars p.toList
    refine ⟨⟨slashes.length, ?_⟩, by simpa [trim] using getLast?_trimChars p.toList⟩
    rw [← String.toList_inj, ← List.eq_replicate_of_mem all]
    simpa [trim] using split

/-- A place without its trailing slashes is above the same paths. -/
theorem Above.trim {place path : String} (h : Above place path) : Above (trim place) path := by
  obtain ⟨rest, hrest⟩ := h
  obtain ⟨slashes, split, all⟩ := exists_append_trimChars place.toList
  rw [split] at hrest
  cases slashes with
  | nil => exact ⟨rest, by simpa [Path.trim] using hrest⟩
  | cons c cs =>
    rw [all c List.mem_cons_self] at hrest
    exact ⟨cs ++ '/' :: rest, by simpa [Path.trim] using hrest⟩

/-- Without their trailing slashes, a place and what it is above may be one place. -/
theorem trim_of_above {place path : String} (h : Above place path) :
    trim place = trim path ∨ Above (trim place) (trim path) := by
  obtain ⟨rest, below⟩ := h.trim
  obtain ⟨slashes, split, all⟩ := exists_append_trimChars path.toList
  have spelled : trimChars place.toList ++ '/' :: rest = trimChars path.toList ++ slashes := by
    rw [← split, below, trim, String.toList_ofList]
  rcases List.append_eq_append_iff.mp spelled with ⟨gap, longer, tail⟩ | ⟨gap, shorter, tail⟩
  · cases gap with
    | nil => exact .inl (by simp [trim, longer])
    | cons c cs =>
      obtain ⟨rfl, -⟩ := List.cons.inj tail
      exact .inr ⟨cs, by simpa [trim] using longer⟩
  · have trailing : ∀ c ∈ gap, c = '/' := fun c hc => all c (tail ▸ List.mem_append_left _ hc)
    have same : trimChars place.toList = trimChars path.toList := by
      rw [← trimChars_trimChars, shorter, trimChars_append_slashes _ trailing, trimChars_trimChars]
    exact .inl (by rw [trim, same, trim])

/-! The text up to the next slash, and what is left. -/

theorem slash_not_mem_takeWhile (cs : List Char) : '/' ∉ cs.takeWhile fun c => !isSlash c := by
  intro mem
  simpa [isSlash] using List.all_eq_true.mp List.all_takeWhile '/' mem

theorem head?_dropWhile_slash (cs : List Char) :
    ∀ c ∈ (cs.dropWhile fun c => !isSlash c).head?, c = '/' := by
  intro c hc
  have first := List.head?_dropWhile_not (fun c => !isSlash c) cs
  rw [hc] at first
  simpa [isSlash] using first

/-- The name after the last slash, and what is before it. -/
theorem split?_eq_some {path parent leaf : String} (h : split? path = some (parent, leaf)) :
    '/' ∉ leaf.toList ∧
      (parent = "/" ∧ path.toList = '/' :: leaf.toList ∨
        path.toList = parent.toList ++ '/' :: leaf.toList) := by
  have whole := List.takeWhile_append_dropWhile (p := fun c => !isSlash c)
    (l := path.toList.reverse)
  simp only [split?] at h
  cases hd : path.toList.reverse.dropWhile (fun c => !isSlash c) with
  | nil => simp [hd] at h
  | cons slash rest =>
    have hs : slash = '/' := head?_dropWhile_slash path.toList.reverse slash (by rw [hd]; rfl)
    rw [hd] at h whole
    simp only [Option.some.injEq, Prod.mk.injEq] at h
    obtain ⟨rfl, rfl⟩ := h
    have back := congrArg List.reverse whole
    simp only [List.reverse_append, List.reverse_cons, List.reverse_reverse, hs] at back
    refine ⟨by simpa using slash_not_mem_takeWhile path.toList.reverse, ?_⟩
    cases rest with
    | nil => exact .inl ⟨rfl, by simpa using back.symm⟩
    | cons c cs => exact .inr (by simpa using back.symm)

/-- A path without its trailing slashes is the path itself or above it, and never the root. -/
theorem trim_eq_or_above (path : String) : trim path = path ∨ Above (trim path) path := by
  obtain ⟨slashes, split, all⟩ := exists_append_trimChars path.toList
  cases slashes with
  | nil =>
    rw [List.append_nil] at split
    exact .inl (by rw [trim, ← split, String.ofList_toList])
  | cons c cs =>
    rw [all c List.mem_cons_self] at split
    exact .inr ⟨cs, by rw [trim, String.toList_ofList]; exact split⟩

theorem trim_ne_root (path : String) : trim path ≠ "/" := by
  intro root
  have chars : trimChars path.toList = ['/'] := String.ofList_inj.mp root
  exact getLast?_trimChars path.toList (by rw [chars]; rfl)

/-- Of what is above a path nothing comes after its parent. -/
theorem Above.of_split? {place path parent leaf : String} (h : Above place path)
    (split : split? path = some (parent, leaf)) :
    place = "" ∨ place = parent ∨ Above place parent := by
  obtain ⟨rest, hrest⟩ := h
  obtain ⟨free, whole⟩ := split?_eq_some split
  -- The slash after the place is the last one, or it lies in what comes before the last one.
  have cut {before : List Char} (same : path.toList = before ++ '/' :: leaf.toList) :
      place.toList = before ∨ ∃ more, before = place.toList ++ '/' :: more := by
    rcases List.append_eq_append_iff.mp (hrest.symm.trans same) with ⟨gap, hb, hr⟩ | ⟨gap, hp, hr⟩
    · cases gap with
      | nil => exact .inl (by simpa using hb.symm)
      | cons c cs =>
        obtain ⟨rfl, -⟩ := List.cons.inj hr
        exact .inr ⟨cs, hb⟩
    · cases gap with
      | nil => exact .inl (by simpa using hp)
      | cons c cs =>
        obtain ⟨-, leaf⟩ := List.cons.inj hr
        rw [leaf] at free
        simp at free
  rcases whole with ⟨-, same⟩ | same
  · rcases cut (same.trans (List.nil_append _).symm) with none | ⟨more, none⟩
    · exact .inl (by simpa using none)
    · simp at none
  · rcases cut same with place | ⟨more, above⟩
    · exact .inr (.inl (String.toList_inj.mp place))
    · exact .inr (.inr ⟨more, above⟩)

theorem Above.eq_empty_of_root {place : String} (h : Above place "/") : place = "" := by
  obtain ⟨rest, hrest⟩ := h
  cases chars : place.toList with
  | nil => exact String.toList_inj.mp chars
  | cons c cs =>
    rw [chars] at hrest
    simp at hrest

theorem exists_leaf_of_parent {path : String} (h : parent path ≠ "") :
    ∃ leaf, split? path = some (parent path, leaf) := by
  rw [parent] at h ⊢
  cases split : split? path with
  | some parts => exact ⟨parts.2, rfl⟩
  | none => simp [split] at h

theorem eq_append_of_below? {root p rest : List Char} (h : below? root p = some rest) :
    p = root ++ rest ∧ ∀ c ∈ rest.head?, c = '/' := by
  rw [below?] at h
  split at h
  · next hs => cases h; exact ⟨by simpa using eq_append_of_stripLead? hs, by simp⟩
  · next hs =>
    split at h
    · next hc => cases h; exact ⟨eq_append_of_stripLead? hs, by simp [hc]⟩
    · contradiction
  · contradiction

/-- A rung ends before a slash of the path or is the whole path. -/
theorem eq_append_of_mem_rungs {base rest rung : List Char} (h : rung ∈ rungs base rest) :
    ∃ more, base ++ rest = rung ++ more ∧ ∀ c ∈ more.head?, c = '/' := by
  induction base, rest using rungs.induct with
  | case1 base => simp [rungs] at h
  | case2 base c cs seg next ih =>
    have whole : seg ++ cs.dropWhile (fun d => !isSlash d) = cs := List.takeWhile_append_dropWhile
    rw [rungs] at h
    rcases List.mem_cons.mp h with rfl | h
    · exact ⟨cs.dropWhile fun d => !isSlash d, by simp, head?_dropWhile_slash cs⟩
    · obtain ⟨more, split, first⟩ := ih h
      refine ⟨more, ?_, first⟩
      rw [← split]
      simp [next, whole]

theorem ne_nil_of_mem_rungs {base rest rung : List Char} (h : rung ∈ rungs base rest) :
    rung ≠ [] := by
  induction base, rest using rungs.induct with
  | case1 base => simp [rungs] at h
  | case2 base c cs seg next ih =>
    rw [rungs] at h
    rcases List.mem_cons.mp h with rfl | h
    · simp
    · exact ih h

end DataGrid.Path

namespace DataGrid.Directory
open Text

theorem isUnder_append (start rest : List Char) :
    isUnder (start ++ rest) start = (rest.isEmpty || rest.head? == some '/') := by
  rw [isUnder, stripLead?_append]
  cases start with
  | nil => rfl
  | cons c cs => rfl

/-- The case of the root answers as the other one would. -/
theorem isUnder_eq (dest start : List Char) :
    isUnder dest start = (Path.below? start dest).isSome := by
  cases strip : stripLead? start dest with
  | none =>
    cases start with
    | nil => simp [stripLead?] at strip
    | cons c cs => simp [isUnder, Path.below?, strip]
  | some rest =>
    rw [eq_append_of_stripLead? strip, isUnder_append, Path.below?, stripLead?_append]
    cases rest with
    | nil => rfl
    | cons c cs => by_cases slash : c = '/' <;> simp [slash]

end DataGrid.Directory
