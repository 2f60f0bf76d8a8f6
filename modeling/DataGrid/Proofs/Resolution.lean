import DataGrid.Proofs.Segments

/-! Lexical resolution. A way that never steps back adds its names, and one that steps back at
its very end only adds names or takes one away. A path without `/../` is of this kind after its
first segment. So below a place that a slash sets apart it leads where it leads from the root,
and if it goes on from the name of a place without a slash it does not lead below the place. A
way with any steps back is read off from how far up it goes: it stays below where it starts
exactly if it comes back down by the names it went up. -/
namespace DataGrid.Path

/-- The segment that leads to the parent directory. -/
abbrev back : List Char := ['.', '.']

/-- Kept by resolution. -/
def IsName (s : List Char) : Prop := s ≠ [] ∧ s ≠ ['.'] ∧ s ≠ back

instance : DecidablePred IsName := fun _ => inferInstanceAs (Decidable (_ ∧ _ ∧ _))

variable {xs done : List (List Char)} {s p place below : List Char}

theorem IsName.resolveStep (h : IsName s) : resolveStep done s = s :: done := by
  obtain ⟨filled, here, forward⟩ := h
  rw [Path.resolveStep, if_neg (not_or.mpr ⟨filled, here⟩), if_neg forward]

theorem resolveStep_of_not_isName (h : ¬ IsName s) (forward : s ≠ back) :
    resolveStep done s = done := by
  have idle : s = [] ∨ s = ['.'] :=
    Decidable.byContradiction fun some => h ⟨(not_or.mp some).1, (not_or.mp some).2, forward⟩
  rw [resolveStep, if_pos idle]

/-- A name that goes on is a name. -/
theorem IsName.append (h : IsName s) (more : List Char) : IsName (s ++ more) := by
  obtain ⟨filled, here, forward⟩ := h
  match s with
  | [] => contradiction
  | [c] => cases more <;> simp_all [IsName, back]
  | [c, d] => cases more <;> simp_all [IsName, back]
  | c :: d :: e :: s => simp [IsName, back]

/-! Ways down. -/

/-- A way without a step back adds its names. -/
theorem foldl_resolveStep_of_not_mem (forward : back ∉ xs) (done : List (List Char)) :
    xs.foldl resolveStep done = (xs.filter (IsName ·)).reverse ++ done := by
  induction xs generalizing done with
  | nil => rfl
  | cons s xs ih =>
    obtain ⟨hs, hxs⟩ := not_or.mp (mt List.mem_cons.mpr forward)
    rw [List.foldl_cons, ih hxs]
    by_cases name : IsName s
    · simp [name, name.resolveStep]
    · simp [name, resolveStep_of_not_isName name (Ne.symm hs)]

/-- A way that steps back at its end only goes down, or it takes one step back in all. -/
theorem foldl_resolveStep_of_dropLast (forward : back ∉ xs.dropLast) :
    (∃ down, ∀ done, xs.foldl resolveStep done = down ++ done) ∨
      ∀ done, xs.foldl resolveStep done = done.tail := by
  rcases List.eq_nil_or_concat xs with rfl | ⟨ys, s, rfl⟩
  · exact .inl ⟨[], fun _ => rfl⟩
  · rw [List.concat_eq_append, List.dropLast_concat] at forward
    simp only [List.concat_eq_append, List.foldl_append, List.foldl_cons, List.foldl_nil,
      foldl_resolveStep_of_not_mem forward]
    generalize (ys.filter (IsName ·)).reverse = down
    -- The step back undoes the last name of the way or, if it has none, a name before it.
    by_cases last : s = back
    · subst last
      cases down with
      | nil => exact .inr fun _ => rfl
      | cons t down => exact .inl ⟨down, fun _ => rfl⟩
    · by_cases name : IsName s
      · exact .inl ⟨s :: down, fun _ => name.resolveStep⟩
      · exact .inl ⟨down, fun _ => resolveStep_of_not_isName name last⟩

/-- A step back with segments before and after it stands between two slashes. -/
theorem not_mem_dropLast_of_split {front : List (List Char)} (split : segments p = front ++ xs)
    (some : front ≠ []) (free : ¬ '/' :: (back ++ ['/']) <:+: p) : back ∉ xs.dropLast := by
  intro inside
  rcases List.eq_nil_or_concat xs with rfl | ⟨ys, last, rfl⟩
  · contradiction
  · rw [List.concat_eq_append, List.dropLast_concat] at inside
    obtain ⟨before, after, rfl⟩ := List.append_of_mem inside
    obtain ⟨s, front, rfl⟩ := List.exists_cons_of_ne_nil some
    have whole := join_segments p
    rw [split, List.cons_append, join_cons] at whole
    refine free ⟨s ++ spell (front ++ before), (spell (after ++ [last])).tail, ?_⟩
    rw [← whole]
    cases after <;> simp [spell_cons]

/-! Resolved paths. -/

theorem covers_iff {root path : String} :
    covers root path = true ↔ resolved root.toList <+: resolved path.toList :=
  List.isPrefixOf_iff_prefix

theorem resolved_of_not_mem (forward : back ∉ segments p) :
    resolved p = (segments p).filter (IsName ·) := by
  simp [resolved, foldl_resolveStep_of_not_mem forward]

theorem resolved_slash (p : List Char) : resolved ('/' :: p) = resolved p := by
  simp [resolved, segments, resolveStep]

theorem resolved_append_slash (place below : List Char) :
    resolved (place ++ '/' :: below) =
      ((segments below).foldl resolveStep (resolved place).reverse).reverse := by
  simp [resolved, segments_append_slash]

theorem resolved_concat_slash (place : List Char) : resolved (place ++ ['/']) = resolved place := by
  simp [resolved_append_slash, segments, resolveStep]

/-- Below a place, with a slash in between, a path leads where it leads from the root. -/
theorem append_prefix_resolved_iff {names : List (List Char)}
    (free : ¬ '/' :: (back ++ ['/']) <:+: place ++ '/' :: below) (some : names ≠ []) :
    resolved place ++ names <+: resolved (place ++ '/' :: below) ↔ names <+: resolved below := by
  have forward : back ∉ (segments below).dropLast :=
    not_mem_dropLast_of_split (segments_append_slash place below) (segments_ne_nil place) free
  have size : names.length ≠ 0 := mt List.length_eq_zero_iff.mp some
  rw [resolved_append_slash]
  rcases foldl_resolveStep_of_dropLast forward with ⟨down, run⟩ | run
  · have alone : resolved below = down.reverse := by rw [resolved, run, List.append_nil]
    rw [run, alone, List.reverse_append, List.reverse_reverse, List.prefix_append_right_inj]
  · have alone : resolved below = [] := by rw [resolved, run]; rfl
    rw [run, alone]
    constructor
    · intro h
      have deep := h.length_le
      simp only [List.length_append, List.length_reverse, List.length_tail] at deep
      omega
    · intro h
      exact absurd (List.prefix_nil.mp h) some

/-- A path that goes on from a name without a slash does not lead below the place of that name. -/
theorem not_prefix_resolved_append {c : Char} {last : List Char} {front : List (List Char)}
    (split : segments place = front ++ [last]) (name : IsName last) (apart : c ≠ '/')
    (free : ¬ '/' :: (back ++ ['/']) <:+: place ++ c :: below) :
    ¬ resolved place <+: resolved (place ++ c :: below) := by
  obtain ⟨more, tails, longer⟩ : ∃ more tails, segments (c :: below) = (c :: more) :: tails := by
    cases hs : segments below with
    | nil => exact absurd hs (segments_ne_nil below)
    | cons s ss => exact ⟨s, ss, by simp [segments, apart, hs]⟩
  have whole := segments_append split longer
  have forward : back ∉ tails.dropLast :=
    not_mem_dropLast_of_split (whole.trans (List.append_cons ..)) (by simp) free
  have base : resolved place = (last :: front.foldl resolveStep []).reverse := by
    rw [resolved, split, List.foldl_append, List.foldl_cons, List.foldl_nil, name.resolveStep]
  have start : resolved (place ++ c :: below) =
      (tails.foldl resolveStep ((last ++ c :: more) :: front.foldl resolveStep [])).reverse := by
    rw [resolved, whole, List.foldl_append, List.foldl_cons, (name.append _).resolveStep]
  intro h
  rw [base, start, List.reverse_cons] at h
  rcases foldl_resolveStep_of_dropLast forward with ⟨down, run⟩ | run
  · rw [run, List.reverse_append, List.reverse_cons, List.append_assoc,
      List.prefix_append_right_inj] at h
    simp at h
  · rw [run] at h
    have deep := h.length_le
    simp only [List.length_append, List.length_reverse, List.length_singleton,
      List.tail_cons] at deep
    omega

/-! Ways with any steps back. -/

/-- A step back undoes the last name of the way or, if it has none, leads further back. -/
def passageStep (way : Nat × List (List Char)) (s : List Char) : Nat × List (List Char) :=
  if s = [] ∨ s = ['.'] then way
  else if s = back then
    match way.2 with
    | [] => (way.1 + 1, [])
    | _ :: down => (way.1, down)
  else (way.1, s :: way.2)

/-- How many steps back a way takes from where it begins, and the names that it then goes down,
last one first. -/
def passage (xs : List (List Char)) : Nat × List (List Char) := xs.foldl passageStep (0, [])

theorem resolveStep_passage (way : Nat × List (List Char)) :
    resolveStep (way.2 ++ done.drop way.1) s =
      (passageStep way s).2 ++ done.drop (passageStep way s).1 := by
  obtain ⟨steps, down⟩ := way
  by_cases idle : s = [] ∨ s = ['.']
  · simp [resolveStep, passageStep, idle]
  · by_cases last : s = back
    · subst last
      cases down with
      | nil => simp [resolveStep, passageStep]
      | cons t down => simp [resolveStep, passageStep]
    · simp [resolveStep, passageStep, idle, last]

/-- From every place a way takes the same steps back and goes down the same names. -/
theorem foldl_resolveStep_eq_passage (xs done : List (List Char)) :
    xs.foldl resolveStep done = (passage xs).2 ++ done.drop (passage xs).1 := by
  suffices run : ∀ way : Nat × List (List Char),
      xs.foldl resolveStep (way.2 ++ done.drop way.1) =
        (xs.foldl passageStep way).2 ++ done.drop (xs.foldl passageStep way).1 from
    run (0, [])
  induction xs with
  | nil => intro way; rfl
  | cons s xs ih =>
    intro way
    rw [List.foldl_cons, resolveStep_passage, ih, List.foldl_cons]

theorem passage_of_not_mem (forward : back ∉ xs) : (passage xs).1 = 0 := by
  suffices run : ∀ way : Nat × List (List Char), (xs.foldl passageStep way).1 = way.1 from
    run (0, [])
  induction xs with
  | nil => intro way; rfl
  | cons s xs ih =>
    intro way
    obtain ⟨hs, hxs⟩ := not_or.mp (mt List.mem_cons.mpr forward)
    rw [List.foldl_cons, ih hxs, passageStep]
    split
    · rfl
    · rw [if_neg (Ne.symm hs)]

/-- From the place with these names the way leads to it or below it: the names of the place that
it steps back over are the names with which it goes on. -/
def Stays (place xs : List (List Char)) : Prop :=
  place.drop (place.length - (passage xs).1) <+: (passage xs).2.reverse

instance (place xs : List (List Char)) : Decidable (Stays place xs) :=
  inferInstanceAs (Decidable (_ <+: _))

theorem stays_of_not_mem (forward : back ∉ xs) (place : List (List Char)) : Stays place xs := by
  simp [Stays, passage_of_not_mem forward]

theorem prefix_foldl_resolveStep_iff (names : List (List Char)) :
    names <+: (xs.foldl resolveStep names.reverse).reverse ↔ Stays names xs := by
  let kept := names.take (names.length - (passage xs).1)
  let left := names.drop (names.length - (passage xs).1)
  have same : kept ++ left <+: kept ++ (passage xs).2.reverse ↔ left <+: (passage xs).2.reverse :=
    List.prefix_append_right_inj kept
  rw [List.take_append_drop] at same
  rw [foldl_resolveStep_eq_passage, List.reverse_append, List.drop_reverse, List.reverse_reverse]
  exact same

theorem resolved_append_slashes (p : List Char) {slashes : List Char}
    (all : ∀ c ∈ slashes, c = '/') : resolved (p ++ slashes) = resolved p := by
  induction slashes generalizing p with
  | nil => rw [List.append_nil]
  | cons c slashes ih =>
    obtain ⟨rfl, rest⟩ := List.forall_mem_cons.mp all
    rw [List.append_cons, ih _ rest, resolved_concat_slash]

theorem resolved_trimChars (p : List Char) : resolved (trimChars p) = resolved p := by
  obtain ⟨slashes, split, all⟩ := exists_append_trimChars p
  calc resolved (trimChars p) = resolved (trimChars p ++ slashes) :=
        (resolved_append_slashes _ all).symm
    _ = resolved p := by rw [← split]

/-- The parent is resolved like the path without its last segment. -/
theorem resolved_parent {path parent leaf : String} (h : split? path = some (parent, leaf)) :
    resolved parent.toList =
      ((segments path.toList).dropLast.foldl resolveStep []).reverse := by
  obtain ⟨free, whole⟩ := split?_eq_some h
  rcases whole with ⟨rfl, spelled⟩ | spelled
  · rw [spelled, segments, if_pos rfl, segments_of_not_mem free]
    rfl
  · rw [spelled, segments_append_slash, segments_of_not_mem free, List.dropLast_concat]
    rfl

section
variable {root path : String} (spelled : path.toList = trimChars root.toList ++ '/' :: below)
include spelled

/-- A path below a root is in it if the way below the root stays there. -/
theorem covers_iff_stays :
    covers root path = true ↔ Stays (resolved root.toList) (segments below) := by
  rw [covers_iff, spelled, resolved_append_slash, resolved_trimChars, prefix_foldl_resolveStep_iff]

theorem covers_parent_iff_stays {parent leaf : String} (split : split? path = some (parent, leaf)) :
    covers root parent = true ↔ Stays (resolved root.toList) (segments below).dropLast := by
  have base : (segments (trimChars root.toList)).foldl resolveStep [] =
      (resolved root.toList).reverse := by
    rw [← resolved_trimChars, resolved, List.reverse_reverse]
  rw [covers_iff, resolved_parent split, spelled, segments_append_slash,
    List.dropLast_append_of_ne_nil (segments_ne_nil below), List.foldl_append, base,
    prefix_foldl_resolveStep_iff]

end

/-! The third name on a way. -/

theorem exists_prefix_iff_third {names : List (List Char)} :
    (∃ z h, [z, h, s] <+: names) ↔ names[2]? = some s := by
  match names with
  | [] | [_] | [_, _] => simp
  | z :: h :: t :: more => simp [eq_comm]

/-- With three names at the front and no step back the third segment is the third name. -/
theorem third_resolved (third : (segments p)[2]? = some s)
    (names : ∀ t ∈ (segments p).take 3, IsName t) (forward : back ∉ segments p) :
    (resolved p)[2]? = some s := by
  rw [resolved_of_not_mem forward]
  match split : segments p with
  | [] | [_] | [_, _] => simp [split] at third
  | z :: h :: t :: more =>
    simp only [split, List.take_succ_cons, List.take_zero, List.forall_mem_cons] at names
    simpa [split, names] using third

end DataGrid.Path
