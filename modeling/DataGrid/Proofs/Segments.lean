import DataGrid.Proofs.Path

/-! Plain paths: absolute, without empty segments and without a trailing slash. A plain path is
spelled by its names, each after a slash, and spelling is injective; below, the parent of a path
drops the last name, one path is in the tree of another if its names go on from the other's, and
the rungs between two paths spell the prefixes between their names. -/
namespace DataGrid.Path
open Text

/-- Absolute, without empty segments and without a trailing slash. -/
def Plain (p : String) : Prop :=
  ∃ names, names ≠ [] ∧ [] ∉ names ∧ segments p.toList = [] :: names

theorem plain_iff_segments {p : String} : Plain p ↔
    (segments p.toList).head? = some [] ∧ (segments p.toList).tail ≠ [] ∧
      [] ∉ (segments p.toList).tail := by
  constructor
  · rintro ⟨names, filled, full, split⟩
    simp [split, filled, full]
  · rintro ⟨first, filled, full⟩
    refine ⟨_, filled, full, ?_⟩
    cases split : segments p.toList with
    | nil => exact absurd split (segments_ne_nil _)
    | cons s names =>
      rw [split] at first
      cases first
      rfl

instance : DecidablePred Plain := fun _ => decidable_of_iff _ plain_iff_segments.symm

/-- The names, each after a slash. -/
def spell (names : List (List Char)) : List Char := names.flatMap fun s => '/' :: s

def place (names : List (List Char)) : String := String.ofList (spell names)

/-- None is empty and none has a slash. -/
def Proper (names : List (List Char)) : Prop := ∀ s ∈ names, s ≠ [] ∧ '/' ∉ s

variable {names base rest : List (List Char)} {s : List Char}

@[simp] theorem toList_place (names : List (List Char)) : (place names).toList = spell names :=
  String.toList_ofList

@[simp] theorem spell_nil : spell [] = [] := rfl

theorem spell_cons (s : List Char) (names : List (List Char)) :
    spell (s :: names) = '/' :: (s ++ spell names) := rfl

@[simp] theorem spell_append (base rest : List (List Char)) :
    spell (base ++ rest) = spell base ++ spell rest :=
  List.flatMap_append

theorem spell_concat (base : List (List Char)) (s : List Char) :
    spell (base ++ [s]) = spell base ++ '/' :: s := by
  simp [spell_cons]

@[simp] theorem spell_eq_nil_iff : spell names = [] ↔ names = [] := by
  cases names <;> simp [spell_cons]

theorem Proper.left (h : Proper (base ++ rest)) : Proper base :=
  fun s hs => h s (List.mem_append_left rest hs)

theorem Proper.right (h : Proper (base ++ rest)) : Proper rest :=
  fun s hs => h s (List.mem_append_right base hs)

theorem Proper.append (hb : Proper base) (hr : Proper rest) : Proper (base ++ rest) :=
  fun s hs => (List.mem_append.mp hs).elim (hb s) (hr s)

/-- After its first slash or at its end. -/
theorem head?_spell (names : List (List Char)) : ∀ c ∈ (spell names).head?, c = '/' := by
  cases names <;> simp [spell_cons]

/-! Segments of what is spelled. -/

theorem segments_of_not_mem (h : '/' ∉ s) : segments s = [s] := by
  induction s with
  | nil => rfl
  | cons c cs ih =>
    simp only [List.mem_cons, not_or] at h
    simp [segments, Ne.symm h.1, ih h.2]

theorem segments_append_slash (a b : List Char) :
    segments (a ++ '/' :: b) = segments a ++ segments b := by
  induction a with
  | nil => simp [segments]
  | cons c cs ih =>
    by_cases hc : c = '/'
    · simp [segments, hc, ih]
    · cases hs : segments cs with
      | nil => exact absurd hs (segments_ne_nil cs)
      | cons t ts => simp [segments, hc, ih, hs]

theorem segments_append_spell (a : List Char) (h : Proper names) :
    segments (a ++ spell names) = segments a ++ names := by
  induction names generalizing a with
  | nil => simp
  | cons s names ih =>
    have hs : '/' ∉ s := (h s List.mem_cons_self).2
    have rest : Proper names := fun t ht => h t (List.mem_cons_of_mem s ht)
    rw [spell_cons, segments_append_slash, ih s rest, segments_of_not_mem hs]
    rfl

theorem segments_spell (h : Proper names) : segments (spell names) = [] :: names :=
  segments_append_spell [] h

theorem slash_not_mem_segments (p : List Char) : ∀ s ∈ segments p, '/' ∉ s := by
  induction p with
  | nil => simp [segments]
  | cons c cs ih =>
    by_cases hc : c = '/'
    · simpa [segments, hc] using ih
    · cases hs : segments cs with
      | nil => exact absurd hs (segments_ne_nil cs)
      | cons t ts =>
        rw [hs] at ih
        simpa [segments, hc, hs, Ne.symm hc] using ih

theorem join_cons (s : List Char) (names : List (List Char)) :
    join (s :: names) = s ++ spell names := by
  induction names generalizing s with
  | nil => simp [join]
  | cons t names ih => rw [join, ih, spell_cons]

theorem spell_segments (p : List Char) : spell (segments p) = '/' :: p := by
  cases hs : segments p with
  | nil => exact absurd hs (segments_ne_nil p)
  | cons s ss => rw [spell_cons, ← join_cons, ← hs, join_segments]

/-- Without a slash in between, a name goes on. -/
theorem segments_name_append {q t : List Char} {more : List (List Char)} (free : '/' ∉ s)
    (hq : segments q = t :: more) : segments (s ++ q) = (s ++ t) :: more := by
  induction s with
  | nil => exact hq
  | cons c cs ih =>
    obtain ⟨hc, hcs⟩ := not_or.mp (mt List.mem_cons.mpr free)
    simp [segments, Ne.symm hc, ih hcs]

theorem segments_append {p q last t : List Char} {front more : List (List Char)}
    (hp : segments p = front ++ [last]) (hq : segments q = t :: more) :
    segments (p ++ q) = front ++ (last ++ t) :: more := by
  have free : '/' ∉ last := slash_not_mem_segments p last (by simp [hp])
  have whole := join_segments p
  cases front with
  | nil =>
    rw [hp] at whole
    rw [← whole]
    exact segments_name_append free hq
  | cons s front =>
    rw [hp, List.cons_append, join_cons, spell_concat, ← List.append_assoc] at whole
    have before : segments (s ++ spell front) = s :: front := by
      rw [← whole, segments_append_slash, segments_of_not_mem free] at hp
      exact List.append_cancel_right hp
    rw [← whole, List.append_assoc, List.cons_append, segments_append_slash, before,
      segments_name_append free hq]

/-- A plain path is one that proper names spell. -/
theorem plain_iff {p : String} :
    Plain p ↔ ∃ names, names ≠ [] ∧ Proper names ∧ p = place names := by
  constructor
  · rintro ⟨names, some, full, split⟩
    refine ⟨names, some, fun s hs => ⟨fun none => full (none ▸ hs), ?_⟩, ?_⟩
    · exact slash_not_mem_segments p.toList s (by simp [split, hs])
    · have joined := join_segments p.toList
      rw [split, join_cons, List.nil_append] at joined
      rw [place, joined, String.ofList_toList]
  · rintro ⟨names, some, proper, rfl⟩
    exact ⟨names, some, fun none => (proper [] none).1 rfl, by simp [segments_spell proper]⟩

theorem spell_inj (hb : Proper base) (hr : Proper rest) :
    spell base = spell rest ↔ base = rest := by
  constructor
  · intro same
    have := congrArg segments same
    rw [segments_spell hb, segments_spell hr] at this
    exact (List.cons.inj this).2
  · rintro rfl
    rfl

theorem place_inj (hb : Proper base) (hr : Proper rest) :
    place base = place rest ↔ base = rest := by
  rw [place, place, String.ofList_inj, spell_inj hb hr]

theorem place_ne_root (h : Proper names) : place names ≠ "/" := by
  intro root
  have chars : spell names = ['/'] := by simpa using congrArg String.toList root
  cases names with
  | nil => contradiction
  | cons s names =>
    rw [spell_cons] at chars
    have none : s ++ spell names = [] := (List.cons.inj chars).2
    exact (h s List.mem_cons_self).1 (List.append_eq_nil_iff.mp none).1

/-! The end of a path. -/

theorem trimChars_spell (h : Proper names) : trimChars (spell names) = spell names := by
  rcases List.eq_nil_or_concat names with rfl | ⟨base, s, rfl⟩
  · rfl
  · obtain ⟨filled, free⟩ := h s (by simp)
    obtain ⟨init, c, rfl⟩ := (List.eq_nil_or_concat s).resolve_left filled
    simp only [List.concat_eq_append, List.mem_append, List.mem_singleton, not_or] at free
    have hc : isSlash c = false := by
      simpa [isSlash] using Ne.symm free.2
    simp only [List.concat_eq_append]
    have split : spell (base ++ [init ++ [c]]) = (spell base ++ '/' :: init) ++ [c] := by
      simp [spell_cons]
    rw [split, trimChars, dropEndWhile_append_of_neg _ hc]

@[simp] theorem trim_place (h : Proper names) : trim (place names) = place names := by
  rw [trim, toList_place, trimChars_spell h, place]

theorem takeWhile_name (free : '/' ∉ s) (more : List Char) (first : ∀ c ∈ more.head?, c = '/') :
    (s ++ more).takeWhile (fun d => !isSlash d) = s ∧
      (s ++ more).dropWhile (fun d => !isSlash d) = more := by
  have pass : ∀ d ∈ s, (!isSlash d) = true := by
    intro d hd
    have : d ≠ '/' := fun same => free (same ▸ hd)
    simpa [isSlash] using this
  rw [List.takeWhile_append_of_pos pass, List.dropWhile_append_of_pos pass]
  cases more with
  | nil => simp
  | cons c cs => simp [first c rfl, isSlash]

theorem split?_concat (h : '/' ∉ s) (before : List Char) :
    split? (String.ofList (before ++ '/' :: s)) =
      some (String.ofList (if before.isEmpty then ['/'] else before), String.ofList s) := by
  have free : '/' ∉ s.reverse := by simpa using h
  obtain ⟨name, others⟩ := takeWhile_name free ('/' :: before.reverse) (by simp)
  have back : (before ++ '/' :: s).reverse = s.reverse ++ '/' :: before.reverse := by simp
  simp only [split?, String.toList_ofList, back, name, others]
  simp

theorem split?_place (h : Proper (base ++ [s])) :
    split? (place (base ++ [s])) =
      some (if base = [] then "/" else place base, String.ofList s) := by
  rw [place, spell_concat, split?_concat (h s (by simp)).2]
  cases base with
  | nil => rfl
  | cons t base => simp [spell_cons, place]

theorem parent_place (h : Proper (base ++ [s])) :
    parent (place (base ++ [s])) = if base = [] then "/" else place base := by
  simp [parent, split?_place h]

/-! Trees and the way down. -/

theorem below?_spell {more : List Char} (hb : Proper base) (hn : Proper names) :
    below? (spell base) (spell names) = some more ↔
      ∃ tail, names = base ++ tail ∧ more = spell tail := by
  constructor
  · intro h
    obtain ⟨split, first⟩ := eq_append_of_below? h
    cases more with
    | nil =>
      rw [List.append_nil, spell_inj hn hb] at split
      exact ⟨[], by simp [split], rfl⟩
    | cons c cs =>
      rw [first c rfl] at split
      have joined := congrArg segments split
      rw [segments_spell hn, segments_append_slash, segments_spell hb] at joined
      exact ⟨segments cs, (List.cons.inj joined).2, by rw [first c rfl, spell_segments]⟩
  · rintro ⟨tail, rfl, rfl⟩
    rw [spell_append, below?, stripLead?_append]
    cases tail <;> simp [spell_cons]

/-- A path is in the tree of another, as it is spelled, exactly if its segments go on from the
other's. -/
theorem isSome_below?_iff {root p : List Char} :
    (below? root p).isSome = true ↔ segments root <+: segments p := by
  rw [Option.isSome_iff_exists]
  constructor
  · rintro ⟨rest, below⟩
    obtain ⟨rfl, first⟩ := eq_append_of_below? below
    cases rest with
    | nil => simp
    | cons c cs =>
      rw [first c rfl, segments_append_slash]
      exact List.prefix_append _ _
  · rintro ⟨more, split⟩
    have spelled : p = root ++ spell more := by
      have both := congrArg spell split
      rw [spell_append, spell_segments, spell_segments] at both
      exact (List.cons.inj both).2.symm
    refine ⟨spell more, ?_⟩
    rw [spelled, below?, stripLead?_append]
    cases more <;> simp [spell_cons]

theorem trimChars_of_trim {p : String} (h : trim p = place names) :
    trimChars p.toList = spell names :=
  String.ofList_inj.mp h

/-- A path lies in the tree of another exactly if its names begin with the other's. -/
theorem within_iff {p root : String} (hp : trim p = place names) (hr : trim root = place base)
    (hn : Proper names) (hb : Proper base) : within p root = true ↔ base <+: names := by
  rw [within, isSome_below?_iff, trimChars_of_trim hp, trimChars_of_trim hr, segments_spell hn,
    segments_spell hb, List.cons_prefix_cons, and_iff_right rfl]

/-- The prefixes between `base` and `base` with the rest, shortest first. -/
def ladder (base : List (List Char)) : List (List Char) → List (List (List Char))
  | [] => []
  | s :: rest => (base ++ [s]) :: ladder (base ++ [s]) rest

/-- The first rung of a way is at the end of its first name. -/
theorem rungs_name {more : List Char} (free : '/' ∉ s) (first : ∀ d ∈ more.head?, d = '/')
    (base : List Char) (c : Char) :
    rungs base (c :: (s ++ more)) = (base ++ c :: s) :: rungs (base ++ c :: s) more := by
  obtain ⟨name, others⟩ := takeWhile_name free more first
  rw [rungs, name, others]

theorem rungs_spell (base : List (List Char)) (h : Proper rest) :
    rungs (spell base) (spell rest) = (ladder base rest).map spell := by
  induction rest generalizing base with
  | nil => simp [rungs, ladder]
  | cons s rest ih =>
    rw [spell_cons, rungs_name (h s List.mem_cons_self).2 (head?_spell rest), ← spell_concat]
    rw [ih _ fun t ht => h t (List.mem_cons_of_mem s ht)]
    rfl

theorem mem_ladder_iff {rung : List (List Char)} :
    rung ∈ ladder base rest ↔
      ∃ front back, rest = front ++ back ∧ front ≠ [] ∧ rung = base ++ front := by
  induction rest generalizing base with
  | nil =>
    simp only [ladder, List.not_mem_nil, false_iff]
    rintro ⟨front, back, split, some, -⟩
    exact some (List.append_eq_nil_iff.mp split.symm).1
  | cons s rest ih =>
    rw [ladder, List.mem_cons, ih]
    constructor
    · rintro (rfl | ⟨front, back, rfl, -, rfl⟩)
      · exact ⟨[s], rest, rfl, by simp, rfl⟩
      · exact ⟨s :: front, back, rfl, by simp, by simp⟩
    · rintro ⟨front, back, split, some, rfl⟩
      cases front with
      | nil => contradiction
      | cons t front =>
        obtain ⟨rfl, rfl⟩ := List.cons.inj split
        cases front with
        | nil => exact .inl rfl
        | cons u front => exact .inr ⟨u :: front, back, rfl, by simp, by simp⟩

theorem mem_ladder_of_split {front back : List (List Char)} (h : rest = front ++ s :: back) :
    base ++ front ++ [s] ∈ ladder base rest :=
  mem_ladder_iff.mpr ⟨front ++ [s], back, by simp [h], by simp, by simp⟩

theorem ladder_append (base front back : List (List Char)) :
    ladder base (front ++ back) = ladder base front ++ ladder (base ++ front) back := by
  induction front generalizing base with
  | nil => simp [ladder]
  | cons s front ih => simp [ladder, ih]

/-- A ladder that is cut is two ladders. -/
theorem ladder_split {known missing : List (List (List Char))}
    (h : ladder base rest = known ++ missing) :
    ∃ front back, rest = front ++ back ∧ known = ladder base front ∧
      missing = ladder (base ++ front) back := by
  induction known generalizing base rest with
  | nil => exact ⟨[], rest, rfl, rfl, by simpa using h.symm⟩
  | cons rung known ih =>
    cases rest with
    | nil => simp [ladder] at h
    | cons s rest =>
      obtain ⟨rfl, tail⟩ := List.cons.inj h
      obtain ⟨front, back, rfl, rfl, rfl⟩ := ih tail
      exact ⟨s :: front, back, rfl, rfl, by simp⟩

/-- What is above a plain path is spelled by the first of its names. -/
theorem above_place_iff {p : String} (h : Proper names) :
    Above p (place names) ↔ ∃ front back, names = front ++ back ∧ back ≠ [] ∧ p = place front := by
  constructor
  · rintro ⟨more, split⟩
    have joined := congrArg segments split
    rw [toList_place, segments_spell h, segments_append_slash] at joined
    cases parts : segments p.toList with
    | nil => exact absurd parts (segments_ne_nil _)
    | cons s front =>
      rw [parts] at joined
      obtain ⟨rfl, rfl⟩ := List.cons.inj (joined.trans (List.cons_append ..))
      refine ⟨front, segments more, rfl, segments_ne_nil more, ?_⟩
      rw [← String.toList_inj, ← join_segments p.toList, parts, join_cons, toList_place]
      rfl
  · rintro ⟨front, back, rfl, some, rfl⟩
    cases back with
    | nil => contradiction
    | cons s back => exact ⟨s ++ spell back, by simp [spell_cons]⟩

/-- What is above a plain path, the root apart: the top of its tree and what is on the way from
there to its parent. -/
theorem above_place_concat_iff {z : List Char} {p : String} (h : Proper (z :: rest ++ [s])) :
    p ≠ "" ∧ Above p (place (z :: rest ++ [s])) ↔
      p = place [z] ∨ ∃ rung ∈ ladder [z] rest, p = place rung := by
  rw [above_place_iff h]
  constructor
  · rintro ⟨some, front, back, split, left, rfl⟩
    obtain ⟨init, t, rfl⟩ := (List.eq_nil_or_concat back).resolve_left left
    rw [List.concat_eq_append, ← List.append_assoc] at split
    have names : z :: rest = front ++ init := (List.append_inj' split rfl).1
    cases front with
    | nil => exact absurd rfl some
    | cons t front =>
      obtain ⟨rfl, rfl⟩ := List.cons.inj (names.trans (List.cons_append ..))
      by_cases top : front = []
      · exact .inl (by rw [top])
      · exact .inr ⟨z :: front, mem_ladder_iff.mpr ⟨front, init, rfl, top, rfl⟩, rfl⟩
  · rintro (rfl | ⟨rung, on, rfl⟩)
    · exact ⟨by simp [place, spell_cons], [z], rest ++ [s], by simp, by simp, rfl⟩
    · obtain ⟨front, back, rfl, -, rfl⟩ := mem_ladder_iff.mp on
      exact ⟨by simp [place, spell_cons], [z] ++ front, back ++ [s], by simp, by simp, rfl⟩

theorem ladder_descend (base rest : List (List Char)) :
    ((ladder base rest).map place).Pairwise Above := by
  induction rest generalizing base with
  | nil => exact .nil
  | cons s rest ih =>
    rw [ladder, List.map_cons, List.pairwise_cons]
    refine ⟨?_, ih (base ++ [s])⟩
    intro p hp
    obtain ⟨rung, on, rfl⟩ := List.mem_map.mp hp
    obtain ⟨front, back, -, some, rfl⟩ := mem_ladder_iff.mp on
    cases front with
    | nil => contradiction
    | cons t front => exact ⟨t ++ spell front, by simp [spell_cons]⟩

/-- Every beginning of a path that ends before a slash or at the end is a rung. -/
theorem mem_rungs {base rest front : List Char} (back : List Char) (some : front ≠ [])
    (split : rest = front ++ back) (first : ∀ c ∈ back.head?, c = '/') :
    base ++ front ∈ rungs base rest := by
  fun_induction rungs base rest generalizing front with
  | case1 base => exact absurd (List.append_eq_nil_iff.mp split.symm).1 some
  | case2 base c cs seg next =>
    rename_i ih
    cases front with
    | nil => contradiction
    | cons d front =>
      obtain ⟨rfl, rfl⟩ := List.cons.inj (split.trans (List.cons_append ..))
      by_cases mem : '/' ∈ front
      · obtain ⟨name, others, rfl, free⟩ := List.eq_append_cons_of_mem mem
        have cut := takeWhile_name free ('/' :: (others ++ back)) (by simp)
        have regroup : name ++ '/' :: others ++ back = name ++ '/' :: (others ++ back) := by simp
        simp only [next, seg, regroup, cut] at ih ⊢
        have below := ih (List.cons_ne_nil '/' others) rfl
        exact List.mem_cons_of_mem _ (by simpa using below)
      · obtain ⟨name, -⟩ := takeWhile_name mem back first
        simp only [next, seg, name]
        exact List.mem_cons_self

end DataGrid.Path
