import DataGrid.Proofs.Query.Scanning
import DataGrid.Proofs.Text.Ascii

/-! Where keywords stand in a text. A text is cut at the first keyword, then what is after it at
the next, and so on; whether a keyword stands somewhere depends on all of the text before it. A
comparison of bytes finds the same places, each of them between two characters. -/
namespace DataGrid.Query
open Text

/-- The keyword stands between the two parts of a text, in any case of its letters: outside quotes,
after a blank or at the start, and before a blank or at the end. -/
structure Stands (keyword before written after : List Char) : Prop where
  letters : sameLetters keyword written = true
  outside : before.count '\'' % 2 = 0
  starts : ∀ c ∈ before.getLast?, isAsciiBlank c = true
  ends : Ends after

/-- The pieces of a text between its keywords, if there is other text before it. -/
inductive Separates (keyword : List Char) : (before text : List Char) → List (List Char) → Prop
  | whole {before text : List Char}
      (free : ∀ b written after, text = b ++ (written ++ after) →
        ¬ Stands keyword (before ++ b) written after) :
      Separates keyword before text [text]
  | next {before piece written rest : List Char} {pieces : List (List Char)}
      (first : ∀ b written' after, piece ++ (written ++ rest) = b ++ (written' ++ after) →
        Stands keyword (before ++ b) written' after → piece.length ≤ b.length)
      (stands : Stands keyword (before ++ piece) written rest)
      (others : Separates keyword (before ++ piece ++ written) rest pieces) :
      Separates keyword before (piece ++ (written ++ rest)) (piece :: pieces)

variable {keyword before text written after b piece first second cs : List Char} {c : Char}
  {pieces : List (List Char)} {quoted free : Bool}

theorem starts_blank (cs : List Char) : ∀ c ∈ (cs ++ [' ']).getLast?, isAsciiBlank c = true := by
  simp [isAsciiBlank]

theorem keywordAt_append_iff (length : written.length = keyword.length) (after : List Char) :
    keywordAt keyword (written ++ after) = true ↔
      sameLetters keyword written = true ∧ Ends after := by
  rw [keywordAt, Bool.and_eq_true, List.take_left' length, List.drop_left' length]
  cases after <;> simp [Ends]

theorem keywordAt_iff : keywordAt keyword cs = true ↔
    ∃ written after, cs = written ++ after ∧ sameLetters keyword written = true ∧ Ends after := by
  constructor
  · intro here
    have same := sameLetters_iff.mp ((Bool.and_eq_true _ _).mp here).1
    have length : (cs.take keyword.length).length = keyword.length := by
      simpa using (congrArg List.length same).symm
    rw [← List.take_append_drop keyword.length cs, keywordAt_append_iff length] at here
    exact ⟨_, _, (List.take_append_drop keyword.length cs).symm, here⟩
  · rintro ⟨written, after, rfl, same, ends⟩
    exact (keywordAt_append_iff (length_of_sameLetters same) after).mpr ⟨same, ends⟩

theorem exists_tail_of_filled (split : c :: cs = b ++ (written ++ after)) (filled : b ≠ []) :
    ∃ tail, b = c :: tail ∧ cs = tail ++ (written ++ after) := by
  obtain ⟨d, tail, rfl⟩ := List.exists_cons_of_ne_nil filled
  obtain ⟨rfl, rest⟩ := List.cons.inj split
  exact ⟨tail, rfl, rest⟩

/-- A character at which no keyword begins goes to the first piece. -/
theorem Separates.push (separates : Separates keyword (before ++ [c]) cs pieces)
    (none : ∀ written after, c :: cs = written ++ after → ¬ Stands keyword before written after) :
    Separates keyword before (c :: cs) (pushChar c pieces) := by
  cases separates with
  | whole free =>
    refine .whole fun b written after split stands => ?_
    by_cases start : b = []
    · rw [start] at split stands
      exact none written after split (by rwa [List.append_nil] at stands)
    · obtain ⟨tail, rfl, rest⟩ := exists_tail_of_filled split start
      exact free tail written after rest (by rwa [List.append_assoc])
  | @next _ piece written rest pieces first stands others =>
    have regroup : before ++ [c] ++ piece = before ++ (c :: piece) := by simp
    rw [regroup] at stands others
    refine @Separates.next _ _ (c :: piece) _ _ _ (fun b written' after split stands' => ?_) stands
      others
    by_cases start : b = []
    · rw [start] at split stands'
      exact absurd (by rwa [List.append_nil] at stands') (none written' after split)
    · obtain ⟨tail, rfl, rest⟩ := exists_tail_of_filled split start
      exact Nat.succ_le_succ (first tail written' after rest (by rwa [List.append_assoc]))

theorem Separates.ne_nil (separates : Separates keyword before text pieces) : pieces ≠ [] := by
  cases separates <;> simp

theorem Keyword.filled (known : Keyword keyword) (same : sameLetters keyword written = true) :
    written ≠ [] := by
  rintro rfl
  exact known.nonempty (by simpa using sameLetters_iff.mp same)

/-- A word that a text is searched for ends with no blank. -/
theorem Keyword.getLast_solid (known : Keyword keyword)
    (same : sameLetters keyword written = true) (before : List Char) :
    ∃ c ∈ (before ++ written).getLast?, isAsciiBlank c = false := by
  obtain ⟨init, c, rfl⟩ := (List.eq_nil_or_concat written).resolve_left (known.filled same)
  rw [List.concat_eq_append] at same ⊢
  refine ⟨c, by rw [← List.append_assoc, List.getLast?_concat]; rfl, ?_⟩
  rw [Bool.eq_false_iff]
  exact fun blank => known.solid c blank (lower_mem_of_sameLetters same (by simp))

theorem Separates.of_stands (stands : Stands keyword before written after)
    (others : Separates keyword (before ++ written) after pieces) :
    Separates keyword before (written ++ after) ([] :: pieces) := by
  have next := @Separates.next keyword before [] written after pieces
  rw [List.append_nil] at next
  exact next (fun _ _ _ _ _ => Nat.zero_le _) stands others

theorem Stands.quoteless (stands : Stands keyword before written after)
    (quoteless : '\'' ∉ keyword.map Char.toLower) : '\'' ∉ written := fun mem =>
  quoteless (lower_mem_of_sameLetters stands.letters mem)

/-- The search separates, provided that its flags say what the text before it is like. -/
theorem separates_cutAt (known : Keyword keyword) (quoteless : '\'' ∉ keyword.map Char.toLower)
    (cs : List Char) (inside : quoted = true ↔ before.count '\'' % 2 = 1)
    (starts : free = true ↔ ∀ c ∈ before.getLast?, isAsciiBlank c = true) :
    Separates keyword before cs (cutAt keyword quoted free 0 cs) := by
  -- on the length of the text, since a keyword is passed over in one step
  induction length : cs.length using Nat.strongRecOn generalizing cs before quoted free with
  | ind n ih =>
    by_cases here : ∃ written after, cs = written ++ after ∧ Stands keyword before written after
    · obtain ⟨written, after, rfl, stands⟩ := here
      have outside : quoted = false := by
        rw [Bool.eq_false_iff, ne_eq, inside]
        have := stands.outside
        omega
      have unquoted := stands.quoteless quoteless
      have shorter : after.length < n := by
        have some := List.length_pos_iff.mpr (known.filled stands.letters)
        rw [← length, List.length_append]
        omega
      rw [outside, starts.mpr stands.starts,
        cutAt_keyword stands.letters known.nonempty unquoted stands.ends]
      refine .of_stands stands (ih _ shorter after ?_ ?_ rfl)
      · rw [List.count_append, List.count_eq_zero.mpr unquoted, Nat.add_zero, ← inside, outside]
      · obtain ⟨last, mem, solid⟩ := known.getLast_solid stands.letters before
        constructor
        · intro h
          cases h
        · intro blank
          rw [blank last mem] at solid
          cases solid
    · cases cs with
      | nil =>
        refine .whole fun b written after split stands => ?_
        obtain ⟨rfl, rest⟩ := List.append_eq_nil_iff.mp split.symm
        exact here ⟨written, after, rest.symm, by rwa [List.append_nil] at stands⟩
      | cons c cs =>
        have none (written after : List Char) (split : c :: cs = written ++ after) :
            ¬ Stands keyword before written after := fun stands =>
          here ⟨written, after, split, stands⟩
        have shorter : cs.length < n := by simp [← length]
        rw [cutAt]
        split
        · next quote =>
          subst quote
          refine (ih _ shorter cs ?_ ?_ rfl).push none
          · rw [List.count_append, List.count_singleton_self, Bool.not_eq_true', ← Bool.not_eq_true,
              inside]
            omega
          · simp [isAsciiBlank]
        · next other =>
          split
          · next found =>
            simp only [Bool.and_eq_true, Bool.not_eq_true'] at found
            obtain ⟨⟨outside, start⟩, found⟩ := found
            obtain ⟨written, after, split, same, ends⟩ := keywordAt_iff.mp found
            refine absurd ⟨same, ?_, starts.mp start, ends⟩ (none written after split)
            have := mt inside.mpr (by simp [outside])
            omega
          · refine (ih _ shorter cs ?_ ?_ rfl).push none
            · rw [List.count_append, List.count_cons_of_ne other, List.count_nil]
              exact inside
            · simp

/-- A text is cut at its keywords. -/
theorem separates_cutAtKeyword {keyword : String} (known : Keyword keyword.toList)
    (quoteless : '\'' ∉ keyword.toList.map Char.toLower) (text : List Char) :
    Separates keyword.toList [] text (cutAtKeyword keyword text) :=
  separates_cutAt known quoteless text (by simp) (by simp)

/-! How often a keyword stands in a text. -/

theorem Separates.eq_of_singleton (separates : Separates keyword before text [piece]) :
    text = piece := by
  cases separates with
  | whole => rfl
  | next _ _ others => exact absurd rfl others.ne_nil

theorem Separates.not_stands (separates : Separates keyword before text [piece])
    (split : text = b ++ (written ++ after)) : ¬ Stands keyword (before ++ b) written after := by
  cases separates with
  | whole free => exact free b written after split
  | next _ _ others => exact absurd rfl others.ne_nil

/-- A text of two pieces has the keyword after the first and nowhere else. -/
theorem Separates.place (known : Keyword keyword)
    (separates : Separates keyword before text [first, second])
    (split : text = b ++ (written ++ after)) (stands : Stands keyword (before ++ b) written after) :
    b = first := by
  cases separates with
  | @next _ _ written' rest _ first_le stands' others =>
    have le := first_le b written after split stands
    rcases List.append_eq_append_iff.mp split with ⟨gap, rfl, tail⟩ | ⟨gap, rfl, -⟩
    · rcases List.append_eq_append_iff.mp tail with ⟨more, rfl, later⟩ | ⟨more, spelled, -⟩
      · -- it would stand in the second piece
        exact absurd (by simpa using stands) (others.not_stands later)
      · -- it would begin within the first keyword, after a letter
        rcases List.eq_nil_or_concat gap with rfl | ⟨init, c, rfl⟩
        · rw [List.append_nil]
        · rw [List.concat_eq_append] at stands spelled
          have blank := stands.starts c (by simp [← List.append_assoc])
          have mem : c ∈ written' := by simp [spelled]
          exact absurd (lower_mem_of_sameLetters stands'.letters mem) (known.solid c blank)
    · have : gap = [] := by
        rw [List.length_append] at le
        exact List.length_eq_zero_iff.mp (by omega)
      rw [this, List.append_nil]

/-- The quotes of a text are those of its pieces. -/
theorem Separates.even (quoteless : '\'' ∉ keyword.map Char.toLower)
    (separates : Separates keyword before text pieces)
    (even : ∀ piece ∈ pieces, piece.count '\'' % 2 = 0) : text.count '\'' % 2 = 0 := by
  induction separates with
  | whole => exact even _ List.mem_cons_self
  | next _ stands _ ih =>
    have rest := ih fun piece mem => even piece (List.mem_cons_of_mem _ mem)
    have here := even _ List.mem_cons_self
    rw [List.count_append, List.count_append, List.count_eq_zero.mpr (stands.quoteless quoteless)]
    omega

/-! Bytes. -/

/-- The bytes of the keyword stand at that offset, as far as bytes alone can tell. -/
structure StandsInBytes (keyword text : List UInt8) (i : Nat) : Prop where
  letters : ((text.drop i).take keyword.length).map lowerByte = keyword.map lowerByte
  outside : (text.take i).count 0x27 % 2 = 0
  starts : ∀ b ∈ (text.take i).getLast?, isBlankByte b = true
  ends : ∀ b ∈ (text.drop (i + keyword.length)).head?, isBlankByte b = true

theorem standsInBytes_iff (some : keyword ≠ []) (ascii : ∀ c ∈ keyword, c.toNat < 128) {i : Nat} :
    StandsInBytes (encode keyword) (encode text) i ↔ ∃ before written after,
      text = before ++ (written ++ after) ∧ Stands keyword before written after ∧
        i = (encode before).length := by
  constructor
  · intro stands
    have filled : (encode text).drop i ≠ [] := by
      intro none
      have letters := stands.letters
      rw [none, List.take_nil, List.map_nil, eq_comm, List.map_eq_nil_iff] at letters
      exact encode_ne_nil some letters
    have initial : ∀ b ∈ ((encode text).drop i).head?, b.toNat < 128 := by
      intro b mem
      refine toNat_lt_of_mem_encode ascii ?_
      rw [← stands.letters]
      refine List.mem_map_of_mem (List.mem_of_mem_head? ?_)
      rwa [List.head?_take, if_neg (mt List.length_eq_zero_iff.mp (encode_ne_nil some))]
    obtain ⟨before, rest, rfl, front, back⟩ :=
      exists_of_encode_eq_append (List.take_append_drop i (encode text)).symm initial
    have length : (encode before).length = i := by
      rw [ne_eq, List.drop_eq_nil_iff, Nat.not_le] at filled
      rw [front, List.length_take_of_le (Nat.le_of_lt filled)]
    have ends := stands.ends
    rw [← List.drop_drop, ← back] at ends
    obtain ⟨written, after, rfl, middle, tail⟩ := exists_of_encode_eq_append
      (List.take_append_drop (encode keyword).length (encode rest)).symm
      fun b mem => toNat_lt_of_isBlankByte (ends b mem)
    refine ⟨before, written, after, rfl, ⟨?_, ?_, ?_, ?_⟩, length.symm⟩
    · rw [← map_lowerByte_eq_iff ascii, middle, back, stands.letters]
    · rw [← count_quote_encode, front]
      exact stands.outside
    · rw [← blank_getLast_encode_iff, front]
      exact stands.starts
    · rw [← tail] at ends
      exact (blank_head_encode_iff after).mp ends
  · rintro ⟨before, written, after, rfl, stands, rfl⟩
    have letters := (map_lowerByte_eq_iff ascii).mpr stands.letters
    have length : (encode written).length = (encode keyword).length := by
      simpa using congrArg List.length letters
    constructor
    · rw [encode_append, List.drop_left, encode_append, ← length, List.take_left, letters]
    · rw [encode_append, List.take_left, count_quote_encode]
      exact stands.outside
    · rw [encode_append, List.take_left, blank_getLast_encode_iff]
      exact stands.starts
    · rw [← length, ← List.drop_drop, encode_append, List.drop_left, encode_append, List.drop_left,
        blank_head_encode_iff]
      exact stands.ends

end DataGrid.Query
