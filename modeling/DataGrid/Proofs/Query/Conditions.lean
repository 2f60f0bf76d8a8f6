import DataGrid.Proofs.Query.RoundTrip
import Mathlib.Data.List.Forall2

/-! What a condition is read from. Its text is a column, an operator and a rest, blanks aside; the
operator is written as the grammar allows and kept that way, and the rest is kept whole. -/
namespace DataGrid.Query
open Text

variable {operator : String} {word written text rest cs : List Char} {c : Condition}

/-- The letters of a word, each in a case in which it is read. -/
def InLetters (word written : List Char) : Prop :=
  List.Forall₂ (fun letter c => isLetter letter c = true) word written

/-- The ways to write an operator: a sign as it is, a word in its letters, and the two words of a
negated pattern with blanks between them. -/
inductive Spelled : (operator : String) → (written : List Char) → Prop
  | sign {operator : String} (mem : operator ∈ ["=", "<>", "!=", "<=", ">=", "<", ">"]) :
      Spelled operator operator.toList
  | word {operator : String} {written : List Char} (mem : operator ∈ ["like", "in", "between"])
      (letters : InLetters operator.toList written) : Spelled operator written
  | notLike {negation blanks word : List Char} (first : InLetters "not".toList negation)
      (apart : blanks ≠ []) (blank : blanks.all isBlank = true)
      (second : InLetters "like".toList word) :
      Spelled "not like" (negation ++ blanks ++ word)

/-- A condition with its parts as they stand in a text. -/
structure Reads (text : List Char) (c : Condition) (operator : String)
    (written rest : List Char) : Prop where
  identifier : isIdentifier c.column.toList = true
  spelled : Spelled operator written
  trimmed : Trimmed rest
  even : rest.count '\'' % 2 = 0
  predicate : c.predicate = String.ofList (written ++ ' ' :: rest)
  split : ∃ lead gap before trail, (lead ++ gap ++ before ++ trail).all isBlank = true ∧
    text = lead ++ c.column.toList ++ gap ++ written ++ before ++ rest ++ trail

/-- A condition is read from the text. -/
def ReadFrom (text : List Char) (c : Condition) : Prop :=
  ∃ operator written rest, Reads text c operator written rest

/-! Words. -/

theorem stripWord?_eq_some_iff : stripWord? word text = some rest ↔
    ∃ written, InLetters word written ∧ text = written ++ rest := by
  induction word generalizing text with
  | nil =>
    simp only [stripWord?, Option.some.injEq]
    constructor
    · rintro rfl
      exact ⟨[], .nil, rfl⟩
    · rintro ⟨written, none, rfl⟩
      cases none
      rfl
  | cons w ws ih =>
    constructor
    · intro stripped
      cases text with
      | nil => cases stripped
      | cons c cs =>
        rw [stripWord?] at stripped
        split at stripped
        · next letter =>
          obtain ⟨written, letters, rfl⟩ := ih.mp stripped
          exact ⟨c :: written, .cons letter letters, rfl⟩
        · cases stripped
    · rintro ⟨written, letters, rfl⟩
      cases letters with
      | @cons _ c _ written letter letters =>
        rw [List.cons_append, stripWord?, if_pos letter]
        exact ih.mpr ⟨written, letters, rfl⟩

theorem InLetters.length (letters : InLetters word written) : written.length = word.length :=
  (List.Forall₂.length_eq letters).symm

/-- A character that reads as no letter but itself is in the written word only if it is in the word
itself. -/
theorem InLetters.not_mem {x : Char} (letters : InLetters word written)
    (own : ∀ letter, isLetter letter x = true → x = letter) (other : x ∉ word) : x ∉ written := by
  induction letters with
  | nil => simp
  | @cons w c ws cs letter letters ih =>
    obtain ⟨differs, other⟩ := not_or.mp (mt List.mem_cons.mpr other)
    refine fun mem => (List.mem_cons.mp mem).elim (fun same => ?_) (ih other)
    subst same
    exact differs (own w letter)

theorem isBlank_of_isLetter {letter c : Char} (h : isLetter letter c = true)
    (solid : isBlank letter = false) : isBlank c = false := by
  refine Bool.eq_false_iff.mpr fun blank => ?_
  simp only [isLetter, toLower_of_isBlank blank, Bool.or_eq_true, Bool.and_eq_true,
    beq_iff_eq] at h
  rcases h with (rfl | ⟨-, rfl⟩) | ⟨-, rfl⟩
  · rw [blank] at solid
    cases solid
  · exact absurd blank (by decide)
  · exact absurd blank (by decide)

theorem InLetters.solid {letter : Char} (letters : InLetters (letter :: word) written)
    (solid : isBlank letter = false) : ∃ d ∈ written.head?, isBlank d = false := by
  cases letters with
  | cons same _ => exact ⟨_, rfl, isBlank_of_isLetter same solid⟩

theorem dropWhile_of_solid (solid : ∃ d ∈ cs.head?, isBlank d = false) :
    (cs ++ rest).dropWhile isBlank = cs ++ rest := by
  obtain ⟨d, head, solid⟩ := solid
  obtain ⟨tail, rfl⟩ := List.head?_eq_some_iff.mp head
  exact List.dropWhile_cons_of_neg (by simp [solid])

/-! Operators. -/

theorem quote_of_isLetter (letter : Char) (h : isLetter letter '\'' = true) : '\'' = letter := by
  simpa [isLetter] using h

/-- An operator is written with no characters but its own, in another case, and blanks. -/
theorem Spelled.not_mem {x : Char} (spelled : Spelled operator written)
    (own : ∀ letter, isLetter letter x = true → x = letter) (solid : isBlank x = false)
    (other : ∀ operator ∈ operators, x ∉ operator.toList) : x ∉ written := by
  cases spelled with
  | sign mem =>
    have among : ∀ sign ∈ ["=", "<>", "!=", "<=", ">=", "<", ">"], sign ∈ operators := by decide
    exact other _ (among _ mem)
  | word mem letters =>
    have among : ∀ word ∈ ["like", "in", "between"], word ∈ operators := by decide
    exact letters.not_mem own (other _ (among _ mem))
  | notLike first _ blank second =>
    have unlike : x ∉ "not".toList ++ ' ' :: "like".toList := other "not like" (by decide)
    rw [List.mem_append, List.mem_cons, not_or, not_or] at unlike
    have between := mt (List.all_eq_true.mp blank x) (by simp [solid])
    simp [first.not_mem own unlike.1, between, second.not_mem own unlike.2.2]

theorem Spelled.quoteless (spelled : Spelled operator written) : '\'' ∉ written :=
  spelled.not_mem quote_of_isLetter rfl (by decide)

theorem Spelled.bare (spelled : Spelled operator written) : '|' ∉ written ∧ '\'' ∉ written := by
  refine ⟨spelled.not_mem (fun letter h => ?_) rfl (by decide), spelled.quoteless⟩
  simpa [isLetter] using h

theorem Spelled.solid (spelled : Spelled operator written) :
    ∃ d ∈ written.head?, isBlank d = false := by
  cases spelled with
  | sign mem =>
    simp only [List.mem_cons, List.not_mem_nil, or_false] at mem
    rcases mem with rfl | rfl | rfl | rfl | rfl | rfl | rfl <;> exact ⟨_, rfl, rfl⟩
  | word mem letters =>
    simp only [List.mem_cons, List.not_mem_nil, or_false] at mem
    rcases mem with rfl | rfl | rfl <;> exact letters.solid (by decide)
  | notLike first _ _ _ =>
    obtain ⟨d, head, solid⟩ := first.solid (by decide)
    exact ⟨d, by simp [Option.mem_def.mp head], solid⟩

theorem eq_append_of_word? (h : word? word cs = some (written, rest)) :
    InLetters word written ∧ cs = written ++ rest := by
  rw [word?] at h
  split at h
  · next stripped =>
    obtain ⟨letters, spelled, rfl⟩ := stripWord?_eq_some_iff.mp stripped
    split at h
    · cases h
      rw [List.take_left' spelled.length]
      exact ⟨spelled, rfl⟩
    · cases h
  · cases h

theorem spelled_of_notLike? (h : notLike? cs = some (written, rest)) :
    Spelled "not like" written ∧ cs = written ++ rest := by
  rw [notLike?] at h
  split at h
  · next c r stripped =>
    obtain ⟨negation, letters, rfl⟩ := stripWord?_eq_some_iff.mp stripped
    split at h
    · next blank =>
      simp only [Option.map_eq_some_iff, Prod.mk.injEq, Prod.exists] at h
      obtain ⟨second, tail, found, rfl, rfl⟩ := h
      obtain ⟨letters', after⟩ := eq_append_of_word? found
      have three : (negation ++ c :: r).take 3 = negation := List.take_left' letters.length
      have blanks : (c :: r.takeWhile isBlank).all isBlank = true := by
        rw [List.all_cons, blank, List.all_takeWhile]
        rfl
      have whole : r = r.takeWhile isBlank ++ (second ++ tail) := by
        rw [← after, List.takeWhile_append_dropWhile]
      rw [three]
      refine ⟨.notLike letters (List.cons_ne_nil c _) blanks letters', ?_⟩
      rw [List.append_assoc negation, List.append_assoc negation, List.append_assoc (c :: _),
        List.cons_append, ← whole]
    · cases h
  · cases h

theorem spelled_of_operator? (h : operator? cs = some (written, rest)) :
    (∃ operator, Spelled operator written) ∧ cs = written ++ rest := by
  have sign (operator : String) {tail : List Char}
      (mem : operator ∈ ["=", "<>", "!=", "<=", ">=", "<", ">"])
      (found : some (operator.toList, tail) = some (written, rest)) :
      (∃ operator, Spelled operator written) ∧ operator.toList ++ tail = written ++ rest := by
    cases found
    exact ⟨⟨operator, .sign mem⟩, rfl⟩
  have word (operator : String) (mem : operator ∈ ["like", "in", "between"])
      (found : word? operator.toList cs = some (written, rest)) :
      (∃ operator, Spelled operator written) ∧ cs = written ++ rest := by
    obtain ⟨letters, split⟩ := eq_append_of_word? found
    exact ⟨⟨operator, .word mem letters⟩, split⟩
  unfold operator? at h
  split at h
  · exact sign "=" (by decide) h
  · exact sign "<>" (by decide) h
  · exact sign "!=" (by decide) h
  · exact sign "<=" (by decide) h
  · exact sign ">=" (by decide) h
  · exact sign "<" (by decide) h
  · exact sign ">" (by decide) h
  · simp only [Option.or_eq_some_iff] at h
    rcases h with ((found | ⟨-, found⟩) | ⟨-, found⟩) | ⟨-, found⟩
    · obtain ⟨spelled, split⟩ := spelled_of_notLike? found
      exact ⟨⟨"not like", spelled⟩, split⟩
    · exact word "like" (by decide) found
    · exact word "in" (by decide) found
    · exact word "between" (by decide) found

/-! The column. -/

theorem spelled_of_cutColumn? {cut : Cut} {length : Nat} (h : cutColumn? cs length = some cut) :
    (∃ operator, Spelled operator cut.operator) ∧
      (∃ n, 0 < n ∧ n ≤ length ∧ cut.column = cs.take n) ∧
      ∃ gap, gap.all isBlank = true ∧ cs = cut.column ++ gap ++ cut.operator ++ cut.value := by
  induction length with
  | zero => cases h
  | succ n ih =>
    rw [cutColumn?] at h
    split at h
    · next op value found =>
      cases h
      obtain ⟨spelled, split⟩ := spelled_of_operator? found
      refine ⟨spelled, ⟨n + 1, Nat.succ_pos n, Nat.le_refl _, rfl⟩,
        (cs.drop (n + 1)).takeWhile isBlank, List.all_takeWhile, ?_⟩
      simp only [List.append_assoc]
      rw [← split, List.takeWhile_append_dropWhile, List.take_append_drop]
    · obtain ⟨spelled, ⟨k, some, le, column⟩, gap⟩ := ih h
      exact ⟨spelled, ⟨k, some, Nat.le_succ_of_le le, column⟩, gap⟩

/-- What an identifier goes on with can be left out. -/
theorem isIdentifier_take {d : Char} {n : Nat} (start : isNameStart d = true) (some : 0 < n)
    (within : n ≤ ((d :: cs).takeWhile isNameChar).length) :
    isIdentifier ((d :: cs).take n) = true := by
  obtain ⟨n, rfl⟩ := Nat.exists_eq_succ_of_ne_zero (Nat.ne_of_gt some)
  have names : ((d :: cs).take (n + 1)).all isNameChar = true := by
    rw [← List.takeWhile_append_dropWhile (p := isNameChar) (l := d :: cs),
      List.take_append_of_le_length within, List.all_eq_true]
    exact fun e mem => List.all_eq_true.mp List.all_takeWhile e (List.mem_of_mem_take mem)
  rw [List.take_succ_cons, List.all_cons, Bool.and_eq_true] at names
  rw [List.take_succ_cons, isIdentifier, start, names.2]
  rfl

theorem spelled_of_cut? {cut : Cut} (h : cut? text = some cut) :
    isIdentifier cut.column = true ∧ (∃ operator, Spelled operator cut.operator) ∧
      ∃ lead gap, (lead ++ gap).all isBlank = true ∧
        text = lead ++ cut.column ++ gap ++ cut.operator ++ cut.value := by
  rw [cut?] at h
  split at h
  · cases h
  · next d ds solid =>
    split at h
    · next start =>
      obtain ⟨spelled, ⟨n, some, within, column⟩, gap, blank, split⟩ := spelled_of_cutColumn? h
      rw [solid] at column within
      refine ⟨column ▸ isIdentifier_take start some within, spelled,
        text.takeWhile isBlank, gap, ?_, ?_⟩
      · rw [List.all_append, List.all_takeWhile, blank]
        rfl
      · simp only [List.append_assoc] at split ⊢
        rw [← split, List.takeWhile_append_dropWhile]
    · cases h

/-! The value. -/

theorem exists_trimChars (cs : List Char) : ∃ lead trail, (lead ++ trail).all isBlank = true ∧
    cs = lead ++ trimChars cs ++ trail := by
  obtain ⟨trail, split, blank⟩ := exists_append_dropEndWhile isBlank (cs.dropWhile isBlank)
  refine ⟨cs.takeWhile isBlank, trail, ?_, ?_⟩
  · rw [List.all_append, List.all_takeWhile, blank]
    rfl
  · rw [trimChars, List.append_assoc, ← split, List.takeWhile_append_dropWhile]

theorem trimmed_trimChars (some : trimChars cs ≠ []) : Trimmed (trimChars cs) := by
  obtain ⟨trail, split, -⟩ := exists_append_dropEndWhile isBlank (cs.dropWhile isBlank)
  constructor
  · obtain ⟨d, ds, chars⟩ := List.exists_cons_of_ne_nil some
    have first := List.head?_dropWhile_not isBlank cs
    rw [split, ← trimChars, chars] at first
    exact ⟨d, by rw [chars]; rfl, by simpa using first⟩
  · obtain ⟨init, d, chars⟩ := (List.eq_nil_or_concat (trimChars cs)).resolve_left some
    rw [List.concat_eq_append] at chars
    refine ⟨d, by rw [chars, List.getLast?_concat]; rfl, Bool.eq_false_iff.mpr fun blank => ?_⟩
    have back : (cs.dropWhile isBlank).reverse.dropWhile isBlank = d :: init.reverse := by
      rw [← List.reverse_reverse (List.dropWhile ..)]
      change (trimChars cs).reverse = _
      simp [chars]
    have first := List.head?_dropWhile_not isBlank (cs.dropWhile isBlank).reverse
    rw [back] at first
    simp [blank] at first

theorem count_quote_of_blank (blank : cs.all isBlank = true) : cs.count '\'' = 0 :=
  List.count_eq_zero.mpr fun mem => absurd (List.all_eq_true.mp blank _ mem) (by decide)

theorem count_trimChars (cs : List Char) : (trimChars cs).count '\'' = cs.count '\'' := by
  obtain ⟨lead, trail, blank, around⟩ := exists_trimChars cs
  rw [List.all_append, Bool.and_eq_true] at blank
  have total := congrArg (List.count '\'') around
  rw [List.count_append, List.count_append, count_quote_of_blank blank.1,
    count_quote_of_blank blank.2] at total
  omega

theorem readFrom_of_readCondition (h : readCondition text = .ok c) : ReadFrom text c := by
  rw [readCondition] at h
  split at h
  · cases h
  · next cut found =>
    obtain ⟨identifier, ⟨operator, spelled⟩, lead, gap, blank, split⟩ := spelled_of_cut? found
    obtain ⟨before, trail, blank', around⟩ := exists_trimChars cut.value
    dsimp only at h
    split at h
    · cases h
    · next filled =>
      split at h
      · cases h
      · next even =>
        cases h
        refine ⟨operator, cut.operator, trimChars cut.value,
          { identifier := by rwa [String.toList_ofList], spelled,
            trimmed := trimmed_trimChars (by simpa using filled),
            even := by rw [count_trimChars]; omega, predicate := rfl,
            split := ⟨lead, gap, before, trail, ?_, ?_⟩ }⟩
        · rw [List.append_assoc (lead ++ gap), List.all_append, blank, blank']
          rfl
        · rw [String.toList_ofList, List.append_assoc _ before, List.append_assoc _ (before ++ _)]
          rw [← around]
          exact split

end DataGrid.Query
