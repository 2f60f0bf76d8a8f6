import DataGrid.Query.Text

/-! What the search for a keyword passes over. Texts are put together from words and from values
in single quotes, with a blank between one and the next; such a text is passed over unless one of
its words is the keyword. -/
namespace DataGrid.Query
open Text

/-- Puts characters in front of the first piece. -/
def pushChars (cs : List Char) (pieces : List (List Char)) : List (List Char) :=
  cs.foldr pushChar pieces

theorem pushChars_cons (cs piece : List Char) (pieces : List (List Char)) :
    pushChars cs (piece :: pieces) = (cs ++ piece) :: pieces := by
  induction cs with
  | nil => rfl
  | cons c cs ih =>
    change pushChar c (pushChars cs (piece :: pieces)) = _
    rw [ih]
    rfl

theorem pushChars_append (as bs : List Char) (pieces : List (List Char)) :
    pushChars (as ++ bs) pieces = pushChars as (pushChars bs pieces) :=
  List.foldr_append

theorem flatten_pushChar (c : Char) (pieces : List (List Char)) :
    (pushChar c pieces).flatten = c :: pieces.flatten := by
  cases pieces <;> rfl

theorem flatten_pushChars (cs : List Char) (pieces : List (List Char)) :
    (pushChars cs pieces).flatten = cs ++ pieces.flatten := by
  induction cs with
  | nil => rfl
  | cons c cs ih =>
    change (pushChar c (pushChars cs pieces)).flatten = _
    rw [flatten_pushChar, ih]
    rfl

/-- Nothing follows, or a blank: a word may end here. -/
def Ends (cs : List Char) : Prop := ∀ c ∈ cs.head?, isAsciiBlank c = true

theorem ends_nil : Ends [] := by simp [Ends]

theorem ends_blank (cs : List Char) : Ends (' ' :: cs) := by
  rintro c ⟨⟩
  rfl

theorem sameLetters_iff {a b : List Char} :
    sameLetters a b = true ↔ a.map Char.toLower = b.map Char.toLower := beq_iff_eq

theorem length_of_sameLetters {word written : List Char} (same : sameLetters word written = true) :
    written.length = word.length := by
  simpa using (congrArg List.length (sameLetters_iff.mp same)).symm

theorem lower_mem_of_sameLetters {word written : List Char} {c : Char}
    (same : sameLetters word written = true) (mem : c ∈ written) :
    c.toLower ∈ word.map Char.toLower :=
  sameLetters_iff.mp same ▸ List.mem_map_of_mem mem

/-- No blank is a capital letter. -/
theorem toLower_of_isBlank {c : Char} (blank : isBlank c = true) : c.toLower = c := by
  have small : ¬ ('A'.val ≤ c.val ∧ c.val ≤ 'Z'.val) := by
    rintro ⟨low, high⟩
    simp only [UInt32.le_iff_toNat_le, ↓Char.isValue, Char.reduceVal, UInt32.reduceToNat,
      Char.toNat_val] at low high
    simp only [isBlank, Bool.or_eq_true, Bool.and_eq_true, decide_eq_true_eq, beq_iff_eq] at blank
    omega
  exact dif_neg small

/-- A word that a text may be searched for has no blank in it. -/
structure Keyword (keyword : List Char) : Prop where
  nonempty : keyword ≠ []
  solid : ∀ c, isAsciiBlank c = true → c.toLower ∉ keyword.map Char.toLower

theorem isAsciiBlank_iff {c : Char} :
    isAsciiBlank c = true ↔ c ∈ [' ', '\t', '\n', '\x0c', '\r'] := by
  simp [isAsciiBlank, or_assoc]

instance (keyword : List Char) : Decidable (Keyword keyword) :=
  decidable_of_iff (keyword ≠ [] ∧
      [' ', '\t', '\n', '\x0c', '\r'].all (fun c => c.toLower ∉ keyword.map Char.toLower) = true)
    ⟨fun h => ⟨h.1, fun c blank =>
        of_decide_eq_true (List.all_eq_true.mp h.2 c (isAsciiBlank_iff.mp blank))⟩,
      fun h => ⟨h.nonempty, List.all_eq_true.mpr fun c mem =>
        decide_eq_true (h.solid c (isAsciiBlank_iff.mpr mem))⟩⟩

/-- Neither blanks nor quotes. -/
def Plain (cs : List Char) : Prop := ∀ c ∈ cs, isAsciiBlank c = false ∧ c ≠ '\''

instance (cs : List Char) : Decidable (Plain cs) :=
  decidable_of_iff (cs.all (fun c => !isAsciiBlank c && c != '\'') = true) (by simp [Plain])

variable {keyword word cs rest : List Char}

/-- Where a word ends before the keyword can, or after it, there is no keyword. -/
theorem sameLetters_of_keywordAt (known : Keyword keyword) (plain : Plain word) (ends : Ends rest)
    (h : keywordAt keyword (word ++ rest) = true) : sameLetters keyword word = true := by
  obtain ⟨same, after⟩ := (Bool.and_eq_true _ _).mp h
  rw [sameLetters_iff] at same ⊢
  have fits : keyword.length ≤ (word ++ rest).length := by
    have := congrArg List.length same
    simp only [List.length_map, List.length_take] at this
    omega
  rcases Nat.lt_trichotomy keyword.length word.length with shorter | equal | longer
  · -- The word goes on where a blank would have to follow.
    rw [List.drop_append_of_le_length (Nat.le_of_lt shorter),
      List.drop_eq_getElem_cons shorter, List.cons_append] at after
    have blank : isAsciiBlank word[keyword.length] = true := after
    rw [(plain _ (List.getElem_mem shorter)).1] at blank
    cases blank
  · rwa [List.take_left' equal.symm] at same
  · -- The keyword would have to have a blank in it.
    cases rest with
    | nil => simp only [List.append_nil] at fits; omega
    | cons c rest =>
      refine absurd ?_ (known.solid c (ends c rfl))
      rw [same]
      refine List.mem_map_of_mem ?_
      rw [List.mem_take_iff_getElem]
      exact ⟨word.length, by simp; omega, by simp⟩

/-! The search itself, on what it passes over and on the keyword. -/

theorem cutAt_plain (keyword : List Char) (plain : Plain cs) (rest : List Char) :
    cutAt keyword false false 0 (cs ++ rest) =
      pushChars cs (cutAt keyword false false 0 rest) := by
  induction cs with
  | nil => rfl
  | cons c cs ih =>
    obtain ⟨solid, unquoted⟩ := plain c List.mem_cons_self
    simp only [List.cons_append, cutAt, if_neg unquoted, Bool.and_false, Bool.false_and,
      Bool.false_eq_true, if_false, solid]
    rw [ih fun d mem => plain d (List.mem_cons_of_mem c mem)]
    rfl

theorem cutAt_inside (keyword : List Char) (unquoted : '\'' ∉ cs) (free : Bool)
    (rest : List Char) :
    cutAt keyword true free 0 (cs ++ '\'' :: rest) =
      pushChars (cs ++ ['\'']) (cutAt keyword false false 0 rest) := by
  induction cs generalizing free with
  | nil => simp [cutAt, pushChars]
  | cons c cs ih =>
    have differs : c ≠ '\'' := fun same => unquoted (same ▸ List.mem_cons_self)
    simp only [List.cons_append, cutAt, if_neg differs, Bool.not_true, Bool.false_and,
      Bool.false_eq_true, if_false]
    rw [ih fun mem => unquoted (List.mem_cons_of_mem c mem)]
    rfl

theorem cutAt_skip (keyword : List Char) (quoted free : Bool) (cs rest : List Char) :
    cutAt keyword quoted free cs.length (cs ++ rest) = cutAt keyword quoted free 0 rest := by
  induction cs with
  | nil => rfl
  | cons c cs ih => exact ih

theorem cutAt_blank (known : Keyword keyword) (free : Bool) (rest : List Char) :
    cutAt keyword false free 0 (' ' :: rest) = pushChar ' ' (cutAt keyword false true 0 rest) := by
  have no : keywordAt keyword (' ' :: rest) ≠ true := by
    intro h
    have same := sameLetters_iff.mp ((Bool.and_eq_true _ _).mp h).1
    refine known.solid ' ' rfl ?_
    obtain ⟨k, ks, rfl⟩ := List.exists_cons_of_ne_nil known.nonempty
    rw [same]
    simp
  simp [cutAt, no, isAsciiBlank]

theorem cutAt_keyword {written : List Char} (same : sameLetters keyword written = true)
    (nonempty : keyword ≠ []) (unquoted : '\'' ∉ written) (ends : Ends rest) :
    cutAt keyword false true 0 (written ++ rest) = [] :: cutAt keyword false false 0 rest := by
  have length : keyword.length = written.length := by
    simpa using congrArg List.length (sameLetters_iff.mp same)
  have here : keywordAt keyword (written ++ rest) = true := by
    simp only [keywordAt, length, List.take_left, List.drop_left, same, Bool.true_and]
    cases rest with
    | nil => rfl
    | cons c rest => exact ends c rfl
  obtain ⟨k, ks, rfl⟩ := List.exists_cons_of_ne_nil nonempty
  cases written with
  | nil => simp at length
  | cons c cs =>
    have differs : c ≠ '\'' := fun h => unquoted (h ▸ List.mem_cons_self)
    rw [List.cons_append] at here ⊢
    simp only [cutAt, if_neg differs, here, Bool.not_false, Bool.true_and, if_true]
    rw [show (k :: ks).length - 1 = cs.length by simpa using length, cutAt_skip]

/-- The search passes over this text wherever a keyword may begin and a word may end. -/
def Passes (keyword cs : List Char) : Prop := ∀ rest, Ends rest →
  cutAt keyword false true 0 (cs ++ rest) = pushChars cs (cutAt keyword false false 0 rest)

theorem passes_word (known : Keyword keyword) (nonempty : word ≠ []) (plain : Plain word)
    (other : sameLetters keyword word = false) : Passes keyword word := by
  intro rest ends
  have no : keywordAt keyword (word ++ rest) ≠ true := fun h => by
    rw [sameLetters_of_keywordAt known plain ends h] at other
    cases other
  obtain ⟨c, cs, rfl⟩ := List.exists_cons_of_ne_nil nonempty
  obtain ⟨solid, unquoted⟩ := plain c List.mem_cons_self
  rw [List.cons_append] at no ⊢
  simp only [cutAt, if_neg unquoted, no, Bool.not_false, Bool.true_and, solid]
  rw [cutAt_plain keyword fun d mem => plain d (List.mem_cons_of_mem c mem)]
  rfl

theorem passes_quoted (keyword : List Char) {value : List Char} (unquoted : '\'' ∉ value) :
    Passes keyword ('\'' :: value ++ ['\'']) := by
  intro rest _
  rw [List.append_assoc]
  simp only [List.cons_append, List.nil_append, cutAt, if_true, Bool.not_false]
  rw [cutAt_inside keyword unquoted]
  rfl

theorem Passes.spaced {a b : List Char} (known : Keyword keyword) (first : Passes keyword a)
    (second : Passes keyword b) : Passes keyword (a ++ ' ' :: b) := by
  intro rest ends
  rw [List.append_assoc, List.cons_append, first _ (ends_blank _), cutAt_blank known,
    second rest ends, pushChars_append]
  rfl

/-- A text that is passed over is one piece. -/
theorem Passes.whole (passes : Passes keyword cs) : cutAt keyword false true 0 cs = [cs] := by
  have whole := passes [] ends_nil
  rwa [List.append_nil, cutAt, pushChars_cons, List.append_nil] at whole

/-- It is the first of two pieces, or of more, if the keyword follows. -/
theorem Passes.cut {written : List Char} (known : Keyword keyword) (passes : Passes keyword cs)
    (same : sameLetters keyword written = true) (unquoted : '\'' ∉ written) (ends : Ends rest) :
    cutAt keyword false true 0 (cs ++ ' ' :: (written ++ rest)) =
      (cs ++ [' ']) :: cutAt keyword false false 0 rest := by
  rw [passes _ (ends_blank _), cutAt_blank known,
    cutAt_keyword same known.nonempty unquoted ends]
  exact pushChars_cons cs [' '] _

end DataGrid.Query
