import DataGrid.Proofs.Query.RoundTrip
import DataGrid.Query.Predicate

/-! What one alternative says. It begins with an operator, a sign or words in either case of their
letters, and goes on with an operand, which is all there is between its first quote and its last. -/
namespace DataGrid.Predicate
open Text Query

variable {operator : String} {c : Comparison} {a : Alternative}

/-- How the operator of a comparison is written: words in either case of their letters. -/
inductive Written : (operator : String) → Comparison → Prop
  | equal : Written "=" ⟨false, false⟩
  | angles : Written "<>" ⟨true, false⟩
  | bang : Written "!=" ⟨true, false⟩
  | like {operator : String} (letters : sameLetters "like".toList operator.toList = true) :
      Written operator ⟨false, true⟩
  | notLike {operator : String} (letters : sameLetters "not like".toList operator.toList = true) :
      Written operator ⟨true, true⟩

theorem comparison?_written (written : Written operator c) (rest : List Char) :
    comparison? (operator.toList ++ ' ' :: rest) = some (c, ' ' :: rest) := by
  cases written with
  | equal => rfl
  | angles => rfl
  | bang => rfl
  | like letters =>
    have length : operator.toList.length = 4 := length_of_sameLetters letters
    -- its first letter tells it from the two words
    have other :
        sameLetters "not like".toList ((operator.toList ++ ' ' :: rest).take 8) = false := by
      cases chars : operator.toList with
      | nil => simp [chars] at length
      | cons x xs =>
        rw [chars, sameLetters_iff] at letters
        obtain ⟨first, -⟩ := List.cons.inj letters
        rw [Bool.eq_false_iff, ne_eq, sameLetters_iff]
        intro same
        obtain ⟨first', -⟩ := List.cons.inj same
        exact absurd (first.trans first'.symm) (by decide)
    unfold comparison?
    rw [other, List.take_left' length, letters, List.drop_left' length]
    rfl
  | notLike letters =>
    have length : operator.toList.length = 8 := length_of_sameLetters letters
    unfold comparison?
    rw [List.take_left' length, letters, List.drop_left' length]
    rfl

theorem Written.unique {c' : Comparison} (written : Written operator c)
    (written' : Written operator c') : c = c' := by
  have same := (comparison?_written written []).symm.trans (comparison?_written written' [])
  exact congrArg Prod.fst (Option.some.inj same)

theorem solid_of_sameLetters {d : Char} {word written : List Char}
    (same : sameLetters (d :: word) written = true) (solid : isBlank d.toLower = false) :
    ∃ x ∈ written.head?, isBlank x = false := by
  cases written with
  | nil => simp [sameLetters_iff] at same
  | cons x xs =>
    obtain ⟨first, -⟩ := List.cons.inj (sameLetters_iff.mp same)
    refine ⟨x, rfl, Bool.eq_false_iff.mpr fun blank => ?_⟩
    rw [first, toLower_of_isBlank blank, blank] at solid
    cases solid

theorem Written.solid (written : Written operator c) :
    ∃ d ∈ operator.toList.head?, isBlank d = false := by
  cases written with
  | equal => exact ⟨'=', rfl, rfl⟩
  | angles => exact ⟨'<', rfl, rfl⟩
  | bang => exact ⟨'!', rfl, rfl⟩
  | like letters => exact solid_of_sameLetters letters (by decide)
  | notLike letters => exact solid_of_sameLetters letters (by decide)

/-- An operator with its operand has no blanks to trim. -/
theorem trimmed_quoted {operator : List Char} (operand : List Char)
    (solid : ∃ c ∈ operator.head?, isBlank c = false) :
    Trimmed (operator ++ operand ++ ['\'']) := by
  obtain ⟨c, first, solid⟩ := solid
  refine ⟨⟨c, ?_, solid⟩, ⟨'\'', List.getLast?_concat, by decide⟩⟩
  obtain ⟨rest, rfl⟩ := List.head?_eq_some_iff.mp first
  rfl

theorem trimmed_text (solid : ∃ d ∈ a.operator.toList.head?, isBlank d = false) :
    Trimmed a.text.toList := by
  have split : a.text.toList =
      a.operator.toList ++ (' ' :: '\'' :: a.value.toList) ++ ['\''] := by
    rw [text_toList]
    simp
  rw [split]
  exact trimmed_quoted _ solid

theorem ofList_trimChars_text {cs : List Char}
    (solid : ∃ d ∈ a.operator.toList.head?, isBlank d = false) (lead trail : List Char)
    (lead_blank : lead.all isBlank = true) (trail_blank : trail.all isBlank = true)
    (split : cs = lead ++ (a.text.toList ++ trail)) : String.ofList (trimChars cs) = a.text := by
  rw [split, (trimmed_text solid).trimChars lead trail lead_blank trail_blank,
    String.ofList_toList]

/-- Quotes within an operand are part of it. -/
theorem unquote?_quoted (operand : List Char) :
    unquote? (' ' :: '\'' :: (operand ++ ['\''])) = some operand := by
  have trimmed : Trimmed (['\''] ++ operand ++ ['\'']) :=
    trimmed_quoted operand ⟨'\'', rfl, by decide⟩
  have bare : trimChars (' ' :: '\'' :: (operand ++ ['\''])) = '\'' :: (operand ++ ['\'']) := by
    simpa using trimmed.trimChars [' '] [] rfl rfl
  rw [unquote?, bare]
  simp

/-- What is said of a pattern that the engine does not take. -/
def notTaken (pattern : String) : String := s!"bad like pattern '{pattern}'"

/-- Only a pattern that the engine does not take keeps an alternative from an answer. -/
theorem alternativeHolds_text (takes : Engine) (written : Written a.operator c) (value : String) :
    alternativeHolds takes a.text value =
      if c.pattern && !takes a.value then
        .error (.failed invalidArgument (notTaken a.value))
      else .ok ((if c.pattern then like a.value value else value == a.value) != c.negated) := by
  have operand : unquote? (' ' :: ('\'' :: a.value.toList ++ ['\''])) = some a.value.toList :=
    unquote?_quoted a.value.toList
  rw [alternativeHolds, text_toList, comparison?_written written]
  simp only [operand, String.ofList_toList]
  rfl

end DataGrid.Predicate
