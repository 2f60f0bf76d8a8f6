import DataGrid.Proofs.Query.Accepted
import DataGrid.Proofs.Query.Meaning

/-! Operators as queries spell them and as predicates know them. A query keeps an operator the way
it is written, with any blanks between two words and with the kelvin sign for a k; a predicate knows
the two words by a single space and the letters by ASCII. It answers for an operator just as for its
usual spelling if the two differ in the case of ASCII letters at most, and not at all otherwise. -/
namespace DataGrid.Predicate
open Text Query

/-- The operators that a predicate knows, in their usual spelling. -/
def offered : List String := ["=", "<>", "!=", "like", "not like"]

/-- A condition by one of these operators, as it is written, and one operand in quotes. -/
structure Compares (c : Condition) (operator : String) (written : List Char) (operand : String) :
    Prop where
  offered : operator ∈ offered
  value : '\'' ∉ operand.toList
  reads : ∃ text, Reads text c operator written ('\'' :: operand.toList ++ ['\''])

variable {takes : Engine} {operator operand : String} {written rest : List Char} {c : Condition}
  {letter d : Char} {select : List String} {conditions : List Condition}

theorem toLower_of_isLetter (h : isLetter letter d = true) (plain : letter ≠ 's' ∧ letter ≠ 'k') :
    d.toLower = letter := by
  simpa [isLetter, plain] using h

theorem exists_written (mem : operator ∈ offered) : ∃ c, Written operator c := by
  simp only [offered, List.mem_cons, List.not_mem_nil, or_false] at mem
  rcases mem with rfl | rfl | rfl | rfl | rfl
  · exact ⟨_, .equal⟩
  · exact ⟨_, .angles⟩
  · exact ⟨_, .bang⟩
  · exact ⟨_, .like (by decide)⟩
  · exact ⟨_, .notLike (by decide)⟩

/-- A word that begins with another letter is another word. -/
theorem sameLetters_eq_false {word : List Char} {e : Char} (h : isLetter letter d = true)
    (plain : letter ≠ 's' ∧ letter ≠ 'k') (other : e.toLower ≠ letter) (tail : List Char) :
    sameLetters (e :: word) (d :: tail) = false := by
  rw [Bool.eq_false_iff, ne_eq, sameLetters_iff]
  intro same
  exact other ((List.cons.inj same).1.trans (toLower_of_isLetter h plain))

theorem comparison?_eq_none {tail : List Char}
    (first : sameLetters "not like".toList ((d :: tail).take 8) = false)
    (second : sameLetters "like".toList ((d :: tail).take 4) = false)
    (sign : d ∉ ['=', '<', '!']) : comparison? (d :: tail) = none := by
  unfold comparison?
  rw [first, second]
  simp only [Bool.false_eq_true, if_false]
  split
  · next same =>
    cases same
    exact absurd (by decide) sign
  · next same =>
    cases same
    exact absurd (by decide) sign
  · next same =>
    cases same
    exact absurd (by decide) sign
  · rfl

theorem not_sign_of_isLetter (h : isLetter letter d = true) (sign : letter ∈ ['l', 'n']) :
    d ∉ ['=', '<', '!'] := by
  revert letter
  simp only [List.mem_cons, List.not_mem_nil, or_false]
  rintro _ h (rfl | rfl) (rfl | rfl | rfl) <;> exact absurd h (by decide)

theorem exists_cons_of_inLetters {word : List Char} (letters : InLetters (letter :: word) written) :
    ∃ d tail, written = d :: tail ∧ isLetter letter d = true := by
  cases letters with
  | cons first _ => exact ⟨_, _, rfl, first⟩

/-- A word for a pattern that ASCII does not spell is no comparison. -/
theorem comparison?_of_like (letters : InLetters "like".toList written)
    (other : sameLetters "like".toList written = false) :
    comparison? (written ++ rest) = none := by
  have length : written.length = 4 := letters.length
  obtain ⟨d, tail, rfl, first⟩ := exists_cons_of_inLetters
    (show InLetters ['l', 'i', 'k', 'e'] written from letters)
  have four : (d :: (tail ++ rest)).take 4 = d :: tail := List.take_left' length
  rw [List.cons_append]
  refine comparison?_eq_none ?_ (by rwa [four]) (not_sign_of_isLetter first (by decide))
  exact sameLetters_eq_false first (by decide) (by decide) _

/-- Two words for a negated pattern with other blanks than a space are no comparison. -/
theorem comparison?_of_notLike {negation blanks word : List Char}
    (first : InLetters "not".toList negation) (apart : blanks ≠ [])
    (blank : blanks.all isBlank = true) (second : InLetters "like".toList word)
    (other : sameLetters "not like".toList (negation ++ blanks ++ word) = false) :
    comparison? (negation ++ blanks ++ word ++ rest) = none := by
  have three : negation.length = 3 := first.length
  have four : word.length = 4 := second.length
  have none :
      sameLetters "not like".toList ((negation ++ blanks ++ word ++ rest).take 8) = false := by
    obtain ⟨b, blanks, rfl⟩ := List.exists_cons_of_ne_nil apart
    cases blanks with
    | nil =>
      have length : (negation ++ [b] ++ word).length = 8 := by simp [three, four]
      rwa [List.take_left' length]
    | cons d blanks =>
      -- the second blank stands where the second word would begin
      have fifth : ((negation ++ b :: d :: blanks ++ word ++ rest).take 8)[4]? = some d := by
        simp [three, List.getElem?_append]
      rw [Bool.eq_false_iff, ne_eq, sameLetters_iff]
      intro same
      have letter := congrArg (fun cs => cs[4]?) same
      simp only [List.getElem?_map, fifth, Option.map_some] at letter
      have gap : isBlank d = true := List.all_eq_true.mp blank d (by simp)
      rw [toLower_of_isBlank gap] at letter
      cases (show some 'l' = some d from letter)
      exact absurd gap (by decide)
  obtain ⟨n, tail, rfl, letter⟩ := exists_cons_of_inLetters
    (show InLetters ['n', 'o', 't'] negation from first)
  refine comparison?_eq_none none ?_ (not_sign_of_isLetter letter (by decide))
  exact sameLetters_eq_false letter (by decide) (by decide) _

/-- An operator that is written as usual is the same comparison, and one that is not is none. -/
theorem comparison?_spelled (spelled : Spelled operator written) (mem : operator ∈ offered)
    (rest : List Char) :
    if sameLetters operator.toList written then
      ∃ c, Written operator c ∧ Written (String.ofList written) c
    else comparison? (written ++ rest) = none := by
  have only : ∀ word ∈ ["like", "in", "between"], word ∈ offered → word = "like" := by decide
  split
  · next same =>
    have respelled : sameLetters operator.toList (String.ofList written).toList = true := by
      rwa [String.toList_ofList (l := written)]
    cases spelled with
    | sign _ =>
      obtain ⟨c, known⟩ := exists_written mem
      exact ⟨c, known, by rwa [String.ofList_toList]⟩
    | word words letters =>
      obtain rfl := only operator words mem
      exact ⟨_, .like rfl, .like respelled⟩
    | notLike => exact ⟨_, .notLike rfl, .notLike respelled⟩
  · next other =>
    rw [Bool.not_eq_true] at other
    cases spelled with
    | sign _ =>
      rw [sameLetters, beq_self_eq_true] at other
      cases other
    | word words letters =>
      obtain rfl := only operator words mem
      exact comparison?_of_like letters other
    | notLike first apart blank second =>
      exact comparison?_of_notLike first apart blank second other

theorem holds_single {s : String} (single : Single s.toList) (value : String) :
    holds takes s value = alternativeHolds takes s value := by
  have whole : alternatives s = [s] := by
    have := alternatives_join (List.cons_ne_nil s []) (by simpa using single)
    simpa using this
  rw [holds, whole, anyHolds]
  cases alternativeHolds takes s value with
  | error e => rfl
  | ok b => cases b <;> rfl

theorem Compares.predicate (compares : Compares c operator written operand) :
    c.predicate = Alternative.text ⟨String.ofList written, operand⟩ := by
  obtain ⟨text, reads⟩ := compares.reads
  rw [reads.predicate, ← String.toList_inj, text_toList]
  simp

theorem Compares.spelled (compares : Compares c operator written operand) :
    Spelled operator written :=
  compares.reads.elim fun _ reads => reads.spelled

theorem Compares.single (compares : Compares c operator written operand) :
    Single (Alternative.text ⟨String.ofList written, operand⟩).toList := by
  have spelled := compares.spelled
  apply single_text
  · simpa using spelled.bare
  · simpa using spelled.solid
  · exact compares.value

theorem Compares.holds (compares : Compares c operator written operand) (value : String) :
    holds takes c.predicate value =
      if sameLetters operator.toList written then
        holds takes (Alternative.text ⟨operator, operand⟩) value
      else .error (.failed invalidArgument s!"unsupported predicate '{c.predicate}'") := by
  rw [compares.predicate, holds_single compares.single]
  have spelled := comparison?_spelled compares.spelled compares.offered
    (' ' :: ('\'' :: operand.toList ++ ['\'']))
  split at spelled
  · next same =>
    obtain ⟨comparison, usual, asWritten⟩ := spelled
    have known : Offered ⟨operator, operand⟩ := ⟨⟨comparison, usual⟩, compares.value⟩
    rw [if_pos same, holds_single known.single]
    have written' :=
      alternativeHolds_text takes (a := ⟨String.ofList written, operand⟩) asWritten value
    have usual' := alternativeHolds_text takes (a := ⟨operator, operand⟩) usual value
    exact written'.trans usual'.symm
  · next other =>
    rw [if_neg other, alternativeHolds, text_toList]
    simp only [String.toList_ofList]
    rw [spelled]

/-- A condition of an accepted query is answered as for the usual spelling of its operator if it is
spelled so up to the case of ASCII letters; a condition with any other spelling is refused. -/
theorem answers_usual_spelling {query : String} (takes : Engine)
    (parsed : parse query = .ok (select, conditions)) :
    ∀ c ∈ conditions, (∃ text, ReadFrom text c) ∧
      ∀ operator written operand, Compares c operator written operand →
        (∀ value, holds takes c.predicate value =
          if sameLetters operator.toList written then
            holds takes (Alternative.text ⟨operator, operand⟩) value
          else .error (.failed invalidArgument s!"unsupported predicate '{c.predicate}'")) ∧
        (sameLetters operator.toList written = true → 
          Compiles takes ⟨operator, operand⟩ →
            ∀ value, ∃ b, holds takes c.predicate value = .ok b) := by
  intro c mem
  obtain ⟨body, -, clauses⟩ := (accepted_of_parse parsed).1.read
  refine ⟨clauses.readFrom c mem, fun operator written operand compares =>
    ⟨compares.holds, fun same compiles value => ?_⟩⟩
  obtain ⟨comparison, usual⟩ := exists_written compares.offered
  have known : Offered ⟨operator, operand⟩ := ⟨⟨comparison, usual⟩, compares.value⟩
  obtain ⟨b, answer, -⟩ := known.decides compiles value
  exact ⟨b, by rw [compares.holds, if_pos same, holds_single known.single, answer]⟩

/-- Capitals and more blanks around the operator change nothing. -/
theorem answers_in_capitals :
    parse "SELECT A WHERE A  NOT LIKE\t'x%'" = .ok (["A"], [⟨"A", "NOT LIKE 'x%'"⟩]) ∧
      holds .boundless "NOT LIKE 'x%'" "y" = holds .boundless "not like 'x%'" "y" ∧
      ∃ b, holds .boundless "NOT LIKE 'x%'" "y" = .ok b := by
  have parsed : parse "SELECT A WHERE A  NOT LIKE\t'x%'" =
    .ok (["A"], [⟨"A", "NOT LIKE 'x%'"⟩]) := rfl
  have compares : Compares ⟨"A", "NOT LIKE 'x%'"⟩ "not like" "NOT LIKE".toList "x%" := by
    refine ⟨by decide, by decide, "A  NOT LIKE\t'x%'".toList, ?_⟩
    have first : InLetters "not".toList "NOT".toList := .cons rfl (.cons rfl (.cons rfl .nil))
    have second : InLetters "like".toList "LIKE".toList :=
      .cons rfl (.cons rfl (.cons rfl (.cons rfl .nil)))
    exact ⟨rfl, .notLike first (List.cons_ne_nil ' ' []) rfl second,
      ⟨⟨'\'', rfl, rfl⟩, ⟨'\'', rfl, rfl⟩⟩, by decide, rfl, [], "  ".toList, ['\t'], [], rfl, rfl⟩
  obtain ⟨same, decided⟩ := (answers_usual_spelling _ parsed _ List.mem_cons_self).2 _ _ _ compares
  exact ⟨parsed, same "y", decided rfl (fun _ _ _ => by decide) "y"⟩

/-- Two blanks between two words, and a kelvin sign: queries keep them, predicates refuse them. -/
theorem spellings_refused :
    parse "SELECT A WHERE A NOT  LIKE 'x%'" = .ok (["A"], [⟨"A", "NOT  LIKE 'x%'"⟩]) ∧
      holds .boundless "NOT  LIKE 'x%'" "y" =
        .error (.failed invalidArgument "unsupported predicate 'NOT  LIKE 'x%''") ∧
      holds .boundless "not like 'x%'" "y" = .ok true ∧
      parse "SELECT A WHERE A li\u212ae 'x%'" = .ok (["A"], [⟨"A", "li\u212ae 'x%'"⟩]) ∧
      holds .boundless "li\u212ae 'x%'" "x" =
        .error (.failed invalidArgument "unsupported predicate 'li\u212ae 'x%''") ∧
      holds .boundless "like 'x%'" "x" = .ok true :=
  ⟨rfl, by decide, by decide, rfl, by decide, by decide⟩

end DataGrid.Predicate
