import DataGrid.Proofs.Query.Comparisons
import DataGrid.Proofs.Query.Patterns
import DataGrid.Proofs.Path

/-! What the condition for the tree of a collection says of a value in that tree. The name of the
collection is put between quotes as it stands, twice. If no quote of its own is left open, the two
alternatives are read as they were meant, and the value is accepted unless its part below the name
has a line feed or the engine does not take the pattern. If one is left open, the whole condition is
read as a single alternative, which no value in the tree can be. -/
namespace DataGrid.Predicate
open Text Query

variable {quoted : Bool} {cs rest : List Char}

/-- A text that is read as one piece, in or out of quotes: no two bars in it are out of quotes. -/
def Uncut (quoted : Bool) (cs : List Char) : Prop := pieces quoted cs = [cs]

instance (quoted : Bool) (cs : List Char) : Decidable (Uncut quoted cs) :=
  inferInstanceAs (Decidable (pieces quoted cs = [cs]))

theorem pushChar_ne_nil (c : Char) (ps : List (List Char)) : pushChar c ps ≠ [] := by
  cases ps <;> simp [pushChar]

theorem pieces_ne_nil (quoted : Bool) (cs : List Char) : pieces quoted cs ≠ [] := by
  unfold pieces
  split
  · simp
  · split
    · exact pushChar_ne_nil _ _
    · simp
  · exact pushChar_ne_nil _ _

theorem pushChar_eq_singleton_iff {c : Char} {ps : List (List Char)} (some : ps ≠ []) :
    pushChar c ps = [c :: cs] ↔ ps = [cs] := by
  cases ps with
  | nil => contradiction
  | cons p ps => simp [pushChar]

/-- Within quotes after the text, if it begins within or out of quotes as said. -/
def quotedAfter (quoted : Bool) (cs : List Char) : Bool :=
  if cs.count '\'' % 2 = 0 then quoted else !quoted

theorem quotedAfter_cons (quoted : Bool) (c : Char) (cs : List Char) :
    quotedAfter quoted (c :: cs) = quotedAfter (if c = '\'' then !quoted else quoted) cs := by
  by_cases quote : c = '\''
  · rw [quotedAfter, quotedAfter, quote, List.count_cons_self, if_pos rfl, Bool.not_not]
    rcases Nat.mod_two_eq_zero_or_one (cs.count '\'') with even | odd
    · simp [Nat.add_mod, even]
    · simp [Nat.add_mod, odd]
  · rw [quotedAfter, quotedAfter, List.count_cons_of_ne quote, if_neg quote]

/-- Two bars in a row stand out of quotes. -/
def Barred (quoted : Bool) (cs : List Char) : Prop :=
  ∃ before after, cs = before ++ '|' :: '|' :: after ∧ quotedAfter quoted before = false

theorem barred_cons_iff {c : Char} : Barred quoted (c :: cs) ↔
    (quoted = false ∧ c = '|' ∧ cs.head? = some '|') ∨
      Barred (if c = '\'' then !quoted else quoted) cs := by
  constructor
  · rintro ⟨before, after, split, outside⟩
    cases before with
    | nil =>
      obtain ⟨rfl, rfl⟩ := List.cons.inj split
      exact .inl ⟨outside, rfl, rfl⟩
    | cons d before =>
      obtain ⟨rfl, rfl⟩ := List.cons.inj split
      rw [quotedAfter_cons] at outside
      exact .inr ⟨before, after, rfl, outside⟩
  · rintro (⟨rfl, rfl, next⟩ | ⟨before, after, rfl, outside⟩)
    · obtain ⟨after, rfl⟩ := List.head?_eq_some_iff.mp next
      exact ⟨[], after, rfl, rfl⟩
    · exact ⟨c :: before, after, rfl, by rwa [quotedAfter_cons]⟩

theorem uncut_iff : Uncut quoted cs ↔ ¬ Barred quoted cs := by
  unfold Uncut
  fun_induction pieces quoted cs with
  | case1 => simp [Barred]
  | case2 cs ih =>
    have within : Barred true ('|' :: '|' :: cs) ↔ Barred true ('|' :: cs) := by
      rw [barred_cons_iff]
      simp
    rw [pushChar_eq_singleton_iff (pieces_ne_nil _ _), ih, within]
  | case3 quoted cs outside => simp [barred_cons_iff, outside]
  | case4 quoted c cs alone ih =>
    have apart : ¬ (quoted = false ∧ c = '|' ∧ cs.head? = some '|') := by
      rintro ⟨-, bar, next⟩
      obtain ⟨more, rest⟩ := List.head?_eq_some_iff.mp next
      exact alone more bar rest
    rw [pushChar_eq_singleton_iff (pieces_ne_nil _ _), ih, barred_cons_iff, or_iff_right apart]

instance (quoted : Bool) (cs : List Char) : Decidable (Barred quoted cs) :=
  decidable_of_iff (¬ Uncut quoted cs) (by rw [uncut_iff, not_not])

/-- Bars within the quotes of the condition are part of the name. -/
theorem uncut_of_not_mem (unquoted : '\'' ∉ cs) : Uncut true cs := by
  rw [uncut_iff]
  rintro ⟨before, after, rfl, outside⟩
  have free : '\'' ∉ before := fun mem => unquoted (List.mem_append_left _ mem)
  rw [quotedAfter, List.count_eq_zero.mpr free] at outside
  contradiction

/-- A text that is not cut is passed over, unless it ends in a bar that the next one would be paired
with; each of its quotes opens or closes. -/
theorem pieces_append (uncut : Uncut quoted cs)
    (apart : cs.getLast? = some '|' → rest.head? ≠ some '|') :
    pieces quoted (cs ++ rest) = pushChars cs (pieces (quotedAfter quoted cs) rest) := by
  unfold Uncut at uncut
  fun_induction pieces quoted cs with
  | case1 => rfl
  | case2 cs ih =>
    have whole := ih ((pushChar_eq_singleton_iff (pieces_ne_nil _ _)).mp uncut) apart
    rw [quotedAfter_cons]
    exact congrArg (pushChar '|') whole
  | case3 => simp at uncut
  | case4 quoted c cs alone ih =>
    have whole := ih ((pushChar_eq_singleton_iff (pieces_ne_nil _ _)).mp uncut) fun last => by
      rw [List.getLast?_cons, last] at apart
      exact apart rfl
    have single : ∀ more, c = '|' → cs ++ rest = '|' :: more → False := by
      intro more bar next
      cases cs with
      | nil => exact apart (by rw [bar]; rfl) (by rw [← List.nil_append rest, next]; rfl)
      | cons d ds => exact alone ds bar (by rw [(List.cons.inj next).1])
    rw [quotedAfter_cons, List.cons_append, pieces, whole]
    · rfl
    · exact single

/-! The alternatives of the condition. -/

variable {name : List Char}

theorem inTree_toList (column coll : String) :
    (Condition.inTree column coll).predicate.toList =
      "= '".toList ++ ((Path.trim coll).toList ++ ("' || like '".toList ++
        ((Path.trim coll).toList ++ "/%'".toList))) := by
  simp [Condition.inTree]

/-- If the name leaves no quote open, there are two alternatives. -/
theorem pieces_of_even (even : name.count '\'' % 2 = 0) (uncut : Uncut true name) :
    pieces false ("= '".toList ++ (name ++ ("' || like '".toList ++ (name ++ "/%'".toList)))) =
      ["= '".toList ++ name ++ "' ".toList, " like '".toList ++ name ++ "/%'".toList] := by
  have kept : quotedAfter true name = true := if_pos even
  have second : pieces true (name ++ "/%'".toList) = [name ++ "/%'".toList] := by
    rw [pieces_append uncut (by simp), kept]
    exact pushChars_cons name _ []
  calc pieces false ("= '".toList ++ (name ++ ("' || like '".toList ++ (name ++ "/%'".toList))))
      = pushChars "= '".toList
          (pieces true (name ++ ("' || like '".toList ++ (name ++ "/%'".toList)))) := rfl
    _ = pushChars "= '".toList (pushChars name
          (pieces true ("' || like '".toList ++ (name ++ "/%'".toList)))) := by
        rw [pieces_append uncut (by simp), kept]
    _ = pushChars "= '".toList (pushChars name (pushChars "' ".toList
          ([] :: pushChars " like '".toList (pieces true (name ++ "/%'".toList))))) := rfl
    _ = _ := by
      rw [second]
      simp only [pushChars_cons]
      simp

/-- If the name leaves a quote open, there is one. -/
theorem pieces_of_odd (odd : name.count '\'' % 2 ≠ 0) (uncut : Uncut true name)
    (uncut' : Uncut false name) :
    pieces false ("= '".toList ++ (name ++ ("' || like '".toList ++ (name ++ "/%'".toList)))) =
      ["= '".toList ++ name ++ "' || like '".toList ++ name ++ "/%'".toList] := by
  have opened : quotedAfter true name = false := if_neg odd
  have closed : quotedAfter false name = true := if_neg odd
  have second : pieces false (name ++ "/%'".toList) = [name ++ "/%'".toList] := by
    rw [pieces_append uncut' (by simp), closed]
    exact pushChars_cons name _ []
  calc pieces false ("= '".toList ++ (name ++ ("' || like '".toList ++ (name ++ "/%'".toList))))
      = pushChars "= '".toList
          (pieces true (name ++ ("' || like '".toList ++ (name ++ "/%'".toList)))) := rfl
    _ = pushChars "= '".toList (pushChars name
          (pieces false ("' || like '".toList ++ (name ++ "/%'".toList)))) := by
        rw [pieces_append uncut (by simp), opened]
    _ = pushChars "= '".toList (pushChars name (pushChars "' || like '".toList
          (pieces false (name ++ "/%'".toList)))) := rfl
    _ = _ := by
      rw [second]
      simp only [pushChars_cons]
      simp

/-! The condition on a value in the tree. -/

variable {takes : Engine}

/-- A value in the tree is the name and nothing, or a slash and more. -/
theorem exists_below {v coll : String} (below : Path.within v coll = true) :
    ∃ rest, v.toList = (Path.trim coll).toList ++ rest ∧ ∀ c ∈ rest.head?, c = '/' := by
  obtain ⟨rest, h⟩ := Option.isSome_iff_exists.mp below
  obtain ⟨split, first⟩ := Path.eq_append_of_below? h
  obtain ⟨slashes, whole, all⟩ := Path.exists_append_trimChars v.toList
  refine ⟨rest ++ slashes, ?_, ?_⟩
  · rw [whole, split, Path.trim, String.toList_ofList, List.append_assoc]
  · cases rest with
    | nil =>
      intro c hc
      exact all c (List.mem_of_mem_head? hc)
    | cons d ds => simpa using first

/-- If the name leaves no quote open, the value is compared with it and, where it differs, matched
with its pattern. -/
theorem holds_eq_of_even {column coll : String}
    (even : (Path.trim coll).toList.count '\'' % 2 = 0) (uncut : Uncut true (Path.trim coll).toList)
    (v : String) :
    holds takes (Condition.inTree column coll).predicate v =
      if v = Path.trim coll then .ok true
      else if takes (Path.trim coll ++ "/%") then .ok (like (Path.trim coll ++ "/%") v)
      else .error (.failed invalidArgument (notTaken (Path.trim coll ++ "/%"))) := by
  generalize hname : (Path.trim coll).toList = name at even uncut
  have first : String.ofList (trimChars ("= '".toList ++ name ++ "' ".toList)) =
      Alternative.text ⟨"=", Path.trim coll⟩ :=
    ofList_trimChars_text Written.equal.solid [] [' '] rfl rfl (by simp [text_toList, hname])
  have pattern : Written "like" ⟨false, true⟩ := .like (by decide)
  have second : String.ofList (trimChars (" like '".toList ++ name ++ "/%'".toList)) =
      Alternative.text ⟨"like", Path.trim coll ++ "/%"⟩ :=
    ofList_trimChars_text pattern.solid [' '] [] rfl rfl (by simp [text_toList, hname])
  rw [holds, alternatives, inTree_toList, hname, pieces_of_even even uncut]
  simp only [List.map_cons, List.map_nil, first, second, anyHolds]
  rw [alternativeHolds_text takes (a := ⟨"=", Path.trim coll⟩) .equal,
    alternativeHolds_text takes (a := ⟨"like", Path.trim coll ++ "/%"⟩) pattern]
  by_cases same : v = Path.trim coll
  · simp [same]
  · have differs : (v == Path.trim coll) = false := beq_eq_false_iff_ne.mpr same
    cases takes (Path.trim coll ++ "/%") with
    | false => simp [same, differs]
    | true => cases like (Path.trim coll ++ "/%") v <;> simp [same, differs]

theorem holds_of_even {column coll : String} (even : (Path.trim coll).toList.count '\'' % 2 = 0)
    (uncut : Uncut true (Path.trim coll).toList) (v : String) :
    holds takes (Condition.inTree column coll).predicate v = .ok true ↔
      v = Path.trim coll ∨ takes (Path.trim coll ++ "/%") = true ∧
        Fits ((Path.trim coll).toList ++ "/%".toList) v.toList := by
  rw [holds_eq_of_even even uncut, ← String.toList_append, ← like_iff, String.ofList_toList]
  by_cases same : v = Path.trim coll
  · simp [same]
  · cases takes (Path.trim coll ++ "/%") <;> simp [same]

/-- If it leaves one open, the value is compared with the rest of the condition. -/
theorem holds_of_odd {column coll : String} (odd : (Path.trim coll).toList.count '\'' % 2 ≠ 0)
    (uncut : Uncut true (Path.trim coll).toList) (uncut' : Uncut false (Path.trim coll).toList)
    (v : String) :
    holds takes (Condition.inTree column coll).predicate v =
      .ok (v == Path.trim coll ++ ("' || like '" ++ Path.trim coll ++ "/%")) := by
  generalize hname : (Path.trim coll).toList = name at odd uncut uncut'
  let operand := Path.trim coll ++ ("' || like '" ++ Path.trim coll ++ "/%")
  have whole : String.ofList (trimChars ("= '".toList ++ name ++ "' || like '".toList ++ name ++
      "/%'".toList)) = Alternative.text ⟨"=", operand⟩ :=
    ofList_trimChars_text Written.equal.solid [] [] rfl rfl (by simp [text_toList, operand, hname])
  rw [holds, alternatives, inTree_toList, hname, pieces_of_odd odd uncut uncut']
  simp only [List.map_cons, List.map_nil, whole, anyHolds]
  rw [alternativeHolds_text takes (a := ⟨"=", operand⟩) .equal]
  cases v == operand <;> simp

/-- Exactly which values in the tree of a collection the condition for the tree accepts. -/
theorem inTree_holds_iff {column coll v : String} (below : Path.within v coll = true)
    (uncut : Uncut true (Path.trim coll).toList)
    (uncut' : (Path.trim coll).toList.count '\'' % 2 ≠ 0 → Uncut false (Path.trim coll).toList) :
    holds takes (Condition.inTree column coll).predicate v = .ok true ↔
      (Path.trim coll).toList.count '\'' % 2 = 0 ∧
        (v = Path.trim coll ∨ takes (Path.trim coll ++ "/%") = true ∧
          '\n' ∉ v.toList.drop (Path.trim coll).length) := by
  obtain ⟨rest, split, first⟩ := exists_below below
  have dropped : v.toList.drop (Path.trim coll).length = rest := by
    rw [split, ← String.length_toList, List.drop_left]
  by_cases even : (Path.trim coll).toList.count '\'' % 2 = 0
  · rw [holds_of_even even uncut, dropped]
    simp only [even, true_and]
    cases rest with
    | nil =>
      have same : v = Path.trim coll := by
        rw [← String.toList_inj, split, List.append_nil]
      simp [same]
    | cons c rest =>
      obtain rfl : c = '/' := first c rfl
      have fits := fits_below_iff (Path.trim coll).toList rest
      rw [split]
      have line : '\n' ∉ '/' :: rest ↔ '\n' ∉ rest := by simp
      rw [line, ← fits]
      rfl
  · rw [holds_of_odd even uncut (uncut' even)]
    simp only [even, false_and, iff_false]
    -- After the name, the value has a slash or ends, and the rest of the condition has a quote.
    intro accepted
    have same : v = Path.trim coll ++ ("' || like '" ++ Path.trim coll ++ "/%") := by
      simpa using accepted
    rw [← String.toList_inj, split, String.toList_append] at same
    have rest_eq := List.append_cancel_left same
    rw [rest_eq] at first
    exact absurd (first '\'' (by simp)) (by decide)

/-- A name with bars and wildcards, which a value in its tree spells out. -/
theorem inTree_holds_below_bars :
    holds .boundless (Condition.inTree "COLL_NAME" "/z/a||_%/").predicate "/z/a||_%/b" = .ok true :=
  (inTree_holds_iff (by decide) (uncut_of_not_mem (by decide)) (by decide)).mpr (by decide)

/-- With a quote in its name, a collection is not in its own tree, and neither is, in any tree,
a collection with a line feed in its name. -/
theorem inTree_drops_collections :
    (Path.within "/z/o'brien" "/z/o'brien" = true ∧
      holds .boundless (Condition.inTree "COLL_NAME" "/z/o'brien").predicate "/z/o'brien" =
        .ok false) ∧
    Path.within "/z/c/a\nb" "/z/c" = true ∧
      holds .boundless (Condition.inTree "COLL_NAME" "/z/c").predicate "/z/c/a\nb" = .ok false := by
  decide

end DataGrid.Predicate
