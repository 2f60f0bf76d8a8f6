import DataGrid.Proofs.Query.TreeCondition
import Mathlib.Data.List.TakeWhile

/-! What a predicate means. It is made of alternatives, each an operator and an operand between
quotes, and it holds of a value if one of them does. A pattern agrees with a value that can be cut
into parts, one for each character of the pattern, so that every character stands for its part. -/
namespace DataGrid.Predicate
open Text Query

variable {ps vs part cs rest : List Char} {operator : String} {c : Comparison} {a : Alternative}
  {as : List Alternative} {value : String} {takes : Engine}

/-! Patterns. -/

/-- `%` stands for any run of characters of a line, `_` for one of them, any other character for
itself. -/
def StandsFor (p : Char) (part : List Char) : Prop :=
  if p = '%' then '\n' ∉ part
  else if p = '_' then ∃ v, part = [v] ∧ v ≠ '\n'
  else part = [p]

/-- The value can be cut along the pattern. -/
def Agrees (pattern value : List Char) : Prop :=
  ∃ parts, List.Forall₂ StandsFor pattern parts ∧ parts.flatten = value

theorem Fits.run (later : Fits ps vs) (line : '\n' ∉ part) : Fits ('%' :: ps) (part ++ vs) := by
  induction part with
  | nil => exact .stop later
  | cons v part ih =>
    obtain ⟨first, line⟩ := not_or.mp (mt List.mem_cons.mpr line)
    exact .more (Ne.symm first) (ih line)

theorem agrees_iff_fits : Agrees ps vs ↔ Fits ps vs := by
  constructor
  · rintro ⟨parts, stand, rfl⟩
    induction stand with
    | nil => exact .nil
    | @cons p part ps parts stands _ later =>
      rw [List.flatten_cons]
      by_cases run : p = '%'
      · subst run
        exact later.run (by simpa [StandsFor] using stands)
      · by_cases one : p = '_'
        · subst one
          obtain ⟨v, rfl, line⟩ : ∃ v, part = [v] ∧ v ≠ '\n' := by simpa [StandsFor] using stands
          exact .one line later
        · obtain rfl : part = [p] := by simpa [StandsFor, run, one] using stands
          exact .same run one later
  · intro fits
    induction fits with
    | nil => exact ⟨[], .nil, rfl⟩
    | stop _ ih =>
      obtain ⟨parts, stand, rfl⟩ := ih
      exact ⟨[] :: parts, .cons (by simp [StandsFor]) stand, rfl⟩
    | @more v _ _ line _ ih =>
      -- the run is one character longer than what it stands for in the rest of the value
      obtain ⟨_, stand, rfl⟩ := ih
      cases stand with
      | @cons _ part _ parts run stand =>
        refine ⟨(v :: part) :: parts, .cons ?_ stand, rfl⟩
        simp only [StandsFor, if_true, List.mem_cons, not_or] at run ⊢
        exact ⟨Ne.symm line, run⟩
    | @one v _ _ line _ ih =>
      obtain ⟨parts, stand, rfl⟩ := ih
      exact ⟨[v] :: parts, .cons (by simp [StandsFor, line]) stand, rfl⟩
    | @same p _ _ run one _ ih =>
      obtain ⟨parts, stand, rfl⟩ := ih
      exact ⟨[p] :: parts, .cons (by simp [StandsFor, run, one]) stand, rfl⟩

/-! Alternatives. -/

def Comparison.Holds (c : Comparison) (operand value : String) : Prop :=
  let agrees := if c.pattern then Agrees operand.toList value.toList else value = operand
  if c.negated then ¬ agrees else agrees

/-- The operator is one of the five, and the quotes around the operand are the only ones. -/
structure Offered (a : Alternative) : Prop where
  operator : ∃ c, Written a.operator c
  value : '\'' ∉ a.value.toList

def Means (a : Alternative) (value : String) : Prop :=
  ∃ c, Written a.operator c ∧ c.Holds a.value value

/-- The engine takes the pattern of the alternative, if it has one. -/
def Compiles (takes : Engine) (a : Alternative) : Prop :=
  ∀ c, Written a.operator c → c.pattern = true → takes a.value = true

theorem hit_iff (c : Comparison) (operand value : String) :
    ((if c.pattern then like operand value else value == operand) != c.negated) = true ↔
      c.Holds operand value := by
  have agrees : like operand value = true ↔ Agrees operand.toList value.toList := by
    rw [agrees_iff_fits, ← like_iff, String.ofList_toList]
  obtain ⟨negated, pattern⟩ := c
  cases pattern <;> cases negated <;> simp [Comparison.Holds, ← agrees]

/-- An alternative whose pattern is taken decides every value, by what it means. -/
theorem Offered.decides (offered : Offered a) (compiles : Compiles takes a) (value : String) :
    ∃ b, alternativeHolds takes a.text value = .ok b ∧ (b = true ↔ Means a value) := by
  obtain ⟨c, written⟩ := offered.operator
  refine ⟨_, ?_, (hit_iff c a.value value).trans ?_⟩
  · rw [alternativeHolds_text takes written, if_neg]
    cases pattern : c.pattern with
    | false => simp
    | true => simp [compiles c written pattern]
  · constructor
    · exact fun holds => ⟨c, written, holds⟩
    · rintro ⟨c', written', holds⟩
      rwa [written.unique written']

theorem anyHolds_texts (decided : ∀ a ∈ as,
    ∃ b, alternativeHolds takes a.text value = .ok b ∧ (b = true ↔ Means a value)) :
    ∃ b, anyHolds takes value (as.map Alternative.text) = .ok b ∧
      (b = true ↔ ∃ a ∈ as, Means a value) := by
  induction as with
  | nil => exact ⟨false, rfl, by simp⟩
  | cons a as ih =>
    obtain ⟨here, answer, means⟩ := decided a List.mem_cons_self
    obtain ⟨later, answers, mean⟩ := ih fun b mem => decided b (List.mem_cons_of_mem a mem)
    cases here with
    | true => exact ⟨true, by simp [anyHolds, answer], by simp [means.mp]⟩
    | false =>
      have silent : ¬ Means a value := fun meant => absurd (means.mpr meant) (by decide)
      exact ⟨later, by simp [anyHolds, answer, answers], by simp [mean, silent]⟩

/-! Alternatives joined and cut apart. -/

/-- Blanks around a text are trimmed along with its own. -/
theorem trimChars_between {lead trail : List Char} (lead_blank : lead.all isBlank = true)
    (trail_blank : trail.all isBlank = true) (cs : List Char) :
    trimChars (lead ++ (cs ++ trail)) = trimChars cs := by
  rw [trimChars, trimChars, List.dropWhile_append_of_pos (List.all_eq_true.mp lead_blank),
    List.dropWhile_append]
  cases blank : (cs.dropWhile isBlank).isEmpty with
  | true =>
    have none : trail.dropWhile isBlank = [] :=
      List.dropWhile_eq_nil_iff.mpr (List.all_eq_true.mp trail_blank)
    rw [if_pos rfl, none, List.isEmpty_iff.mp blank]
  | false => exact dropEndWhile_append_of_all _ trail_blank

/-- One alternative by itself: it needs no trimming, leaves no quote open and is not cut. -/
structure Single (cs : List Char) : Prop where
  trimmed : trimChars cs = cs
  even : cs.count '\'' % 2 = 0
  uncut : Uncut false cs

/-- A text without bars is passed over, whatever comes after it. -/
theorem pieces_barless (free : '|' ∉ cs) (quoted : Bool) (rest : List Char) :
    pieces quoted (cs ++ rest) = pushChars cs (pieces (quotedAfter quoted cs) rest) := by
  induction cs generalizing quoted with
  | nil => rfl
  | cons c cs ih =>
    obtain ⟨differs, free⟩ := not_or.mp (mt List.mem_cons.mpr free)
    rw [List.cons_append, pieces, ih free, quotedAfter_cons]
    · rfl
    · exact fun _ bar _ => differs bar.symm

theorem Single.map_pieces_join {texts : List (List Char)} (some : texts ≠ [])
    (single : ∀ cs ∈ texts, Single cs) {lead : List Char} (lead_blank : lead.all isBlank = true) :
    (pieces false (lead ++ " || ".toList.intercalate texts)).map trimChars = texts := by
  induction texts generalizing lead with
  | nil => contradiction
  | cons cs texts ih =>
    have here := single cs List.mem_cons_self
    have closed : quotedAfter false cs = false := if_pos here.even
    have barless : '|' ∉ lead := fun mem =>
      absurd (List.all_eq_true.mp lead_blank _ mem) (by decide)
    have quoteless : '\'' ∉ lead := fun mem =>
      absurd (List.all_eq_true.mp lead_blank _ mem) (by decide)
    have outside : quotedAfter false lead = false :=
      if_pos (by rw [List.count_eq_zero.mpr quoteless])
    rw [pieces_barless barless, outside]
    cases texts with
    | nil =>
      have whole : pieces false cs = [cs] := here.uncut
      rw [List.intercalate_singleton, whole, pushChars_cons, List.map_singleton,
        ← List.append_nil cs, trimChars_between lead_blank rfl, List.append_nil, here.trimmed]
    | cons next texts =>
      have others := ih (List.cons_ne_nil _ _)
        (fun cs mem => single cs (List.mem_cons_of_mem _ mem))
        (show [' '].all isBlank = true from rfl)
      rw [List.intercalate_cons_cons, List.append_assoc, pieces_append here.uncut (by simp), closed]
      change (pushChars lead (pushChars cs ([' '] ::
        pieces false ([' '] ++ " || ".toList.intercalate (next :: texts))))).map trimChars = _
      rw [pushChars_cons, pushChars_cons, List.map_cons, others,
        trimChars_between lead_blank rfl, here.trimmed]

/-- Alternatives joined by bars are cut apart again. -/
theorem alternatives_join {texts : List String} (some : texts ≠ [])
    (single : ∀ s ∈ texts, Single s.toList) : alternatives (" || ".intercalate texts) = texts := by
  have filled : texts.map String.toList ≠ [] := by simpa using some
  have cut := Single.map_pieces_join filled (by simpa using single)
    (show [].all isBlank = true from rfl)
  rw [List.nil_append] at cut
  calc alternatives (" || ".intercalate texts)
      = ((pieces false (" || ".toList.intercalate (texts.map String.toList))).map trimChars).map
          String.ofList := by rw [alternatives, String.toList_intercalate, List.map_map]; rfl
    _ = texts := by rw [cut, List.map_map]; simp

theorem Written.bare (written : Written operator c) :
    '|' ∉ operator.toList ∧ '\'' ∉ operator.toList := by
  cases written with
  | equal => decide
  | angles => decide
  | bang => decide
  | like letters =>
    exact ⟨mt (lower_mem_of_sameLetters letters) (by decide),
      mt (lower_mem_of_sameLetters letters) (by decide)⟩
  | notLike letters =>
    exact ⟨mt (lower_mem_of_sameLetters letters) (by decide),
      mt (lower_mem_of_sameLetters letters) (by decide)⟩

/-- An operator without bars and quotes is not cut, and neither is what stands between quotes. -/
theorem single_text (bare : '|' ∉ a.operator.toList ∧ '\'' ∉ a.operator.toList)
    (solid : ∃ d ∈ a.operator.toList.head?, isBlank d = false) (value : '\'' ∉ a.value.toList) :
    Single a.text.toList := by
  obtain ⟨barless, quoteless⟩ := bare
  have spelled : a.text.toList =
      (a.operator.toList ++ [' ', '\'']) ++ (a.value.toList ++ ['\'']) := by
    simp [text_toList]
  have opened : quotedAfter false (a.operator.toList ++ [' ', '\'']) = true :=
    if_neg (by simp [List.count_eq_zero.mpr quoteless])
  have kept : quotedAfter true a.value.toList = true :=
    if_pos (by rw [List.count_eq_zero.mpr value])
  refine ⟨?_, ?_, ?_⟩
  · simpa using (trimmed_text solid).trimChars [] [] rfl rfl
  · simp [spelled, List.count_eq_zero.mpr quoteless, List.count_eq_zero.mpr value]
  · have last : pieces true ['\''] = [['\'']] := rfl
    rw [Uncut, spelled, pieces_barless (by simp [barless]), opened,
      pieces_append (uncut_of_not_mem value) (by simp), kept, last, pushChars_cons,
      pushChars_cons]

theorem Offered.single (offered : Offered a) : Single a.text.toList := by
  obtain ⟨c, written⟩ := offered.operator
  exact single_text written.bare written.solid offered.value

/-- A predicate of such alternatives decides every value, and holds of it exactly if one of the
alternatives does. -/
theorem holds_iff_means (takes : Engine) (alternatives : List Alternative)
    (some : alternatives ≠ []) (offered : ∀ a ∈ alternatives, Offered a)
    (compiles : ∀ a ∈ alternatives, Compiles takes a) (value : String) :
    ∃ b, holds takes (predicateOf alternatives) value = .ok b ∧
      (b = true ↔ ∃ a ∈ alternatives, Means a value) := by
  have single : ∀ s ∈ alternatives.map Alternative.text, Single s.toList := by
    simpa using fun a mem => (offered a mem).single
  rw [holds, predicateOf, alternatives_join (by simpa using some) single]
  exact anyHolds_texts fun a mem => (offered a mem).decides (compiles a mem) value

/-- Bars, wildcards and signs that mean something elsewhere, in operands under three operators. -/
theorem means_of_bars_and_wildcards :
    let alternatives : List Alternative := [⟨"=", "a||b"⟩, ⟨"NOT Like", "%||_.*"⟩, ⟨"<>", "x||y.*"⟩]
    (∃ b, holds .boundless (predicateOf alternatives) "x||y.*" = .ok b ∧
      (b = true ↔ ∃ a ∈ alternatives, Means a "x||y.*")) ∧
    holds .boundless (predicateOf alternatives) "x||y.*" = .ok false ∧
    holds .boundless (predicateOf alternatives) "x||\n.*" = .ok true := by
  refine ⟨holds_iff_means _ _ (by simp) ?_ ?_ _, by decide, by decide⟩
  · simp only [List.forall_mem_cons]
    exact ⟨⟨⟨_, .equal⟩, by decide⟩, ⟨⟨_, .notLike (by decide)⟩, by decide⟩,
      ⟨⟨_, .angles⟩, by decide⟩, by simp⟩
  · simp only [List.forall_mem_cons]
    refine ⟨fun _ _ _ => by decide, fun _ _ _ => by decide, fun _ _ _ => by decide, by simp⟩

end DataGrid.Predicate
