import DataGrid.Proofs.Query.Scanning
import DataGrid.Query.Cursor

/-! Queries rendered as text and read back. The columns are identifiers, and each condition is a
column with alternatives of an operator and a value in quotes; such a query comes back as it was,
whatever the values hold apart from quotes. -/
namespace DataGrid.Query
open Text

/-- The operators of alternatives, as they are written. -/
def operators : List String :=
  ["=", "<>", "!=", "<=", ">=", "<", ">", "like", "not like", "in", "between"]

/-- An operator and a value that is written between quotes. -/
structure Alternative where
  operator : String
  value : String

namespace Alternative

def text (a : Alternative) : String := a.operator ++ " '" ++ a.value ++ "'"

structure Regular (a : Alternative) : Prop where
  operator : a.operator ∈ operators
  value : '\'' ∉ a.value.toList

end Alternative

/-- Several alternatives for the same column. -/
def predicateOf (alternatives : List Alternative) : String :=
  " || ".intercalate (alternatives.map Alternative.text)

/-- A name that does not read as the keyword. -/
structure Column (keyword : String) (name : List Char) : Prop where
  identifier : isIdentifier name = true
  other : sameLetters keyword.toList name = false

structure Regular (c : Condition) : Prop where
  column : Column "where" c.column.toList
  notAnd : Column "and" c.column.toList
  predicate : ∃ alternatives, alternatives ≠ [] ∧ (∀ a ∈ alternatives, a.Regular) ∧
    c.predicate = predicateOf alternatives

def conditionText (c : Condition) : String := c.column ++ " " ++ c.predicate

/-- The text of a query for these columns under these conditions. -/
def text (select : List String) (conditions : List Condition) : String :=
  render (", ".intercalate select) (" AND ".intercalate (conditions.map conditionText))

variable {keyword : String} {name lead trail rest : List Char} {a : Alternative}
  {alternatives : List Alternative} {c : Condition} {conditions : List Condition}

/-! Names. -/

theorem toNat_of_isNameChar {c : Char} (h : isNameChar c = true) :
    48 ≤ c.toNat ∧ c.toNat ≤ 122 := by
  simp only [isNameChar, Char.isAlphanum] at h
  delta Char.isAlpha Char.isUpper Char.isLower at h
  simp only [Char.isDigit, Bool.or_eq_true, Bool.and_eq_true, decide_eq_true_eq, beq_iff_eq,
    UInt32.le_iff_toNat_le] at h
  rcases h with h | rfl
  · simp only [↓Char.isValue, Char.reduceVal, UInt32.reduceToNat, Char.toNat_val] at h
    omega
  · decide

theorem isBlank_of_isNameChar {c : Char} (h : isNameChar c = true) : isBlank c = false := by
  have := toNat_of_isNameChar h
  simp only [isBlank, Bool.or_eq_false_iff, Bool.and_eq_false_iff, decide_eq_false_iff_not,
    beq_eq_false_iff_ne]
  omega

theorem isAsciiBlank_of_isNameChar {c : Char} (h : isNameChar c = true) :
    isAsciiBlank c = false := by
  have solid := isBlank_of_isNameChar h
  cases blank : isAsciiBlank c with
  | false => rfl
  | true => rw [isBlank_of_isAsciiBlank blank] at solid; cases solid

theorem isNameChar_of_mem (identifier : isIdentifier name = true) {c : Char} (mem : c ∈ name) :
    isNameChar c = true := by
  cases name with
  | nil => cases mem
  | cons d ds =>
    obtain ⟨start, tail⟩ := (Bool.and_eq_true _ _).mp identifier
    rcases List.mem_cons.mp mem with rfl | mem
    · simp only [isNameStart, isNameChar, Char.isAlphanum, Bool.or_eq_true] at start ⊢
      exact start.imp_left .inl
    · exact List.all_eq_true.mp tail c mem

theorem ne_nil_of_isIdentifier (identifier : isIdentifier name = true) : name ≠ [] := by
  rintro rfl
  cases identifier

theorem plain_of_isIdentifier (identifier : isIdentifier name = true) : Plain name := by
  intro c mem
  have h := isNameChar_of_mem identifier mem
  refine ⟨isAsciiBlank_of_isNameChar h, ?_⟩
  rintro rfl
  revert h
  decide

theorem comma_not_mem (identifier : isIdentifier name = true) : ',' ∉ name := fun mem =>
  absurd (isNameChar_of_mem identifier mem) (by decide)

/-! Trimming a text between blanks. -/

/-- Starts and ends with something that is not blank. -/
structure Trimmed (cs : List Char) : Prop where
  first : ∃ c ∈ cs.head?, isBlank c = false
  last : ∃ c ∈ cs.getLast?, isBlank c = false

theorem Trimmed.dropWhile {cs : List Char} (trimmed : Trimmed cs) (lead rest : List Char)
    (lead_blank : lead.all isBlank = true) :
    (lead ++ (cs ++ rest)).dropWhile isBlank = cs ++ rest := by
  obtain ⟨c, head, solid⟩ := trimmed.first
  obtain ⟨tail, rfl⟩ := List.head?_eq_some_iff.mp head
  rw [List.dropWhile_append_of_pos (List.all_eq_true.mp lead_blank), List.cons_append,
    List.dropWhile_cons_of_neg (by simp [solid])]

theorem Trimmed.trimChars {cs : List Char} (trimmed : Trimmed cs) (lead trail : List Char)
    (lead_blank : lead.all isBlank = true) (trail_blank : trail.all isBlank = true) :
    trimChars (lead ++ (cs ++ trail)) = cs := by
  rw [Text.trimChars, trimmed.dropWhile lead trail lead_blank]
  obtain ⟨c, last, solid⟩ := trimmed.last
  obtain ⟨init, rfl⟩ := List.getLast?_eq_some_iff.mp last
  have blank : ∀ c ∈ trail.reverse, isBlank c = true := by
    simpa using List.all_eq_true.mp trail_blank
  rw [dropEndWhile, List.reverse_append, List.dropWhile_append_of_pos blank]
  exact dropEndWhile_append_of_neg init solid

theorem trimmed_of_isIdentifier (identifier : isIdentifier name = true) : Trimmed name := by
  have nonempty := ne_nil_of_isIdentifier identifier
  have solid {c : Char} (mem : c ∈ name) := isBlank_of_isNameChar (isNameChar_of_mem identifier mem)
  exact ⟨⟨_, List.head?_eq_some_head nonempty, solid (List.head_mem nonempty)⟩,
    ⟨_, List.getLast?_eq_some_getLast nonempty, solid (List.getLast_mem nonempty)⟩⟩

/-! Columns. -/

theorem commaPieces_append {cs : List Char} (free : ',' ∉ cs) (rest : List Char) :
    commaPieces (cs ++ ',' :: rest) = cs :: commaPieces rest := by
  induction cs with
  | nil => rfl
  | cons c cs ih =>
    have differs : c ≠ ',' := fun same => free (same ▸ List.mem_cons_self)
    rw [List.cons_append, commaPieces, if_neg differs,
      ih fun mem => free (List.mem_cons_of_mem c mem)]
    rfl

theorem commaPieces_of_not_mem {cs : List Char} (free : ',' ∉ cs) : commaPieces cs = [cs] := by
  induction cs with
  | nil => rfl
  | cons c cs ih =>
    have differs : c ≠ ',' := fun same => free (same ▸ List.mem_cons_self)
    rw [commaPieces, if_neg differs, ih fun mem => free (List.mem_cons_of_mem c mem)]
    rfl

/-- Names with commas between them, as in the list of columns. -/
abbrev listed (names : List (List Char)) : List Char := ", ".toList.intercalate names

theorem listed_cons (name next : List Char) (names : List (List Char)) :
    listed (name :: next :: names) = name ++ ',' :: ' ' :: listed (next :: names) := by
  simp [listed, List.intercalate_cons_cons]

theorem trimmed_pieces {names : List (List Char)} (nonempty : names ≠ [])
    (identifiers : ∀ name ∈ names, isIdentifier name = true) (lead : List Char)
    (lead_blank : lead.all isBlank = true) (free : ',' ∉ lead) :
    (commaPieces (lead ++ (listed names ++ [' ']))).map trimChars = names := by
  induction names generalizing lead with
  | nil => contradiction
  | cons name names ih =>
    have identifier := identifiers name List.mem_cons_self
    have trimmed := trimmed_of_isIdentifier identifier
    have comma := comma_not_mem identifier
    cases names with
    | nil =>
      rw [listed, List.intercalate_singleton, commaPieces_of_not_mem (by simp [free, comma])]
      simp [trimmed.trimChars lead [' '] lead_blank rfl]
    | cons next names =>
      have rest := ih (List.cons_ne_nil _ _)
        (fun name mem => identifiers name (List.mem_cons_of_mem _ mem)) [' '] rfl (by decide)
      have here := trimmed.trimChars lead [] lead_blank rfl
      rw [List.append_nil] at here
      rw [listed_cons, List.append_assoc, ← List.append_assoc lead, List.cons_append,
        commaPieces_append (by simp [free, comma]), List.map_cons, here]
      exact congrArg (name :: ·) rest

theorem readColumns_listed {select : List String} (nonempty : select ≠ [])
    (identifiers : ∀ c ∈ select, isIdentifier c.toList = true) :
    readColumns (listed (select.map String.toList) ++ [' ']) = .ok select := by
  have names : select.map String.toList ≠ [] := by simpa using nonempty
  have pieces := trimmed_pieces names (by simpa using identifiers) [] rfl (by simp)
  rw [List.nil_append] at pieces
  have kept :
      (select.map String.toList).filter (fun p => !p.isEmpty) = select.map String.toList := by
    simp only [List.filter_eq_self, List.mem_map]
    rintro _ ⟨c, mem, rfl⟩
    simpa using ne_nil_of_isIdentifier (identifiers c mem)
  have good : (select.map String.toList).find? (fun p => !isIdentifier p) = none := by
    simpa using identifiers
  simp [readColumns, pieces, kept, good, nonempty]

/-! Predicates. -/

theorem text_toList (a : Alternative) :
    a.text.toList = a.operator.toList ++ ' ' :: ('\'' :: a.value.toList ++ ['\'']) := by
  simp [Alternative.text]

theorem predicateOf_singleton (a : Alternative) : predicateOf [a] = a.text := by
  simp [predicateOf]

theorem predicateOf_cons (a b : Alternative) (alternatives : List Alternative) :
    (predicateOf (a :: b :: alternatives)).toList =
      a.text.toList ++ ' ' :: ("||".toList ++ ' ' :: (predicateOf (b :: alternatives)).toList) := by
  simp [predicateOf]

theorem operator?_of_mem {operator : String} (mem : operator ∈ operators) (rest : List Char) :
    operator? (operator.toList ++ ' ' :: rest) = some (operator.toList, ' ' :: rest) := by
  simp only [operators, List.mem_cons, List.not_mem_nil, or_false] at mem
  rcases mem with rfl | rfl | rfl | rfl | rfl | rfl | rfl | rfl | rfl | rfl | rfl <;> rfl

theorem trimmed_of_mem {operator : String} (mem : operator ∈ operators) :
    Trimmed operator.toList := by
  simp only [operators, List.mem_cons, List.not_mem_nil, or_false] at mem
  rcases mem with rfl | rfl | rfl | rfl | rfl | rfl | rfl | rfl | rfl | rfl | rfl <;>
    exact ⟨⟨_, rfl, rfl⟩, ⟨_, rfl, rfl⟩⟩

theorem quote_not_mem_operator {operator : String} (mem : operator ∈ operators) :
    '\'' ∉ operator.toList := by
  revert operator
  decide

/-- The part of a predicate after its first operator: it starts and ends with a quote, and no
quote is left open. -/
structure Quoted (cs : List Char) : Prop where
  first : ['\''] <+: cs
  last : ['\''] <:+ cs
  even : cs.count '\'' % 2 = 0

theorem Quoted.trimmed {cs : List Char} (quoted : Quoted cs) : Trimmed cs := by
  obtain ⟨tail, hfirst⟩ := quoted.first
  obtain ⟨init, hlast⟩ := quoted.last
  exact ⟨⟨'\'', by simp [← hfirst], by decide⟩, ⟨'\'', by simp [← hlast], by decide⟩⟩

theorem exists_quoted (a : Alternative) (alternatives : List Alternative)
    (regular : ∀ b ∈ a :: alternatives, b.Regular) :
    ∃ tail, (predicateOf (a :: alternatives)).toList = a.operator.toList ++ ' ' :: tail ∧
      Quoted tail := by
  have free := (regular a List.mem_cons_self).value
  induction alternatives generalizing a with
  | nil =>
    refine ⟨'\'' :: a.value.toList ++ ['\''], ?_, ⟨_, rfl⟩, ⟨_, rfl⟩, ?_⟩
    · rw [predicateOf_singleton, text_toList]
    · simp [List.count_eq_zero.mpr free]
  | cons b alternatives ih =>
    have others : ∀ c ∈ b :: alternatives, c.Regular := fun c mem =>
      regular c (List.mem_cons_of_mem a mem)
    have regular' := others b List.mem_cons_self
    obtain ⟨tail, spelled, quoted⟩ := ih b others regular'.value
    let before := '\'' :: a.value.toList ++ "' || ".toList ++ b.operator.toList ++ [' ']
    refine ⟨before ++ tail, ?_, ⟨_, rfl⟩, quoted.last.trans (List.suffix_append before tail), ?_⟩
    · rw [predicateOf_cons, text_toList, spelled]
      simp [before]
    · have two : before.count '\'' = 2 := by
        simp [before, List.count_eq_zero.mpr free,
          List.count_eq_zero.mpr (quote_not_mem_operator regular'.operator)]
      rw [List.count_append, two, Nat.add_mod_left, quoted.even]

/-! Conditions. -/

/-- The conditions that the program makes itself are such conditions. -/
theorem regular_made {column value : String} (isWhere : Column "where" column.toList)
    (isAnd : Column "and" column.toList) (unquoted : '\'' ∉ value.toList) :
    Regular (Condition.equals column value) ∧ Regular (Condition.inTree column value) := by
  have root : '\'' ∉ (Path.trim value).toList := by
    obtain ⟨slashes, split, -⟩ := exists_append_dropEndWhile Path.isSlash value.toList
    rw [split] at unquoted
    simpa [Path.trim, Path.trimChars] using fun mem => unquoted (List.mem_append_left slashes mem)
  constructor
  · refine ⟨isWhere, isAnd, [⟨"=", value⟩], by simp, ?_, ?_⟩
    · simpa using Alternative.Regular.mk (a := ⟨"=", value⟩) (by simp [operators]) unquoted
    · rw [predicateOf_singleton, ← String.toList_inj]
      simp [Condition.equals, Alternative.text]
  · refine ⟨isWhere, isAnd, [⟨"=", Path.trim value⟩, ⟨"like", Path.trim value ++ "/%"⟩], by simp,
      ?_, ?_⟩
    · simp only [List.mem_cons, List.not_mem_nil, or_false]
      rintro a (rfl | rfl)
      · exact ⟨by simp [operators], root⟩
      · exact ⟨by simp [operators], by simpa using root⟩
    · rw [← String.toList_inj, predicateOf_cons, predicateOf_singleton]
      simp [Condition.inTree, Alternative.text]

theorem conditionText_toList (c : Condition) :
    (conditionText c).toList = c.column.toList ++ ' ' :: c.predicate.toList := by
  simp [conditionText]

/-- The longest column there can be is the whole name, and an operator follows it. -/
theorem cut?_of_operator (identifier : isIdentifier name = true) {operator : String}
    (mem : operator ∈ operators) (lead_blank : lead.all isBlank = true) (rest : List Char) :
    cut? (lead ++ (name ++ ' ' :: (operator.toList ++ ' ' :: rest))) =
      some ⟨name, operator.toList, ' ' :: rest⟩ := by
  have names : ∀ d ∈ name, isNameChar d = true := fun d => isNameChar_of_mem identifier
  have column : (name ++ ' ' :: (operator.toList ++ ' ' :: rest)).takeWhile isNameChar = name := by
    rw [List.takeWhile_append_of_pos names, List.takeWhile_cons_of_neg (by decide),
      List.append_nil]
  have solid : (' ' :: (operator.toList ++ ' ' :: rest)).dropWhile isBlank =
      operator.toList ++ ' ' :: rest :=
    (trimmed_of_mem mem).dropWhile [' '] (' ' :: rest) rfl
  obtain ⟨d, ds, rfl⟩ := List.exists_cons_of_ne_nil (ne_nil_of_isIdentifier identifier)
  have first : isNameStart d = true := ((Bool.and_eq_true _ _).mp identifier).1
  rw [cut?, (trimmed_of_isIdentifier identifier).dropWhile lead _ lead_blank, column]
  simp only [List.cons_append, first, if_true, List.length_cons, cutColumn?, List.drop_succ_cons,
    List.drop_left, List.take_succ_cons, List.take_left, solid, operator?_of_mem mem]

theorem readCondition_regular (regular : Regular c) (lead trail : List Char)
    (lead_blank : lead.all isBlank = true) (trail_blank : trail.all isBlank = true) :
    readCondition (lead ++ ((conditionText c).toList ++ trail)) = .ok c := by
  obtain ⟨alternatives, nonempty, each, predicate⟩ := regular.predicate
  obtain ⟨a, alternatives, rfl⟩ := List.exists_cons_of_ne_nil nonempty
  obtain ⟨tail, spelled, quoted⟩ := exists_quoted a alternatives each
  have cut : cut? (lead ++ ((conditionText c).toList ++ trail)) =
      some ⟨c.column.toList, a.operator.toList, ' ' :: (tail ++ trail)⟩ := by
    rw [conditionText_toList, predicate, spelled]
    simpa using cut?_of_operator regular.column.identifier (each a List.mem_cons_self).operator
      lead_blank (tail ++ trail)
  have value : trimChars (' ' :: (tail ++ trail)) = tail :=
    quoted.trimmed.trimChars [' '] trail rfl trail_blank
  have present : tail.isEmpty = false := by
    obtain ⟨rest, rfl⟩ := quoted.first
    rfl
  have whole : String.ofList (a.operator.toList ++ ' ' :: tail) = c.predicate := by
    rw [← spelled, ← predicate, String.ofList_toList]
  have closed : trail.count '\'' = 0 := List.count_eq_zero.mpr fun mem =>
    absurd (List.all_eq_true.mp trail_blank _ mem) (by decide)
  simp [readCondition, cut, value, present, quoted.even, closed, whole]

/-- The conditions with `AND` between them. -/
def clause (conditions : List Condition) : List Char :=
  " AND ".toList.intercalate (conditions.map fun c => (conditionText c).toList)

theorem clause_singleton (c : Condition) : clause [c] = (conditionText c).toList :=
  List.intercalate_singleton

theorem clause_cons (c d : Condition) (conditions : List Condition) :
    clause (c :: d :: conditions) =
      (conditionText c).toList ++ ' ' :: ("AND".toList ++ ' ' :: clause (d :: conditions)) := by
  simp [clause, List.intercalate_cons_cons]

/-! The two searches for keywords pass over columns, operators and values. -/

/-- The words of predicates outside quotes. -/
def predicateWords : List String :=
  ["=", "<>", "!=", "<=", ">=", "<", ">", "like", "not", "in", "between", "||"]

structure Separator (keyword : String) : Prop where
  known : Keyword keyword.toList
  other : ∀ word ∈ predicateWords, sameLetters keyword.toList word.toList = false

theorem separator_where : Separator "where" := ⟨by decide, by decide⟩

theorem separator_and : Separator "and" := ⟨by decide, by decide⟩

theorem Column.passes (column : Column keyword name) (separator : Separator keyword) :
    Passes keyword.toList name :=
  passes_word separator.known (ne_nil_of_isIdentifier column.identifier)
    (plain_of_isIdentifier column.identifier) column.other

section
variable (separator : Separator keyword)
include separator

theorem Separator.passes_word (word : String) (mem : word ∈ predicateWords) :
    Passes keyword.toList word.toList := by
  have plain : ∀ word ∈ predicateWords, word.toList ≠ [] ∧ Plain word.toList := by decide
  exact Query.passes_word separator.known (plain word mem).1 (plain word mem).2
    (separator.other word mem)

theorem Separator.passes_operator {operator : String} (mem : operator ∈ operators) :
    Passes keyword.toList operator.toList := by
  have single : ∀ operator ∈ operators, operator ≠ "not like" → operator ∈ predicateWords := by
    decide
  by_cases negated : operator = "not like"
  · rw [negated]
    exact Passes.spaced separator.known (separator.passes_word "not" (by decide))
      (separator.passes_word "like" (by decide))
  · exact separator.passes_word operator (single operator mem negated)

theorem Separator.passes_text (regular : a.Regular) : Passes keyword.toList a.text.toList := by
  rw [text_toList]
  exact Passes.spaced separator.known (separator.passes_operator regular.operator)
    (passes_quoted _ regular.value)

theorem Separator.passes_predicate (a : Alternative) (alternatives : List Alternative)
    (regular : ∀ b ∈ a :: alternatives, b.Regular) :
    Passes keyword.toList (predicateOf (a :: alternatives)).toList := by
  have first := separator.passes_text (regular a List.mem_cons_self)
  induction alternatives generalizing a with
  | nil => rwa [predicateOf_singleton]
  | cons b alternatives ih =>
    have others : ∀ c ∈ b :: alternatives, c.Regular := fun c mem =>
      regular c (List.mem_cons_of_mem a mem)
    rw [predicateOf_cons]
    exact first.spaced separator.known <|
      (separator.passes_word "||" (by decide)).spaced separator.known <|
        ih b others (separator.passes_text (others b List.mem_cons_self))

theorem Separator.passes_condition (regular : Regular c)
    (column : Column keyword c.column.toList) :
    Passes keyword.toList (conditionText c).toList := by
  obtain ⟨alternatives, nonempty, each, predicate⟩ := regular.predicate
  obtain ⟨a, alternatives, rfl⟩ := List.exists_cons_of_ne_nil nonempty
  rw [conditionText_toList, predicate]
  exact (column.passes separator).spaced separator.known
    (separator.passes_predicate a alternatives each)

end

/-- A list of columns is passed over: only the last of its words has no comma. -/
theorem passes_listed {names : List (List Char)} (nonempty : names ≠ [])
    (columns : ∀ name ∈ names, Column "where" name) :
    Passes "where".toList (listed names) := by
  induction names with
  | nil => contradiction
  | cons name names ih =>
    have column := columns name List.mem_cons_self
    cases names with
    | nil =>
      rw [listed, List.intercalate_singleton]
      exact column.passes separator_where
    | cons next names =>
      have rest := ih (List.cons_ne_nil _ _) fun name mem =>
        columns name (List.mem_cons_of_mem _ mem)
      have first : Passes "where".toList (name ++ [',']) := by
        refine passes_word separator_where.known (by simp) ?_ ?_
        · intro c mem
          rcases List.mem_append.mp mem with mem | mem
          · exact plain_of_isIdentifier column.identifier c mem
          · rw [List.mem_singleton.mp mem]
            decide
        · rw [Bool.eq_false_iff, ne_eq, sameLetters_iff]
          intro same
          have last := congrArg List.getLast? same
          simp at last
      have both := first.spaced separator_where.known rest
      rwa [List.append_assoc] at both

theorem passes_clause (c : Condition) (conditions : List Condition)
    (regular : ∀ d ∈ c :: conditions, Regular d) :
    Passes "where".toList (clause (c :: conditions)) := by
  have first := separator_where.passes_condition (regular c List.mem_cons_self)
    (regular c List.mem_cons_self).column
  induction conditions generalizing c with
  | nil => rwa [clause_singleton]
  | cons d conditions ih =>
    have others : ∀ e ∈ d :: conditions, Regular e := fun e mem =>
      regular e (List.mem_cons_of_mem c mem)
    have joint : Passes "where".toList "AND".toList :=
      passes_word separator_where.known (by decide) (by decide) (by decide)
    rw [clause_cons]
    exact first.spaced separator_where.known <| joint.spaced separator_where.known <|
      ih d others (separator_where.passes_condition (others d List.mem_cons_self)
        (others d List.mem_cons_self).column)

/-! The query. -/

theorem allBlank_conditionText (regular : Regular c) (rest : List Char) :
    ((conditionText c).toList ++ rest).all isBlank = false := by
  obtain ⟨d, head, solid⟩ := (trimmed_of_isIdentifier regular.column.identifier).first
  obtain ⟨ds, spelled⟩ := List.head?_eq_some_iff.mp head
  simp [conditionText_toList, spelled, solid]

theorem readConditions_cons {parts : List (List Char)} (regular : Regular c) (trail : List Char)
    (trail_blank : trail.all isBlank = true) (read : readConditions parts = .ok conditions) :
    readConditions ((' ' :: ((conditionText c).toList ++ trail)) :: parts) =
      .ok (c :: conditions) := by
  have present : (' ' :: ((conditionText c).toList ++ trail)).all isBlank = false := by
    rw [List.all_cons, allBlank_conditionText regular, Bool.and_false]
  have here : readCondition (' ' :: ((conditionText c).toList ++ trail)) = .ok c :=
    readCondition_regular regular [' '] trail rfl trail_blank
  rw [readConditions, present, here, read]
  rfl

theorem readConditions_clause (c : Condition) (conditions : List Condition)
    (regular : ∀ d ∈ c :: conditions, Regular d) (free : Bool) :
    readConditions (cutAt "and".toList false free 0 (' ' :: clause (c :: conditions))) =
      .ok (c :: conditions) := by
  have here := regular c List.mem_cons_self
  have passes := separator_and.passes_condition here here.notAnd
  induction conditions generalizing c free with
  | nil =>
    have read : readConditions [' ' :: ((conditionText c).toList ++ [])] = .ok [c] :=
      readConditions_cons here [] rfl rfl
    rwa [cutAt_blank separator_and.known, clause_singleton, passes.whole, pushChar,
      ← List.append_nil (conditionText c).toList]
  | cons d conditions ih =>
    have others : ∀ e ∈ d :: conditions, Regular e := fun e mem =>
      regular e (List.mem_cons_of_mem c mem)
    have next := others d List.mem_cons_self
    rw [cutAt_blank separator_and.known, clause_cons,
      passes.cut separator_and.known (by decide) (by decide) (ends_blank _)]
    exact readConditions_cons here [' '] rfl
      (ih d others false next (separator_and.passes_condition next next.notAnd))

theorem text_nil (select : List String) :
    (text select []).toList = "SELECT ".toList ++ (listed (select.map String.toList) ++ [' ']) := by
  simp [text, render, allBlank, listed]

theorem text_cons (select : List String) (c : Condition) (conditions : List Condition)
    (regular : Regular c) : (text select (c :: conditions)).toList =
      "SELECT ".toList ++ (listed (select.map String.toList) ++
        ' ' :: ("WHERE".toList ++ ' ' :: clause (c :: conditions))) := by
  have joined : (" AND ".intercalate ((c :: conditions).map conditionText)).toList =
      clause (c :: conditions) := by
    simp [clause, Function.comp_def]
  have present : allBlank (" AND ".intercalate ((c :: conditions).map conditionText)) = false := by
    rw [allBlank, joined]
    cases conditions with
    | nil => simpa [clause_singleton] using allBlank_conditionText regular []
    | cons d conditions => rw [clause_cons, allBlank_conditionText regular]
  rw [text, render, present]
  simp only [Bool.false_eq_true, if_false, String.toList_append, joined]
  simp [listed]

/-- What follows the keyword starts with the first column. -/
theorem body?_listed {names : List (List Char)} (nonempty : names ≠ [])
    (identifiers : ∀ name ∈ names, isIdentifier name = true) (rest : List Char) :
    body? ("SELECT ".toList ++ (listed names ++ rest)) = some (listed names ++ rest) := by
  have stripped : body? ("SELECT ".toList ++ (listed names ++ rest)) =
      some ((listed names ++ rest).dropWhile isBlank) := rfl
  obtain ⟨name, names, rfl⟩ := List.exists_cons_of_ne_nil nonempty
  have first := trimmed_of_isIdentifier (identifiers name List.mem_cons_self)
  rw [stripped]
  cases names with
  | nil =>
    rw [listed, List.intercalate_singleton]
    exact congrArg some (first.dropWhile [] rest rfl)
  | cons next names =>
    rw [listed_cons, List.append_assoc]
    exact congrArg some (first.dropWhile [] _ rfl)

section
variable {select : List String} (nonempty : select ≠ [])
  (columns : ∀ name ∈ select, Column "where" name.toList)
include nonempty columns

theorem readColumns_select :
    readColumns (listed (select.map String.toList) ++ [' ']) = .ok select :=
  readColumns_listed nonempty fun name mem => (columns name mem).identifier

theorem passes_select : Passes "where".toList (listed (select.map String.toList)) :=
  passes_listed (by simpa using nonempty) (by simpa using columns)

theorem body?_select (rest : List Char) :
    body? ("SELECT ".toList ++ (listed (select.map String.toList) ++ rest)) =
      some (listed (select.map String.toList) ++ rest) :=
  body?_listed (by simpa using nonempty) (by simpa using fun name mem =>
    (columns name mem).identifier) rest

theorem parse_text_nil : parse (text select []) = .ok (select, []) := by
  have piece : cutAtKeyword "where" (listed (select.map String.toList) ++ [' ']) =
      [listed (select.map String.toList) ++ [' ']] := by
    rw [cutAtKeyword, passes_select nonempty columns _ (ends_blank _),
      cutAt_blank separator_where.known]
    exact pushChars_cons _ _ _
  simp only [parse, text_nil, body?_select nonempty columns, piece,
    readColumns_select nonempty columns]
  rfl

theorem parse_text_cons (c : Condition) (conditions : List Condition)
    (regular : ∀ d ∈ c :: conditions, Regular d) :
    parse (text select (c :: conditions)) = .ok (select, c :: conditions) := by
  have pieces : cutAtKeyword "where" (listed (select.map String.toList) ++
      ' ' :: ("WHERE".toList ++ ' ' :: clause (c :: conditions))) =
        [listed (select.map String.toList) ++ [' '], ' ' :: clause (c :: conditions)] := by
    rw [cutAtKeyword, (passes_select nonempty columns).cut separator_where.known (by decide)
      (by decide) (ends_blank _), cutAt_blank separator_where.known,
      (passes_clause c conditions regular).whole]
    rfl
  have read : readConditions (cutAtKeyword "and" (' ' :: clause (c :: conditions))) =
      .ok (c :: conditions) := readConditions_clause c conditions regular true
  simp only [parse, text_cons select c conditions (regular c List.mem_cons_self),
    body?_select nonempty columns, pieces, readColumns_select nonempty columns]
  rw [read]
  rfl

end

/-- A query whose columns are names, and whose conditions are alternatives in quotes, is read back
from its text, and a cursor for the text is a cursor for the query. -/
theorem parse_text (select : List String) (conditions : List Condition) (nonempty : select ≠ [])
    (columns : ∀ name ∈ select, Column "where" name.toList)
    (regular : ∀ c ∈ conditions, Regular c) (pageSize : Int32) :
    parse (text select conditions) = .ok (select, conditions) ∧
      Cursor.ofText (text select conditions) pageSize =
        .ok (Cursor.ofConditions select conditions pageSize) := by
  have read : parse (text select conditions) = .ok (select, conditions) := by
    cases conditions with
    | nil => exact parse_text_nil nonempty columns
    | cons c conditions => exact parse_text_cons nonempty columns c conditions regular
  exact ⟨read, by rw [Cursor.ofText, read]; rfl⟩

/-- Values that hold keywords, separators and a line break, and a column whose name ends with an
operator. -/
theorem parse_text_of_keywords :
    let select := ["COLL_NAME", "and"]
    let conditions := [Condition.equals "DATA_NAME" "salt AND pepper || WHERE,\n",
      ⟨"begin", "in 'x' || not like '%'"⟩]
    parse (text select conditions) = .ok (select, conditions) ∧
      Cursor.ofText (text select conditions) 10 =
        .ok (Cursor.ofConditions select conditions 10) := by
  refine parse_text _ _ (by simp) ?_ ?_ 10
  · intro name mem
    simp only [List.mem_cons, List.not_mem_nil, or_false] at mem
    rcases mem with rfl | rfl <;> exact ⟨rfl, rfl⟩
  · intro c mem
    simp only [List.mem_cons, List.not_mem_nil, or_false] at mem
    rcases mem with rfl | rfl
    · exact (regular_made ⟨rfl, rfl⟩ ⟨rfl, rfl⟩ (by decide)).1
    · refine ⟨⟨rfl, rfl⟩, ⟨rfl, rfl⟩, [⟨"in", "x"⟩, ⟨"not like", "%"⟩], by simp, ?_, rfl⟩
      intro a mem
      simp only [List.mem_cons, List.not_mem_nil, or_false] at mem
      rcases mem with rfl | rfl <;> exact ⟨by decide, by decide⟩

end DataGrid.Query
