import DataGrid.Proofs.Query.Conditions
import DataGrid.Proofs.Query.Keywords

/-! What an accepted query looks like. After `SELECT` its text is cut at `WHERE` and what follows
it at `AND`; there is a condition for each piece, read from that piece and nothing else. -/
namespace DataGrid.Query
open Text

/-- The text of a query that selects: what follows `SELECT` and the blanks after it. -/
inductive Selects : (query body : List Char) → Prop
  | intro {lead word gap body : List Char} (lead_blank : lead.all isBlank = true)
      (letters : InLetters "select".toList word) (apart : gap ≠ [])
      (blank : gap.all isBlank = true) (solid : ∀ c ∈ body.head?, isBlank c = false) :
      Selects (lead ++ (word ++ (gap ++ body))) body

/-- The conditions are read from the pieces of a clause one by one, if there is a clause. -/
inductive Clauses : (body : List Char) → List Condition → Prop
  | none {columns : List Char} (whole : Separates "where".toList [] columns [columns]) :
      Clauses columns []
  | conditions {body columns clause : List Char} {pieces : List (List Char)}
      {conditions : List Condition}
      (halves : Separates "where".toList [] body [columns, clause])
      (parts : Separates "and".toList [] clause pieces)
      (each : List.Forall₂ ReadFrom pieces conditions) : Clauses body conditions

/-- What an accepted query is read from. -/
structure Accepted (query : List Char) (select : List String) (conditions : List Condition) :
    Prop where
  some : select ≠ []
  columns : ∀ column ∈ select, isIdentifier column.toList = true
  named : ∀ c ∈ conditions, isIdentifier c.column.toList = true
  read : ∃ body, Selects query body ∧ Clauses body conditions

/-- The keyword stands in two places. -/
def Twice (keyword text : List Char) : Prop :=
  ∃ b written after b' written' after', b ≠ b' ∧
    text = b ++ (written ++ after) ∧ Stands keyword b written after ∧
    text = b' ++ (written' ++ after') ∧ Stands keyword b' written' after'

variable {query body cs : List Char} {c : Condition} {select : List String}
  {conditions : List Condition} {pieces : List (List Char)} {operator : String}
  {word written : List Char}

/-! The body. -/

theorem body?_eq_some_iff : body? query = some body ↔ Selects query body := by
  constructor
  · intro h
    rw [body?] at h
    split at h
    · next c cs stripped =>
      obtain ⟨word, letters, rest⟩ := stripWord?_eq_some_iff.mp stripped
      split at h
      · next blank =>
        cases h
        have whole : query = query.takeWhile isBlank ++
            (word ++ ((c :: cs.takeWhile isBlank) ++ cs.dropWhile isBlank)) := by
          rw [List.cons_append, List.takeWhile_append_dropWhile, ← rest,
            List.takeWhile_append_dropWhile]
        rw [whole]
        refine .intro List.all_takeWhile letters (List.cons_ne_nil _ _) ?_ ?_
        · rw [List.all_cons, blank, List.all_takeWhile]
          rfl
        · intro d first
          have := List.head?_dropWhile_not isBlank cs
          rw [first] at this
          simpa using this
      · cases h
    · cases h
  · rintro ⟨lead_blank, letters, apart, blank, solid⟩
    obtain ⟨d, gap, rfl⟩ := List.exists_cons_of_ne_nil apart
    obtain ⟨first, blanks⟩ := (Bool.and_eq_true _ _).mp (List.all_cons.symm.trans blank)
    have stop : (gap ++ body).dropWhile isBlank = body := by
      rw [List.dropWhile_append_of_pos (List.all_eq_true.mp blanks)]
      cases body with
      | nil => rfl
      | cons c cs => exact List.dropWhile_cons_of_neg (by simp [solid c rfl])
    have stripped (word rest : List Char) (letters : InLetters "select".toList word) :
        stripWord? ['s', 'e', 'l', 'e', 'c', 't'] (word ++ rest) = Option.some rest :=
      stripWord?_eq_some_iff.mpr ⟨word, letters, rfl⟩
    rw [body?, List.dropWhile_append_of_pos (List.all_eq_true.mp lead_blank),
      dropWhile_of_solid (letters.solid (by decide)), stripped _ _ letters]
    simp [first, stop]

/-! Quotes. -/

theorem Reads.even_quotes {text rest : List Char} (reads : Reads text c operator written rest) :
    text.count '\'' % 2 = 0 := by
  obtain ⟨lead, gap, before, trail, blank, rfl⟩ := reads.split
  have column : '\'' ∉ c.column.toList := fun mem =>
    (plain_of_isIdentifier reads.identifier _ mem).2 rfl
  simp only [List.all_append, Bool.and_eq_true] at blank
  obtain ⟨⟨⟨lead, gap⟩, before⟩, trail⟩ := blank
  simp only [List.count_append, count_quote_of_blank lead, count_quote_of_blank gap,
    count_quote_of_blank before, count_quote_of_blank trail, List.count_eq_zero.mpr column,
    List.count_eq_zero.mpr reads.spelled.quoteless]
  have := reads.even
  omega

theorem Selects.count_quote (selects : Selects query body) :
    query.count '\'' = body.count '\'' := by
  obtain ⟨lead_blank, letters, -, blank, -⟩ := selects
  rw [List.count_append, List.count_append, List.count_append, count_quote_of_blank lead_blank,
    count_quote_of_blank blank, List.count_eq_zero.mpr (letters.not_mem quote_of_isLetter (by decide))]
  omega

/-! Columns. -/

theorem commaPieces_ne_nil (cs : List Char) : commaPieces cs ≠ [] := by
  cases cs with
  | nil => simp [commaPieces]
  | cons c cs =>
    rw [commaPieces]
    split
    · simp
    · cases commaPieces cs <;> simp [pushChar]

theorem exists_mem_commaPieces {d : Char} (other : d ≠ ',') (mem : d ∈ cs) :
    ∃ piece ∈ commaPieces cs, d ∈ piece := by
  induction cs with
  | nil => cases mem
  | cons e cs ih =>
    rw [commaPieces]
    split
    · next comma =>
      obtain ⟨piece, among, inside⟩ := ih (List.mem_of_ne_of_mem (comma ▸ other) mem)
      exact ⟨piece, List.mem_cons_of_mem _ among, inside⟩
    · obtain ⟨piece, pieces, whole⟩ := List.exists_cons_of_ne_nil (commaPieces_ne_nil cs)
      rcases List.mem_cons.mp mem with rfl | mem
      · exact ⟨_, by rw [whole]; exact List.mem_cons_self, List.mem_cons_self⟩
      · obtain ⟨found, among, inside⟩ := ih mem
        rw [whole] at among ⊢
        rcases List.mem_cons.mp among with rfl | among
        · exact ⟨_, List.mem_cons_self, List.mem_cons_of_mem _ inside⟩
        · exact ⟨found, List.mem_cons_of_mem _ among, inside⟩

theorem readColumns_eq_ok (h : readColumns cs = .ok select) :
    select ≠ [] ∧ (∀ column ∈ select, isIdentifier column.toList = true) ∧ '\'' ∉ cs := by
  simp only [readColumns] at h
  split at h
  · cases h
  · next identifiers =>
    split at h
    · cases h
    · next filled =>
      cases h
      have each (column : List Char)
          (mem : column ∈ ((commaPieces cs).map trimChars).filter fun p => !p.isEmpty) :
          isIdentifier column = true := by
        simpa using List.find?_eq_none.mp identifiers column mem
      refine ⟨?_, ?_, fun quote => ?_⟩
      · simpa using filled
      · intro column mem
        obtain ⟨name, named, rfl⟩ := List.mem_map.mp mem
        rw [String.toList_ofList]
        exact each name named
      · -- it would be in one of the columns
        obtain ⟨piece, among, inside⟩ := exists_mem_commaPieces (by decide) quote
        obtain ⟨lead, trail, blank, around⟩ := exists_trimChars piece
        have kept : '\'' ∈ trimChars piece := by
          rw [around, List.mem_append, List.mem_append] at inside
          rw [List.all_append, Bool.and_eq_true] at blank
          have free := List.count_eq_zero.mp (count_quote_of_blank blank.1)
          have free' := List.count_eq_zero.mp (count_quote_of_blank blank.2)
          exact (inside.resolve_right free').resolve_left free
        have identifier := each (trimChars piece) (by
          simp only [List.mem_filter, List.mem_map]
          exact ⟨⟨piece, among, rfl⟩, by simpa using List.ne_nil_of_mem kept⟩)
        exact (plain_of_isIdentifier identifier _ kept).2 rfl

/-! The whole query. -/

theorem exists_of_bind_eq_ok {ε α β : Type} {x : Except ε α} {f : α → Except ε β} {b : β}
    (h : x >>= f = .ok b) : ∃ a, x = .ok a ∧ f a = .ok b := by
  cases x with
  | error e => cases h
  | ok a => exact ⟨a, rfl, h⟩

theorem forall₂_of_readConditions (h : readConditions pieces = .ok conditions) :
    List.Forall₂ ReadFrom pieces conditions := by
  induction pieces generalizing conditions with
  | nil =>
    cases h
    exact .nil
  | cons piece pieces ih =>
    rw [readConditions] at h
    split at h
    · cases h
    · obtain ⟨c, first, h⟩ := exists_of_bind_eq_ok h
      obtain ⟨cs, others, h⟩ := exists_of_bind_eq_ok h
      cases h
      exact .cons (readFrom_of_readCondition first) (ih others)

theorem even_of_forall₂ (each : List.Forall₂ ReadFrom pieces conditions) :
    ∀ piece ∈ pieces, piece.count '\'' % 2 = 0 := by
  induction each with
  | nil => simp
  | cons first _ ih =>
    obtain ⟨_, _, _, reads⟩ := first
    exact List.forall_mem_cons.mpr ⟨reads.even_quotes, ih⟩

theorem readFrom_of_forall₂ (each : List.Forall₂ ReadFrom pieces conditions) :
    ∀ c ∈ conditions, ∃ piece, ReadFrom piece c := by
  induction each with
  | nil => simp
  | cons first _ ih => exact List.forall_mem_cons.mpr ⟨⟨_, first⟩, ih⟩

theorem Clauses.readFrom (clauses : Clauses body conditions) :
    ∀ c ∈ conditions, ∃ piece, ReadFrom piece c := by
  cases clauses with
  | none => simp
  | conditions _ _ each => exact readFrom_of_forall₂ each

theorem Clauses.named (clauses : Clauses body conditions) :
    ∀ c ∈ conditions, isIdentifier c.column.toList = true := by
  intro c mem
  obtain ⟨_, _, _, _, reads⟩ := clauses.readFrom c mem
  exact reads.identifier

theorem accepted_of_parse {query : String} (h : parse query = .ok (select, conditions)) :
    Accepted query.toList select conditions ∧ query.toList.count '\'' % 2 = 0 := by
  have separates (keyword : String) := @separates_cutAtKeyword keyword
  rw [parse] at h
  split at h
  · cases h
  · next body found =>
    have selects := body?_eq_some_iff.mp found
    rw [selects.count_quote]
    have halves := separates "where" (by decide) (by decide) body
    split at h
    · next columns cut =>
      rw [cut] at halves
      obtain ⟨names, read, h⟩ := exists_of_bind_eq_ok h
      cases h
      obtain ⟨some, identifiers, quoteless⟩ := readColumns_eq_ok read
      obtain rfl := halves.eq_of_singleton
      have clauses := Clauses.none halves
      refine ⟨⟨some, identifiers, clauses.named, body, selects, clauses⟩, ?_⟩
      rw [List.count_eq_zero.mpr quoteless]
    · next columns clause cut =>
      rw [cut] at halves
      obtain ⟨names, read, h⟩ := exists_of_bind_eq_ok h
      obtain ⟨cs, readAll, h⟩ := exists_of_bind_eq_ok h
      cases h
      obtain ⟨some, identifiers, quoteless⟩ := readColumns_eq_ok read
      have each := forall₂_of_readConditions readAll
      have parts := separates "and" (by decide) (by decide) clause
      have clauses := Clauses.conditions halves parts each
      refine ⟨⟨some, identifiers, clauses.named, body, selects, clauses⟩,
        halves.even (by decide) ?_⟩
      have even : clause.count '\'' % 2 = 0 := parts.even (by decide) (even_of_forall₂ each)
      simp [even, List.count_eq_zero.mpr quoteless]
    · cases h

/-- Two keywords are too many. -/
theorem parse_twice {query : String} (selects : Selects query.toList body)
    (twice : Twice "where".toList body) : ∃ e, parse query = .error e := by
  have separate (keyword : String) := @separates_cutAtKeyword keyword
  have halves := separate "where" (by decide) (by decide) body
  obtain ⟨b, written, after, b', written', after', differ, split, stands, split', stands'⟩ := twice
  rw [parse, body?_eq_some_iff.mpr selects]
  dsimp only
  split
  · next columns cut =>
    rw [cut] at halves
    exact absurd stands (halves.not_stands split)
  · next columns clause cut =>
    rw [cut] at halves
    have first := halves.place (by decide) split stands
    have second := halves.place (by decide) split' stands'
    exact absurd (first.trans second.symm) differ
  · exact ⟨_, rfl⟩

/-- A text can be cut after the bytes of its first characters. -/
theorem isValid_of_encode {before after : List Char} {text : String}
    (split : text.toList = before ++ after) :
    (String.Pos.Raw.mk (encode before).length).IsValid text := by
  rw [String.Pos.Raw.isValid_iff_exists_append]
  refine ⟨String.ofList before, String.ofList after, ?_, ?_⟩
  · rw [← String.toList_inj, split]
    simp
  · have spelled := bytes_eq_encode (String.ofList before)
    rw [String.toList_ofList] at spelled
    rw [← spelled]
    rfl

/-- Where bytes tell of a keyword, the text can be cut before it and after it. -/
theorem isValid_of_standsInBytes {keyword text : String} {i : Nat} (some : keyword.toList ≠ [])
    (ascii : ∀ c ∈ keyword.toList, c.toNat < 128)
    (stands : StandsInBytes (bytes keyword) (bytes text) i) :
    (String.Pos.Raw.mk i).IsValid text ∧
      (String.Pos.Raw.mk (i + (bytes keyword).length)).IsValid text := by
  rw [bytes_eq_encode, bytes_eq_encode, standsInBytes_iff some ascii] at stands
  obtain ⟨before, written, after, split, stands, rfl⟩ := stands
  have same := congrArg List.length ((map_lowerByte_eq_iff ascii).mpr stands.letters)
  rw [List.length_map, List.length_map] at same
  refine ⟨isValid_of_encode split, ?_⟩
  rw [bytes_eq_encode, ← same, ← List.length_append, ← encode_append]
  exact isValid_of_encode (by rw [split, List.append_assoc])

/-- An accepted query has one condition for each piece of its clause; a query with a quote left
open or with a second clause is rejected; and no cut is within a character. -/
theorem accepts_condition_for_each_piece (query : String) :
    (∀ select conditions, parse query = .ok (select, conditions) →
      Accepted query.toList select conditions) ∧
    (query.toList.count '\'' % 2 = 1 → ∃ e, parse query = .error e) ∧
    (∀ body, Selects query.toList body → Twice "where".toList body →
      ∃ e, parse query = .error e) ∧
    ∀ keyword ∈ ["where", "and"], ∀ (text : String) (i : Nat),
      StandsInBytes (bytes keyword) (bytes text) i → (String.Pos.Raw.mk i).IsValid text ∧
        (String.Pos.Raw.mk (i + (bytes keyword).length)).IsValid text := by
  refine ⟨fun _ _ parsed => (accepted_of_parse parsed).1, fun odd => ?_,
    fun _ => parse_twice, fun keyword known text i stands => ?_⟩
  · cases parsed : parse query with
    | error e => exact ⟨e, rfl⟩
    | ok read =>
      have even := (accepted_of_parse parsed).2
      omega
  · have word : ∀ keyword ∈ ["where", "and"],
        keyword.toList ≠ [] ∧ keyword.toList.all (fun c => c.toNat < 128) = true := by decide
    obtain ⟨some, ascii⟩ := word keyword known
    exact isValid_of_standsInBytes some (ascii_of_all ascii) stands

/-- Keywords in a value, and letters that are no ASCII letters in two words. -/
theorem accepts_keywords_in_values :
    let query := "\tſelect A, B wHERE C li\u212ae' and where é' AND D not\t like '%'"
    let conditions := [⟨"C", "li\u212ae ' and where é'"⟩, ⟨"D", "not\t like '%'"⟩]
    parse query = .ok (["A", "B"], conditions) ∧
      Accepted query.toList ["A", "B"] conditions ∧
      (∃ e, parse "SELECT A WHERE C = 'x" = .error e) ∧
      (∃ e, parse "SELECT A WHERE C = 'x' Where D = 'y'" = .error e) ∧
      (String.Pos.Raw.mk 7).IsValid "C='é' and D" := by
  have parsed : parse "\tſelect A, B wHERE C li\u212ae' and where é' AND D not\t like '%'" =
    .ok (["A", "B"], [⟨"C", "li\u212ae ' and where é'"⟩, ⟨"D", "not\t like '%'"⟩]) := by rfl
  refine ⟨parsed, (accepts_condition_for_each_piece _).1 _ _ parsed,
    (accepts_condition_for_each_piece _).2.1 (by decide),
    (accepts_condition_for_each_piece _).2.2.1 _ (body?_eq_some_iff.mp rfl) ?_, ?_⟩
  · exact ⟨"A ".toList, "WHERE".toList, " C = 'x' Where D = 'y'".toList, "A WHERE C = 'x' ".toList,
      "Where".toList, " D = 'y'".toList, by decide, rfl,
      ⟨by decide, by decide, starts_blank "A".toList, ends_blank _⟩, rfl,
      ⟨by decide, by decide, starts_blank "A WHERE C = 'x'".toList, ends_blank _⟩⟩
  · refine ((accepts_condition_for_each_piece "").2.2.2 "and" (by decide) _ 7 ?_).1
    rw [bytes_eq_encode, bytes_eq_encode, standsInBytes_iff (by decide) (ascii_of_all rfl)]
    exact ⟨"C='é' ".toList, "and".toList, " D".toList, rfl,
      ⟨by decide, by decide, starts_blank "C='é'".toList, ends_blank _⟩, by decide⟩

end DataGrid.Query
