import DataGrid.Json.Reader

/-! Reading what was printed. A value whose texts are well-formed and whose numbers are whole is
read back from its compact text, whatever follows in the text around it. -/
namespace DataGrid.Json

mutual
/-- Neither half surrogates nor decimals. -/
def plain : Json → Bool
  | .decimal _ => false
  | .string s => s.isSome
  | .array items => plainItems items
  | .object members => plainMembers members
  | _ => true

def plainItems : List Json → Bool
  | [] => true
  | v :: vs => v.plain && plainItems vs

def plainMembers : List (Option String × Json) → Bool
  | [] => true
  | (k, v) :: ms => k.isSome && v.plain && plainMembers ms
end

theorem plainItems_eq_all (vs : List Json) : plainItems vs = vs.all plain := by
  induction vs with
  | nil => rfl
  | cons v vs ih => rw [plainItems, ih, List.all_cons]

@[simp] theorem plain_array (vs : List Json) : (array vs).plain = vs.all plain :=
  plainItems_eq_all vs

@[simp] theorem plain_record (members : List (String × Json)) :
    (record members).plain = members.all fun m => m.2.plain := by
  change plainMembers (members.map fun m => (some m.1, m.2)) = _
  induction members with
  | nil => rfl
  | cons m members ih => simp [plainMembers, ih]

@[simp] theorem plain_text (s : String) : (text s).plain = true := rfl

@[simp] theorem plain_bool (b : Bool) : (bool b).plain = true := rfl

@[simp] theorem plain_integer (n : Int) : (integer n).plain = true := rfl

/-- What may follow a value: the end of the text, a comma or a closing bracket. -/
def Stops (rest : List Char) : Prop := ∀ c ∈ rest.head?, c ∈ [',', ']', '\x7d']

theorem stops_nil : Stops [] := by simp [Stops]

theorem stops_cons {c : Char} (h : c ∈ [',', ']', '\x7d']) (rest : List Char) :
    Stops (c :: rest) := by
  rintro d ⟨⟩
  exact h

/-! Texts. -/

theorem readPieces_plain {c : Char} (quote : c ≠ '"') (backslash : c ≠ '\\')
    (printable : ¬ c.toNat < 0x20) (rest : List Char) :
    readPieces (c :: rest) = pushPiece (.char c) (readPieces rest) := by
  rw [readPieces]
  · simp [backslash, printable]
  all_goals simp_all

theorem readPieces_unicode {a b c d : Char} {n : Nat} (unit : hexUnit? a b c d = some n)
    (rest : List Char) : readPieces ('\\' :: 'u' :: a :: b :: c :: d :: rest) =
      pushPiece (.ofUnit n) (readPieces rest) := by
  rw [readPieces, unit]

theorem hexUnit?_control :
    ∀ n < 0x20, hexUnit? '0' '0' (n / 16).digitChar (n % 16).digitChar = some n := by
  decide

theorem ofUnit_toNat {c : Char} (control : c.toNat < 0x20) : Piece.ofUnit c.toNat = .char c := by
  have below : ¬ 0xD800 ≤ c.toNat := by omega
  have before : ¬ 0xDC00 ≤ c.toNat := by omega
  simp [Piece.ofUnit, below, before]

theorem readPieces_escape (c : Char) (rest : List Char) :
    readPieces (escape c ++ rest) = pushPiece (.char c) (readPieces rest) := by
  have ofNat (n : Nat) (h : c.toNat = n) : c = Char.ofNat n := by rw [← h, Char.ofNat_toNat]
  unfold escape
  by_cases quote : c = '"'
  · rw [if_pos quote, quote]
    rfl
  rw [if_neg quote]
  by_cases backslash : c = '\\'
  · rw [if_pos backslash, backslash]
    rfl
  rw [if_neg backslash]
  by_cases control : c.toNat < 0x20
  · rw [if_pos control]
    split
    · subst c; rfl
    split
    · subst c; rfl
    split
    · subst c; rfl
    split
    · rw [ofNat 8 ‹_›]; rfl
    split
    · rw [ofNat 12 ‹_›]; rfl
    · exact (readPieces_unicode (hexUnit?_control _ control) rest).trans
        (by rw [ofUnit_toNat control])
  · rw [if_neg control]
    exact readPieces_plain quote backslash control rest

theorem readPieces_escaped (cs rest : List Char) :
    readPieces (cs.flatMap escape ++ '"' :: rest) = some (cs.map .char, rest) := by
  induction cs with
  | nil => rfl
  | cons c cs ih =>
    rw [List.flatMap_cons, List.append_assoc, readPieces_escape, ih]
    rfl

theorem joinPieces_chars (cs : List Char) : joinPieces (cs.map .char) = some cs := by
  induction cs with
  | nil => rfl
  | cons c cs ih => simp [joinPieces, ih]

theorem quote_append (s : String) (rest : List Char) :
    quote s ++ rest = '"' :: (s.toList.flatMap escape ++ '"' :: rest) := by
  simp [quote]

/-- A quoted text, read from behind its opening mark. -/
theorem readText_quote (s : String) (rest : List Char) :
    readText (s.toList.flatMap escape ++ '"' :: rest) = some (some s, rest) := by
  simp [readText, readPieces_escaped, joinPieces_chars]

/-! Whole numbers. -/

theorem head_toDigits {n : Nat} (positive : 0 < n) :
    ∃ d ds, Nat.toDigits 10 n = d :: ds ∧ d ≠ '0' := by
  induction n using Nat.strongRecOn with
  | ind n ih =>
    by_cases small : n < 10
    · have digit : ∀ n < 10, 0 < n → n.digitChar ≠ '0' := by decide
      exact ⟨_, [], Nat.toDigits_of_lt_base small, digit n small positive⟩
    · obtain ⟨d, ds, spelled, nonzero⟩ := ih (n / 10) (by omega) (by omega)
      have split := Nat.toDigits_append_toDigits (b := 10) (n := n / 10) (d := n % 10) (by decide)
        (by omega) (by omega)
      rw [Nat.div_add_mod, spelled] at split
      exact ⟨d, _, split.symm, nonzero⟩

theorem not_isDigit_of_stops {rest : List Char} (stops : Stops rest) :
    ∀ c ∈ rest.head?, c.isDigit = false ∧ c ≠ '.' ∧ c ≠ 'e' ∧ c ≠ 'E' := by
  intro c head
  have mem := stops c head
  simp only [List.mem_cons, List.not_mem_nil, or_false] at mem
  rcases mem with rfl | rfl | rfl <;> decide

theorem takeWhile_digits {ds rest : List Char} (digits : ∀ d ∈ ds, d.isDigit = true)
    (stops : Stops rest) : (ds ++ rest).takeWhile Char.isDigit = ds ∧
      (ds ++ rest).dropWhile Char.isDigit = rest := by
  rw [List.takeWhile_append_of_pos digits, List.dropWhile_append_of_pos digits]
  cases rest with
  | nil => simp
  | cons c rest => simp [(not_isDigit_of_stops stops c rfl).1]

theorem readWhole_toDigits (n : Nat) {rest : List Char} (stops : Stops rest) :
    readWhole (Nat.toDigits 10 n ++ rest) = some (Nat.toDigits 10 n, rest) := by
  rcases Nat.eq_zero_or_pos n with rfl | positive
  · cases rest with
    | nil => rfl
    | cons c rest =>
      have no := (not_isDigit_of_stops stops c rfl).1
      simp [readWhole, no]
  · obtain ⟨d, ds, spelled, nonzero⟩ := head_toDigits positive
    have digits : ∀ c ∈ d :: ds, c.isDigit = true := fun c mem =>
      Nat.isDigit_of_mem_toDigits (by decide) (by decide) (spelled ▸ mem)
    have cut := takeWhile_digits (fun c mem => digits c (List.mem_cons_of_mem d mem)) stops
    rw [spelled, List.cons_append, readWhole]
    · simp [digits d List.mem_cons_self, cut]
    · simpa using nonzero

theorem readUnsigned_toDigits (negative : Bool) (n : Nat) (nonzero : negative = true → n ≠ 0)
    {rest : List Char} (stops : Stops rest) :
    readUnsigned negative (Nat.toDigits 10 n ++ rest) =
      some (.integer (if negative then -(n : Int) else n), rest) := by
  have fraction : readFraction rest = some ([], rest) := by
    cases rest with
    | nil => rfl
    | cons c rest =>
      rw [readFraction]
      simpa using (not_isDigit_of_stops stops c rfl).2.1
  have exponent : readExponent rest = some (none, rest) := by
    cases rest with
    | nil => rfl
    | cons c rest =>
      have other := (not_isDigit_of_stops stops c rfl).2.2
      simp [readExponent, other]
  have value : makeNumber negative (Nat.toDigits 10 n) [] none =
      .integer (if negative then -(n : Int) else n) := by
    rw [makeNumber, Nat.ofDigitChars_toDigits (by decide) (by decide)]
    cases negative with
    | false => simp
    | true => simp [nonzero rfl]
  simp only [readUnsigned, readWhole_toDigits n stops, fraction, exponent, value]

theorem readValue_digit {c : Char} (digit : c.isDigit = true) (fuel : Nat) (cs : List Char) :
    readValue (fuel + 1) (c :: cs) = readUnsigned false (c :: cs) := by
  have range : 48 ≤ c.toNat ∧ c.toNat ≤ 57 := by
    simpa [Char.isDigit, UInt32.le_iff_toNat_le] using digit
  have cases : c.toNat = 48 ∨ c.toNat = 49 ∨ c.toNat = 50 ∨ c.toNat = 51 ∨ c.toNat = 52 ∨
      c.toNat = 53 ∨ c.toNat = 54 ∨ c.toNat = 55 ∨ c.toNat = 56 ∨ c.toNat = 57 := by omega
  rw [← Char.ofNat_toNat c]
  rcases cases with h | h | h | h | h | h | h | h | h | h <;> rw [h] <;> rfl

theorem readValue_integer (n : Int) (fuel : Nat) {rest : List Char} (stops : Stops rest) :
    readValue (fuel + 1) ((toString n).toList ++ rest) = some (.integer n, rest) := by
  cases n with
  | ofNat n =>
    have spelled : (toString (Int.ofNat n)).toList = Nat.toDigits 10 n := Nat.toList_repr
    obtain ⟨d, ds, digits⟩ := List.exists_cons_of_ne_nil (Nat.toDigits_ne_nil (n := n) (b := 10))
    have first : d.isDigit = true := Nat.isDigit_of_mem_toDigits (b := 10) (n := n) (by decide)
      (by decide) (digits ▸ List.mem_cons_self)
    have read := readUnsigned_toDigits false n (by simp) stops
    rw [spelled, digits, List.cons_append, readValue_digit first]
    rwa [digits, List.cons_append] at read
  | negSucc n =>
    have spelled : (toString (Int.negSucc n)).toList = '-' :: Nat.toDigits 10 (n + 1) := by
      change ("-" ++ (n + 1).repr).toList = _
      simp [Nat.toList_repr]
    have read := readUnsigned_toDigits true (n + 1) (by simp) stops
    rw [spelled]
    exact read

/-! Values. A value takes no more fuel than its text has characters. -/

theorem readValue_string (s : String) (fuel : Nat) (rest : List Char) :
    readValue (fuel + 1) (quote s ++ rest) = some (.text s, rest) := by
  rw [quote_append, readValue]
  simp [skipGaps, isGap, readText_quote, text]

/-- A value starts with neither a gap nor a closing bracket. -/
def Starts (cs : List Char) : Prop := ∃ c ds, cs = c :: ds ∧ isGap c = false ∧ c ≠ ']'

theorem starts_digits (n : Nat) : Starts (Nat.toDigits 10 n) := by
  obtain ⟨d, ds, digits⟩ := List.exists_cons_of_ne_nil (Nat.toDigits_ne_nil (n := n) (b := 10))
  have first : d.isDigit = true := Nat.isDigit_of_mem_toDigits (b := 10) (n := n) (by decide)
    (by decide) (digits ▸ List.mem_cons_self)
  refine ⟨d, ds, digits, ?_, ?_⟩
  · cases gap : isGap d with
    | false => rfl
    | true =>
      simp only [isGap, Bool.or_eq_true, beq_iff_eq] at gap
      rcases gap with ((rfl | rfl) | rfl) | rfl <;> revert first <;> decide
  · rintro rfl
    revert first
    decide

theorem starts_print (v : Json) (h : v.plain = true) : Starts v.print := by
  cases v with
  | null => exact ⟨'n', _, rfl, by decide⟩
  | bool b => cases b <;> exact ⟨_, _, rfl, by decide⟩
  | integer n =>
    cases n with
    | ofNat n =>
      have digits : (toString (Int.ofNat n)).toList = Nat.toDigits 10 n := Nat.toList_repr
      rw [print, digits]
      exact starts_digits n
    | negSucc n =>
      refine ⟨'-', (n + 1).repr.toList, ?_, by decide⟩
      change ("-" ++ (n + 1).repr).toList = _
      simp
  | decimal d => cases h
  | string s => cases s <;> exact ⟨'"', _, rfl, by decide⟩
  | array items => exact ⟨'[', _, rfl, by decide⟩
  | object members => exact ⟨'\x7b', _, rfl, by decide⟩

theorem Starts.append {cs : List Char} (starts : Starts cs) (rest : List Char) :
    Starts (cs ++ rest) := by
  obtain ⟨c, ds, rfl, h⟩ := starts
  exact ⟨c, ds ++ rest, rfl, h⟩

theorem starts_printItems (v : Json) (vs : List Json) (h : plainItems (v :: vs) = true) :
    Starts (printItems (v :: vs)) := by
  have first := starts_print v ((Bool.and_eq_true _ _).mp h).1
  cases vs with
  | nil => exact first
  | cons w vs => exact first.append _

theorem readValue_array {cs : List Char} (starts : Starts cs) {items : List Json}
    {rest : List Char} {fuel : Nat} (read : readItems fuel cs = some (items, rest)) :
    readValue (fuel + 1) ('[' :: cs) = some (.array items, rest) := by
  obtain ⟨c, ds, rfl, solid, open'⟩ := starts
  have here : skipGaps ('[' :: c :: ds) = '[' :: c :: ds := rfl
  have gaps : skipGaps (c :: ds) = c :: ds := by simp [skipGaps, solid]
  simp only [readValue, here, gaps]
  split
  · simp_all
  · rw [read]

theorem readValue_object {cs : List Char} {members : List (Option String × Json)}
    {rest : List Char} {fuel : Nat}
    (read : readMembers fuel ('"' :: cs) = some (members, rest)) :
    readValue (fuel + 1) ('\x7b' :: '"' :: cs) = some (.object members, rest) := by
  have brace : skipGaps ('\x7b' :: '"' :: cs) = '\x7b' :: '"' :: cs := rfl
  have gaps : skipGaps ('"' :: cs) = '"' :: cs := rfl
  simp only [readValue, brace, gaps]
  split
  · simp_all
  · rw [read]

theorem readItems_last {v : Json} {cs rest : List Char} {fuel : Nat}
    (read : readValue fuel cs = some (v, ']' :: rest)) :
    readItems (fuel + 1) cs = some ([v], rest) := by
  rw [readItems, read]
  rfl

theorem readItems_cons {v : Json} {vs : List Json} {cs rest rest' : List Char} {fuel : Nat}
    (read : readValue fuel cs = some (v, ',' :: rest))
    (more : readItems fuel rest = some (vs, rest')) :
    readItems (fuel + 1) cs = some (v :: vs, rest') := by
  have here : skipGaps (',' :: rest) = ',' :: rest := rfl
  simp only [readItems, read, here, more]

theorem readMembers_last {k : String} {v : Json} {cs rest : List Char} {fuel : Nat}
    (read : readValue fuel cs = some (v, '\x7d' :: rest)) :
    readMembers (fuel + 1) (quote k ++ ':' :: cs) = some ([(some k, v)], rest) := by
  have start (cs : List Char) : skipGaps ('"' :: cs) = '"' :: cs := rfl
  have colon : skipGaps (':' :: cs) = ':' :: cs := rfl
  have close : skipGaps ('\x7d' :: rest) = '\x7d' :: rest := rfl
  rw [quote_append, readMembers]
  simp only [start, readText_quote, colon, read, close]

theorem readMembers_cons {k : String} {v : Json} {ms : List (Option String × Json)}
    {cs rest rest' : List Char} {fuel : Nat} (read : readValue fuel cs = some (v, ',' :: rest))
    (more : readMembers fuel rest = some (ms, rest')) :
    readMembers (fuel + 1) (quote k ++ ':' :: cs) = some ((some k, v) :: ms, rest') := by
  have start (cs : List Char) : skipGaps ('"' :: cs) = '"' :: cs := rfl
  have colon : skipGaps (':' :: cs) = ':' :: cs := rfl
  have comma : skipGaps (',' :: rest) = ',' :: rest := rfl
  rw [quote_append, readMembers]
  simp only [start, readText_quote, colon, read, comma, more]

mutual
theorem readValue_print (v : Json) (h : v.plain = true) (fuel : Nat) {rest : List Char}
    (enough : v.print.length ≤ fuel) (stops : Stops rest) :
    readValue fuel (v.print ++ rest) = some (v, rest) := by
  obtain ⟨fuel, rfl⟩ : ∃ n, fuel = n + 1 := by
    obtain ⟨c, ds, spelled, -⟩ := starts_print v h
    rw [spelled, List.length_cons] at enough
    exact ⟨fuel - 1, by omega⟩
  match v, h with
  | .null, _ => rfl
  | .bool true, _ => rfl
  | .bool false, _ => rfl
  | .integer n, _ => exact readValue_integer n fuel stops
  | .string (some s), _ => exact readValue_string s fuel rest
  | .array [], _ => rfl
  | .array (v :: vs), h =>
    rw [print, List.cons_append, List.cons_append, List.append_assoc]
    refine readValue_array ((starts_printItems v vs h).append _) ?_
    refine readItems_print (v :: vs) h (List.cons_ne_nil _ _) fuel rest ?_
    simpa [print] using enough
  | .object [], _ => rfl
  | .object ((some k, v) :: ms), h =>
    rw [print, List.cons_append, List.cons_append, List.append_assoc]
    have read := readMembers_print ((some k, v) :: ms) h (List.cons_ne_nil _ _) fuel rest
      (by simpa [print] using enough)
    cases ms with
    | nil => exact readValue_object read
    | cons m ms => exact readValue_object read

theorem readItems_print (vs : List Json) (h : plainItems vs = true) (nonempty : vs ≠ [])
    (fuel : Nat) (rest : List Char) (enough : (printItems vs).length + 1 ≤ fuel) :
    readItems fuel (printItems vs ++ ']' :: rest) = some (vs, rest) := by
  obtain ⟨fuel, rfl⟩ : ∃ n, fuel = n + 1 := ⟨fuel - 1, by omega⟩
  match vs, h, nonempty with
  | [v], h, _ =>
    exact readItems_last (readValue_print v ((Bool.and_eq_true _ _).mp h).1 fuel
      (by simpa [printItems] using enough) (stops_cons (by decide) rest))
  | v :: w :: vs, h, _ =>
    obtain ⟨first, others⟩ := (Bool.and_eq_true _ _).mp h
    simp only [printItems, List.length_append, List.length_cons] at enough
    rw [printItems, List.append_assoc, List.cons_append]
    exact readItems_cons
      (readValue_print v first fuel (by omega) (stops_cons (by decide) _))
      (readItems_print (w :: vs) others (List.cons_ne_nil _ _) fuel rest (by omega))

theorem readMembers_print (ms : List (Option String × Json)) (h : plainMembers ms = true)
    (nonempty : ms ≠ []) (fuel : Nat) (rest : List Char)
    (enough : (printMembers ms).length + 1 ≤ fuel) :
    readMembers fuel (printMembers ms ++ '\x7d' :: rest) = some (ms, rest) := by
  obtain ⟨fuel, rfl⟩ : ∃ n, fuel = n + 1 := ⟨fuel - 1, by omega⟩
  match ms, h, nonempty with
  | [(some k, v)], h, _ =>
    have first : v.plain = true := by simpa [plainMembers] using h
    simp only [printMembers, List.length_append, List.length_cons] at enough
    rw [printMembers, printText, List.append_assoc, List.cons_append]
    exact readMembers_last (readValue_print v first fuel (by omega) (stops_cons (by decide) rest))
  | (some k, v) :: m :: ms, h, _ =>
    obtain ⟨first, others⟩ : v.plain = true ∧ plainMembers (m :: ms) = true := by
      simpa [plainMembers] using h
    simp only [printMembers, List.length_append, List.length_cons] at enough
    rw [printMembers, printText]
    simp only [List.append_assoc, List.cons_append]
    exact readMembers_cons
      (readValue_print v first fuel (by omega) (stops_cons (by decide) _))
      (readMembers_print (m :: ms) others (List.cons_ne_nil _ _) fuel rest (by omega))
end

/-- Such a value is what its text is read as. -/
theorem read_render (v : Json) (h : v.plain = true) : read v.render = some v := by
  have all := readValue_print v h (2 * v.print.length + 2) (by omega) stops_nil
  rw [List.append_nil] at all
  simp [read, render, all, skipGaps]

end DataGrid.Json
