import DataGrid.Query.Text

/-! What a predicate says of a value. A predicate is a list of alternatives separated by two
bars outside quotes; it holds if one of them does. An alternative is `=`, `<>`, `!=`, `like`
or `not like` and one quoted operand. In a pattern, `%` stands for any run of characters and
`_` for any one, line feeds excepted. An engine matches the patterns and may refuse to take one,
as it does when a pattern would become too large for it; which ones it takes is up to it. -/
namespace DataGrid.Predicate
open Text Query

def invalidArgument : Int32 := -816000

/-- The pieces between double bars outside quotes. -/
def pieces : (quoted : Bool) → List Char → List (List Char)
  | _, [] => [[]]
  | quoted, '|' :: '|' :: cs =>
    if quoted then pushChar '|' (pieces quoted ('|' :: cs)) else [] :: pieces quoted cs
  | quoted, c :: cs => pushChar c (pieces (if c = '\'' then !quoted else quoted) cs)

/-- The trimmed alternatives of a predicate. -/
def alternatives (predicate : String) : List String :=
  (pieces false predicate.toList).map fun p => String.ofList (trimChars p)

/-- Adds one pattern character in front of a pattern whose fits are known. `later` tells for
each suffix of the value, from the whole down to the empty one, whether the pattern fits it. -/
def extendFits (p : Char) : (value : List Char) → (later : List Bool) → List Bool
  | [], later => [p == '%' && later.headD false]
  | v :: vs, later =>
    let shorter := extendFits p vs later.tail
    let here :=
      if p = '%' then later.headD false || (v != '\n' && shorter.headD false)
      else if p = '_' then v != '\n' && later.tail.headD false
      else v == p && later.tail.headD false
    here :: shorter

/-- For each suffix of the value, longest first, whether the pattern fits it. -/
def fits : (pattern value : List Char) → List Bool
  | [], value => value.map (fun _ => false) ++ [true]
  | p :: ps, value => extendFits p value (fits ps value)

/-- Whether the pattern fits the whole value. -/
def like (pattern value : String) : Bool := (fits pattern.toList value.toList).headD false

/-- The patterns that an engine takes. -/
abbrev Engine := String → Bool

/-- An engine without a limit. -/
def Engine.boundless : Engine := fun _ => true

/-- How an alternative compares the value with its operand. -/
structure Comparison where
  negated : Bool
  pattern : Bool
  deriving Repr, DecidableEq

/-- The comparison that an alternative begins with, and its operand. Words may be in either
case of ASCII; the two words of `not like` have a single space between them. -/
def comparison? (alternative : List Char) : Option (Comparison × List Char) :=
  if sameLetters "not like".toList (alternative.take 8) then
    some (⟨true, true⟩, alternative.drop 8)
  else if sameLetters "like".toList (alternative.take 4) then
    some (⟨false, true⟩, alternative.drop 4)
  else
    match alternative with
    | '<' :: '>' :: rest | '!' :: '=' :: rest => some (⟨true, false⟩, rest)
    | '=' :: rest => some (⟨false, false⟩, rest)
    | _ => none

/-- The text between two quotation marks, once blanks around them are trimmed. -/
def unquote? (cs : List Char) : Option (List Char) :=
  match trimChars cs with
  | '\'' :: rest => if rest.getLast? = some '\'' then some rest.dropLast else none
  | _ => none

section
variable (takes : Engine)

/-- Whether one alternative holds of the value. -/
def alternativeHolds (alternative value : String) : Except Catalog.Failure Bool :=
  match comparison? alternative.toList with
  | none => .error (.failed invalidArgument s!"unsupported predicate '{alternative}'")
  | some (c, operand) =>
    match unquote? operand with
    | none => .error (.failed invalidArgument s!"unquoted operand in '{alternative}'")
    | some operand =>
      if c.pattern && !takes (String.ofList operand) then
        .error (.failed invalidArgument s!"bad like pattern '{String.ofList operand}'")
      else
        let hit := if c.pattern then like (String.ofList operand) value
          else value == String.ofList operand
        .ok (hit != c.negated)

/-- Alternatives are tried in order, up to the first that holds or cannot be decided. -/
def anyHolds (value : String) : List String → Except Catalog.Failure Bool
  | [] => .ok false
  | a :: as =>
    match alternativeHolds takes a value with
    | .error e => .error e
    | .ok true => .ok true
    | .ok false => anyHolds value as

def holds (predicate value : String) : Except Catalog.Failure Bool :=
  anyHolds takes value (alternatives predicate)

end

end DataGrid.Predicate
