import DataGrid.Query.Condition
import DataGrid.Text.WordTable

/-! Queries as text: `SELECT` and a list of columns, then, if there are conditions, `WHERE` and
the conditions joined by `AND`. The two keywords count only outside single quotes and between
ASCII blanks or the ends of the text. A condition is a column, an operator and a value that
is kept as it stands; where the column and an operator word run together, the longest column
that leaves an operator wins. -/
namespace DataGrid.Query
open Text

/-- The text of a query; without a condition it ends after the columns. -/
def render (select condition : String) : String :=
  if allBlank condition then "SELECT " ++ select ++ " "
  else "SELECT " ++ select ++ " WHERE " ++ condition

/-- Case is ignored also for the long s and the kelvin sign. -/
def isLetter (letter c : Char) : Bool :=
  c.toLower == letter || (letter == 's' && c == 'ſ') || (letter == 'k' && c == '\u212a')

/-- The rest of the text after a word in lower-case letters, in whatever case it is written. -/
def stripWord? : (word text : List Char) → Option (List Char)
  | [], text => some text
  | _ :: _, [] => none
  | w :: ws, c :: cs => if isLetter w c then stripWord? ws cs else none

/-- What follows `SELECT` and the blanks after it. -/
def body? (query : List Char) : Option (List Char) :=
  match stripWord? ['s', 'e', 'l', 'e', 'c', 't'] (query.dropWhile isBlank) with
  | some (c :: cs) => if isBlank c then some (cs.dropWhile isBlank) else none
  | _ => none

/-- A keyword at the head of the text, with a blank or nothing after it. -/
def keywordAt (keyword cs : List Char) : Bool :=
  sameLetters keyword (cs.take keyword.length) &&
    match cs.drop keyword.length with
    | [] => true
    | d :: _ => isAsciiBlank d

/-- Puts a character in front of the first piece. -/
def pushChar (c : Char) : List (List Char) → List (List Char)
  | [] => [[c]]
  | p :: ps => (c :: p) :: ps

/-- The pieces between the keywords. `free` says that a keyword may begin here, and `skip`
counts the characters of a keyword that are still to be passed over. -/
def cutAt (keyword : List Char) : (quoted free : Bool) → (skip : Nat) → List Char →
    List (List Char)
  | _, _, _, [] => [[]]
  | quoted, free, skip + 1, _ :: cs => cutAt keyword quoted free skip cs
  | quoted, free, 0, c :: cs =>
    if c = '\'' then pushChar c (cutAt keyword (!quoted) false 0 cs)
    else if !quoted && free && keywordAt keyword (c :: cs) then
      [] :: cutAt keyword quoted false (keyword.length - 1) cs
    else pushChar c (cutAt keyword quoted (isAsciiBlank c) 0 cs)

def cutAtKeyword (keyword : String) (cs : List Char) : List (List Char) :=
  cutAt keyword.toList false true 0 cs

/-- The end of an operator word: no word character follows. -/
def atWordEnd : List Char → Bool
  | [] => true
  | c :: _ => !isWordChar c

def word? (word : List Char) (cs : List Char) : Option (List Char × List Char) :=
  match stripWord? word cs with
  | some rest => if atWordEnd rest then some (cs.take word.length, rest) else none
  | none => none

/-- The two words of a negated pattern with the blanks between them. -/
def notLike? (cs : List Char) : Option (List Char × List Char) :=
  match stripWord? ['n', 'o', 't'] cs with
  | some (c :: r) =>
    if isBlank c then
      (word? ['l', 'i', 'k', 'e'] (r.dropWhile isBlank)).map fun (w, rest) =>
        (cs.take 3 ++ c :: r.takeWhile isBlank ++ w, rest)
    else none
  | _ => none

/-- The operator that the text begins with, as written, and the rest. -/
def operator? : List Char → Option (List Char × List Char)
  | '=' :: cs => some (['='], cs)
  | '<' :: '>' :: cs => some (['<', '>'], cs)
  | '!' :: '=' :: cs => some (['!', '='], cs)
  | '<' :: '=' :: cs => some (['<', '='], cs)
  | '>' :: '=' :: cs => some (['>', '='], cs)
  | '<' :: cs => some (['<'], cs)
  | '>' :: cs => some (['>'], cs)
  | cs =>
    (((notLike? cs).or (word? ['l', 'i', 'k', 'e'] cs)).or (word? ['i', 'n'] cs)).or
      (word? ['b', 'e', 't', 'w', 'e', 'e', 'n'] cs)

/-- A condition cut into column, operator and value. -/
structure Cut where
  column : List Char
  operator : List Char
  value : List Char

/-- Tries columns of the given length and then shorter ones. -/
def cutColumn? (cs : List Char) : (length : Nat) → Option Cut
  | 0 => none
  | n + 1 =>
    match operator? ((cs.drop (n + 1)).dropWhile isBlank) with
    | some (op, value) => some ⟨cs.take (n + 1), op, value⟩
    | none => cutColumn? cs n

def cut? (text : List Char) : Option Cut :=
  let cs := text.dropWhile isBlank
  match cs with
  | [] => none
  | c :: _ => if isNameStart c then cutColumn? cs (cs.takeWhile isNameChar).length else none

def readCondition (text : List Char) : Except Error Condition :=
  match cut? text with
  | none => .error (.input s!"malformed condition '{String.ofList (trimChars text)}'")
  | some cut =>
    let value := trimChars cut.value
    if value.isEmpty then
      .error (.input s!"condition on {String.ofList cut.column} has no value")
    else if cut.value.count '\'' % 2 ≠ 0 then
      .error (.input s!"unbalanced quote in condition on {String.ofList cut.column}")
    else .ok ⟨String.ofList cut.column, String.ofList (cut.operator ++ ' ' :: value)⟩

/-- The pieces between commas. -/
def commaPieces : List Char → List (List Char)
  | [] => [[]]
  | c :: cs => if c = ',' then [] :: commaPieces cs else pushChar c (commaPieces cs)

/-- The columns between commas, blank ones left out. -/
def readColumns (cs : List Char) : Except Error (List String) := do
  let columns := ((commaPieces cs).map trimChars).filter fun p => !p.isEmpty
  match columns.find? fun p => !isIdentifier p with
  | some bad => .error (.input s!"bad select column '{String.ofList bad}'")
  | none =>
    if columns.isEmpty then .error (.input "query has no select columns")
    else .ok (columns.map String.ofList)

def readConditions : List (List Char) → Except Error (List Condition)
  | [] => .ok []
  | part :: parts =>
    if part.all isBlank then .error (.input "empty condition in WHERE clause")
    else do
      let c ← readCondition part
      let cs ← readConditions parts
      return c :: cs

/-- The columns and the conditions of a query. -/
def parse (query : String) : Except Error (List String × List Condition) :=
  match body? query.toList with
  | none => .error (.input s!"query must start with SELECT: '{trim query}'")
  | some body =>
    match cutAtKeyword "where" body with
    | [columns] => do return (← readColumns columns, [])
    | [columns, clause] => do
      let columns ← readColumns columns
      return (columns, ← readConditions (cutAtKeyword "and" clause))
    | _ => .error (.input "query has more than one WHERE clause")

end DataGrid.Query
