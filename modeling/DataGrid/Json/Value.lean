/-! JSON values and their compact text. Members keep the order in which they are written.
A quoted text whose escapes name half of a surrogate pair can be skipped but never used, and
the value remembers that; a number with a fraction or an exponent keeps its digits. -/
namespace DataGrid

/-- A number written with a fraction or an exponent, or as minus zero. -/
structure Json.Decimal where
  negative : Bool
  whole : List Char
  fraction : List Char
  exponent : Int
  deriving Repr, DecidableEq

inductive Json where
  | null
  | bool (value : Bool)
  | integer (value : Int)
  | decimal (value : Json.Decimal)
  /-- `none` is a text that names half of a surrogate pair. -/
  | string (text : Option String)
  | array (items : List Json)
  | object (members : List (Option String × Json))

namespace Json

def text (s : String) : Json := .string (some s)

/-- An object whose keys are all well-formed. -/
def record (members : List (String × Json)) : Json :=
  .object (members.map fun m => (some m.1, m.2))

/-- Absent values are written as `null`. -/
def optional (f : α → Json) : Option α → Json
  | none => .null
  | some a => f a

/-- Quotation marks, backslashes and control characters are escaped, the common controls by a
letter and the others by their number. All else stands for itself. -/
def escape (c : Char) : List Char :=
  if c = '"' then ['\\', '"']
  else if c = '\\' then ['\\', '\\']
  else if c.toNat < 0x20 then
    if c = '\n' then ['\\', 'n']
    else if c = '\r' then ['\\', 'r']
    else if c = '\t' then ['\\', 't']
    else if c.toNat = 8 then ['\\', 'b']
    else if c.toNat = 12 then ['\\', 'f']
    else ['\\', 'u', '0', '0', (c.toNat / 16).digitChar, (c.toNat % 16).digitChar]
  else [c]

def quote (s : String) : List Char := '"' :: s.toList.flatMap escape ++ ['"']

/-- The exponent is always written, so that the text is read back as a decimal. -/
def Decimal.print (d : Decimal) : List Char :=
  (if d.negative then ['-'] else []) ++ d.whole ++
    (if d.fraction.isEmpty then [] else '.' :: d.fraction) ++ 'e' :: (toString d.exponent).toList

def printText : Option String → List Char
  | some s => quote s
  | none => ['"', '"']

mutual
def print : Json → List Char
  | .null => ['n', 'u', 'l', 'l']
  | .bool true => ['t', 'r', 'u', 'e']
  | .bool false => ['f', 'a', 'l', 's', 'e']
  | .integer n => (toString n).toList
  | .decimal d => d.print
  | .string s => printText s
  | .array items => '[' :: printItems items ++ [']']
  | .object members => '\x7b' :: printMembers members ++ ['\x7d']

def printItems : List Json → List Char
  | [] => []
  | [v] => v.print
  | v :: w :: vs => v.print ++ ',' :: printItems (w :: vs)

def printMembers : List (Option String × Json) → List Char
  | [] => []
  | [(k, v)] => printText k ++ ':' :: v.print
  | (k, v) :: m :: ms => printText k ++ ':' :: v.print ++ ',' :: printMembers (m :: ms)
end

def render (j : Json) : String := String.ofList j.print

mutual
/-- How many arrays and objects lie within one another. -/
def depth : Json → Nat
  | .array items => itemsDepth items + 1
  | .object members => membersDepth members + 1
  | _ => 0

def itemsDepth : List Json → Nat
  | [] => 0
  | v :: vs => max v.depth (itemsDepth vs)

def membersDepth : List (Option String × Json) → Nat
  | [] => 0
  | (_, v) :: ms => max v.depth (membersDepth ms)
end

/-- Puts a member in its place in a list sorted by key. -/
def insertMember (k : Option String) (v : Json) :
    List (Option String × Json) → List (Option String × Json)
  | [] => [(k, v)]
  | (k', v') :: ms =>
    if k.getD "" < k'.getD "" then (k, v) :: (k', v') :: ms else (k', v') :: insertMember k v ms

mutual
/-- The same value with the members of every object in the order of their keys. -/
def sorted : Json → Json
  | .array items => .array (sortedItems items)
  | .object members => .object (sortedMembers members)
  | v => v

def sortedItems : List Json → List Json
  | [] => []
  | v :: vs => v.sorted :: sortedItems vs

def sortedMembers : List (Option String × Json) → List (Option String × Json)
  | [] => []
  | (k, v) :: ms => insertMember k v.sorted (sortedMembers ms)
end

end Json
end DataGrid
