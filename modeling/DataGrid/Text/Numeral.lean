/-! Numerals with an optional sign and a range. Digits are read from the left; the first
character that is no digit, or the first prefix that leaves the range, decides the error. -/
namespace DataGrid.Text

inductive NumeralError where
  | empty
  | invalidDigit
  | tooLarge
  | tooSmall
  deriving Repr, DecidableEq

def NumeralError.message : NumeralError → String
  | .empty => "cannot parse integer from empty string"
  | .invalidDigit => "invalid digit found in string"
  | .tooLarge => "number too large to fit in target type"
  | .tooSmall => "number too small to fit in target type"

/-- The integers that a setting may hold; a minus sign is read only where some are negative. -/
structure IntRange where
  least : Int
  greatest : Int

def IntRange.signed (range : IntRange) : Bool := range.least < 0

def IntRange.contains (range : IntRange) (n : Int) : Bool :=
  range.least ≤ n && n ≤ range.greatest

def int32Range : IntRange := ⟨Int32.minValue.toInt, Int32.maxValue.toInt⟩
def int64Range : IntRange := ⟨Int64.minValue.toInt, Int64.maxValue.toInt⟩
def uint32Range : IntRange := ⟨0, UInt32.size - 1⟩
def uint64Range : IntRange := ⟨0, UInt64.size - 1⟩

def digit? (radix : Nat) (c : Char) : Option Nat :=
  if c.isDigit && c.toNat - 48 < radix then some (c.toNat - 48) else none

/-- Each digit joins `value` with the sign of the numeral, so that the least number of a
range can be read. -/
def readDigits (radix : Nat) (range : IntRange) (negative : Bool) :
    Int → List Char → Except NumeralError Int
  | value, [] => .ok value
  | value, c :: cs =>
    match digit? radix c with
    | none => .error .invalidDigit
    | some d =>
      let next := value * radix + (if negative then -(d : Int) else d)
      if next > range.greatest then .error .tooLarge
      else if next < range.least then .error .tooSmall
      else readDigits radix range negative next cs

def readNumeral (radix : Nat) (range : IntRange) : List Char → Except NumeralError Int
  | [] => .error .empty
  | ['+'] | ['-'] => .error .invalidDigit
  | '+' :: cs => readDigits radix range false 0 cs
  | '-' :: cs =>
    if range.signed then readDigits radix range true 0 cs else .error .invalidDigit
  | cs => readDigits radix range false 0 cs

end DataGrid.Text
