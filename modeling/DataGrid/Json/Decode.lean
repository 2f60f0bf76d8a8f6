import DataGrid.Json.Reader
import DataGrid.Text.Numeral

/-! From JSON values to the values of a program. A record is read from an object by the names
of its fields: unknown members are skipped, a field that is given twice is refused. A tagged
value is read from an object one of whose members names the alternative; such an object is
examined in full first, so that no part of it, used or not, may be malformed. -/
namespace DataGrid.Json
open Text

def text? : Json → Option String
  | .string s => s
  | _ => none

def bool? : Json → Option Bool
  | .bool b => some b
  | _ => none

def integerIn? (range : IntRange) : Json → Option Int
  | .integer n => if range.contains n then some n else none
  | _ => none

def int32? (j : Json) : Option Int32 := (j.integerIn? int32Range).map Int32.ofInt

def int64? (j : Json) : Option Int64 := (j.integerIn? int64Range).map Int64.ofInt

def uint32? (j : Json) : Option UInt32 :=
  (j.integerIn? uint32Range).map fun n => UInt32.ofNat n.toNat

def uint64? (j : Json) : Option UInt64 :=
  (j.integerIn? uint64Range).map fun n => UInt64.ofNat n.toNat

def ofInt32 (n : Int32) : Json := .integer n.toInt

def ofInt64 (n : Int64) : Json := .integer n.toInt

def ofUInt32 (n : UInt32) : Json := .integer n.toNat

def ofUInt64 (n : UInt64) : Json := .integer n.toNat

def list? (f : Json → Option α) : Json → Option (List α)
  | .array items => items.mapM f
  | _ => none

/-- `null` is read as absent. -/
def optional? (f : Json → Option α) : Json → Option (Option α)
  | .null => some none
  | j => (f j).map some

/-- One of a list of names: the name itself, or an object that holds nothing but the name. -/
def choice? (names : List (String × α)) : Json → Option α
  | .string s => s.bind fun name => List.lookup name names
  | .object [(k, .null)] => k.bind fun name => List.lookup name names
  | _ => none

abbrev Fields := List (String × Json)

/-- The members of an object all of whose keys are well-formed. -/
def keyed? : List (Option String × Json) → Option Fields
  | [] => some []
  | (k, v) :: ms =>
    match k, keyed? ms with
    | some k, some fields => some ((k, v) :: fields)
    | _, _ => none

/-- Whether none of the names is given to two members. -/
def eachOnce (names : List String) (fields : Fields) : Bool :=
  names.all fun name => (fields.filter fun m => m.1 == name).length ≤ 1

/-- The members of an object that gives each of the named fields at most once. -/
def fields? (names : List String) : Json → Option Fields
  | .object ms =>
    match keyed? ms with
    | some fields => if eachOnce names fields then some fields else none
    | none => none
  | _ => none

def Fields.required (fields : Fields) (name : String) (f : Json → Option α) : Option α :=
  (fields.lookup name).bind f

/-- A missing field has the default value; one that is present must be readable. -/
def Fields.withDefault (fields : Fields) (name : String) (default : α) (f : Json → Option α) :
    Option α :=
  match fields.lookup name with
  | some j => f j
  | none => some default

/-- Keeps at most twenty digits of a numeral: `full` is set once the next digit would no longer
fit into 64 bits. -/
structure Significand where
  value : Nat
  exponent : Int
  full : Bool

def Significand.pushWhole (s : Significand) (d : Char) : Significand :=
  let next := s.value * 10 + (d.toNat - 48)
  if s.full || next ≥ UInt64.size then { s with exponent := s.exponent + 1, full := true }
  else { s with value := next }

def Significand.pushFraction (s : Significand) (d : Char) : Significand :=
  let next := s.value * 10 + (d.toNat - 48)
  if s.full || next ≥ UInt64.size then { s with full := true }
  else { s with value := next, exponent := s.exponent - 1 }

/-- The nearest number with at most 53 significant bits, the even one of two. -/
def round53 (n : Nat) : Nat :=
  let drop := n.log2 + 1 - 53
  let unit := Nat.pow 2 drop
  let low := n / unit
  let rest := n % unit
  if 2 * rest > unit || (2 * rest == unit && low % 2 == 1) then (low + 1) * unit else low * unit

/-- Whether a significand and a decimal exponent denote a finite double. -/
def finite (value : Nat) (exponent : Int) : Bool :=
  if value = 0 then true
  else if exponent > 308 then false
  else if exponent < 0 then true
  else round53 value * round53 (Nat.pow 10 exponent.toNat) < Nat.pow 2 1024 - Nat.pow 2 970

def Decimal.inRange (d : Decimal) : Bool :=
  let whole := d.whole.foldl Significand.pushWhole ⟨0, 0, false⟩
  let all := d.fraction.foldl Significand.pushFraction { whole with full := false }
  finite all.value (all.exponent + d.exponent)

/-- Whether a whole number that may exceed 64 bits denotes a finite double. -/
def integerInRange (n : Int) : Bool :=
  (Decimal.mk (n < 0) (toString n.natAbs).toList [] 0).inRange

mutual
/-- Whether every text and number in the value can be used. -/
def sound : Json → Bool
  | .string s => s.isSome
  | .integer n => integerInRange n
  | .decimal d => d.inRange
  | .array items => soundItems items
  | .object members => soundMembers members
  | _ => true

def soundItems : List Json → Bool
  | [] => true
  | v :: vs => v.sound && soundItems vs

def soundMembers : List (Option String × Json) → Bool
  | [] => true
  | (k, v) :: ms => k.isSome && v.sound && soundMembers ms
end

/-- Tagged values are read through no more than this many arrays and objects. -/
def depthLimit : Nat := 127

/-- The alternative that a tagged object names, and its other members. `level` counts the
objects around it. -/
def tagged? (level : Nat) (tag : String) : Json → Option (String × Fields)
  | .object ms =>
    if (Json.object ms).sound && level + (Json.object ms).depth ≤ depthLimit then
      match keyed? ms with
      | some fields =>
        if eachOnce [tag] fields then
          (fields.required tag text?).map fun name => (name, fields.filter fun m => m.1 != tag)
        else none
      | none => none
    else none
  | _ => none

/-- As `choice?`, inside a tagged object, where the name may also come with an empty object. -/
def taggedChoice? (names : List (String × α)) : Json → Option α
  | .object [(k, .object [])] => k.bind fun name => List.lookup name names
  | j => choice? names j

end DataGrid.Json
