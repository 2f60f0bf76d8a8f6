import DataGrid.Host
import DataGrid.Error

/-! The table of open files of one session. Slots are numbered from zero, the first three are
never handed out, and an allocation claims the lowest free one. A handle is the number of its
slot as a 32-bit integer. Freeing a slot forgets what was recorded in it, so a slot that is
claimed again starts out blank. -/
namespace DataGrid

/-- What kind of storage the descriptor behind a handle belongs to. -/
inductive DriverKind where
  | unix
  | tape
  | object
  deriving Repr, DecidableEq

def DriverKind.name : DriverKind → String
  | .unix => "unix"
  | .tape => "tape"
  | .object => "object"

def DriverKind.names : List (String × DriverKind) :=
  [("unix", .unix), ("tape", .tape), ("object", .object)]

/-- What is recorded about an open file. -/
structure OpenFile where
  host : Host
  name : String
  driver : DriverKind
  descriptor : Int32
  mode : Int32
  deriving Repr, DecidableEq

/-- Nothing is recorded in a slot at first. -/
structure Slot where
  inUse : Bool := false
  host : Option Host := none
  name : Option String := none
  driver : DriverKind := .unix
  descriptor : Int32 := 0
  mode : Int32 := 0
  deriving Repr, DecidableEq

/-- The slot with the file recorded in it; whether it is in use stays as it is. -/
def Slot.fill (s : Slot) (file : OpenFile) : Slot :=
  { s with
    host := some file.host
    name := some file.name
    driver := file.driver
    descriptor := file.descriptor
    mode := file.mode }

structure OpenFiles where
  capacity : UInt64
  slots : Vector Slot capacity.toNat

namespace OpenFiles

/-- Slots that stand for the standard streams. -/
def reserved : Nat := 3

/-- A table needs at least one slot that can be used. -/
def ofCapacity (capacity : UInt64) : Except Error OpenFiles :=
  if capacity.toNat ≤ reserved then
    .error (.input s!"handle capacity {capacity.toNat} leaves no usable slots")
  else .ok { capacity, slots := .replicate _ {} }

/-- The number of slots that are in use. -/
def size (t : OpenFiles) : Nat := t.slots.countP Slot.inUse

/-- The slot that a handle names. -/
def position? (t : OpenFiles) (handle : Int32) : Option (Fin t.capacity.toNat) :=
  if h : reserved ≤ handle.toInt ∧ handle.toInt < t.capacity.toNat then
    some ⟨handle.toInt.toNat, by omega⟩
  else none

def lowestFree? (t : OpenFiles) : Option (Fin t.capacity.toNat) :=
  ((t.slots.drop reserved).findFinIdx? fun s => !s.inUse).map fun ⟨offset, h⟩ =>
    ⟨offset + reserved, Nat.add_lt_of_lt_sub h⟩

def write (t : OpenFiles) (i : Fin t.capacity.toNat) (s : Slot) : OpenFiles :=
  { t with slots := t.slots.set i s }

def claim (t : OpenFiles) : Except Error Int32 × OpenFiles :=
  match t.lowestFree? with
  | some i => (.ok (Int32.ofNat i), t.write i { t.slots.get i with inUse := true })
  | none => (.error (.outOfHandles t.capacity), t)

/-- Records an open file in a slot that is in use. -/
def record (t : OpenFiles) (handle : Int32) (file : OpenFile) : Except Error Unit × OpenFiles :=
  match t.position? handle with
  | none => (.error (.badHandle handle "out of range"), t)
  | some i =>
    if (t.slots.get i).inUse then (.ok (), t.write i ((t.slots.get i).fill file))
    else (.error (.badHandle handle "not allocated"), t)

def claimFor (t : OpenFiles) (file : OpenFile) : Except Error Int32 × OpenFiles :=
  match t.claim with
  | (.error e, t) => (.error e, t)
  | (.ok handle, t) =>
    match t.record handle file with
    | (.error e, t) => (.error e, t)
    | (.ok (), t) => (.ok handle, t)

def release (t : OpenFiles) (handle : Int32) : Except Error Unit × OpenFiles :=
  match t.position? handle with
  | none => (.error (.badHandle handle "out of range"), t)
  | some i =>
    if (t.slots.get i).inUse then (.ok (), t.write i {})
    else (.error (.badHandle handle "not in use"), t)

/-- The host that the open file behind a handle was recorded with, and whether it is remote. -/
def hostBehind (t : OpenFiles) (handle : Int32) : Except Error (Host × Bool) :=
  match t.position? handle with
  | none => .error (.badHandle handle "out of range")
  | some i =>
    if (t.slots.get i).inUse then
      match (t.slots.get i).host with
      | some host => .ok (host, host.isRemote)
      | none => .error (.badHandle handle "no host recorded")
    else .error (.badHandle handle "not active")

/-- The slot of a handle, if it is in use. -/
def get? (t : OpenFiles) (handle : Int32) : Option Slot :=
  ((t.position? handle).map fun i => t.slots.get i).filter Slot.inUse

end OpenFiles
end DataGrid
