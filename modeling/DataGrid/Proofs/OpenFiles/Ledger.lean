import DataGrid.Dialogue
import DataGrid.OpenFiles
import Std.Data.TreeMap.Lemmas
import Mathlib.Data.Int.Interval
import Mathlib.Order.Bounds.Defs

/-! What a table of open files is to its users: a finite map from the handles in use to what was
recorded last under each, if anything. A claim takes the least handle that is not in the map, and a
call with a handle that is not in the map is refused. The ledger has no slots, so there is nothing
that an earlier owner of a handle could leave behind. -/
namespace DataGrid.OpenFiles

inductive Call where
  | claim
  | record (handle : Int32) (file : OpenFile)
  | claimFor (file : OpenFile)
  | release (handle : Int32)
  | hostBehind (handle : Int32)
  | get (handle : Int32)
  | size
  | capacity
  deriving DecidableEq

abbrev Call.Result : Call → Type
  | .claim => Except Error Int32
  | .record _ _ => Except Error Unit
  | .claimFor _ => Except Error Int32
  | .release _ => Except Error Unit
  | .hostBehind _ => Except Error (Host × Bool)
  | .get _ => Option Slot
  | .size => Nat
  | .capacity => UInt64

abbrev interface : Interface := ⟨Call, Call.Result⟩

def serve : Server OpenFiles interface
  | .claim, t => t.claim
  | .record handle file, t => t.record handle file
  | .claimFor file, t => t.claimFor file
  | .release handle, t => t.release handle
  | .hostBehind handle, t => (t.hostBehind handle, t)
  | .get handle, t => (t.get? handle, t)
  | .size, t => (t.size, t)
  | .capacity, t => (t.capacity, t)

/-- The handle that a call changes something about, if there is one. -/
def Call.touched : (c : Call) → c.Result → Option Int32
  | .claim, answer => answer.toOption
  | .claimFor _, answer => answer.toOption
  | .record handle _, _ => some handle
  | .release handle, _ => some handle
  | _, _ => none

/-- The handles in use, each with the file that was last recorded under it. -/
structure Ledger where
  capacity : UInt64
  live : Std.TreeMap Int (Option OpenFile) := ∅

namespace Ledger

/-- A handle that the table could ever give out. -/
def Possible (n : UInt64) (handle : Int) : Prop := reserved ≤ handle ∧ handle < n.toNat

instance (n : UInt64) (handle : Int) : Decidable (Possible n handle) :=
  inferInstanceAs (Decidable (_ ∧ _))

def lowest? (l : Ledger) : Option Nat :=
  (List.range' reserved (l.capacity.toNat - reserved)).find? fun i => !l.live.contains (i : Int)

def note (l : Ledger) (handle : Int) (entry : Option OpenFile) : Ledger :=
  { l with live := l.live.insert handle entry }

def strike (l : Ledger) (handle : Int) : Ledger := { l with live := l.live.erase handle }

/-- The refusal of a handle that is not in use. -/
def refusal (l : Ledger) (handle : Int32) (reason : String) : Error :=
  .badHandle handle (if Possible l.capacity handle.toInt then reason else "out of range")

/-- What a user sees under a handle in use. -/
def shown : Option OpenFile → Slot
  | none => { inUse := true }
  | some file => { inUse := true, host := some file.host, name := some file.name,
                   driver := file.driver, descriptor := file.descriptor, mode := file.mode }

/-- Takes the lowest handle for an entry. -/
def enter (l : Ledger) (entry : Option OpenFile) : Except Error Int32 × Ledger :=
  match l.lowest? with
  | some i => (.ok (Int32.ofNat i), l.note i entry)
  | none => (.error (.outOfHandles l.capacity), l)

def record (l : Ledger) (handle : Int32) (file : OpenFile) : Except Error Unit × Ledger :=
  match l.live[handle.toInt]? with
  | some _ => (.ok (), l.note handle.toInt (some file))
  | none => (.error (l.refusal handle "not allocated"), l)

def release (l : Ledger) (handle : Int32) : Except Error Unit × Ledger :=
  match l.live[handle.toInt]? with
  | some _ => (.ok (), l.strike handle.toInt)
  | none => (.error (l.refusal handle "not in use"), l)

def hostBehind (l : Ledger) (handle : Int32) : Except Error (Host × Bool) :=
  match l.live[handle.toInt]? with
  | none => .error (l.refusal handle "not active")
  | some none => .error (.badHandle handle "no host recorded")
  | some (some file) => .ok (file.host, file.host.isRemote)

def serve : Server Ledger interface
  | .claim, l => l.enter none
  | .record handle file, l => l.record handle file
  | .claimFor file, l => l.enter (some file)
  | .release handle, l => l.release handle
  | .hostBehind handle, l => (l.hostBehind handle, l)
  | .get handle, l => (l.live[handle.toInt]?.map shown, l)
  | .size, l => (l.live.size, l)
  | .capacity, l => (l.capacity, l)

/-! Laws. -/

variable {l : Ledger} {n : UInt64} {handle k : Int} {entry : Option OpenFile}

/-- Only possible handles are in use. -/
structure Within (n : UInt64) (l : Ledger) : Prop where
  capacity : l.capacity = n
  possible : ∀ handle ∈ l.live, Possible n handle

theorem Within.note (h : Within n l) (possible : Possible n handle) (entry : Option OpenFile) :
    Within n (l.note handle entry) := by
  refine ⟨h.capacity, fun k hk => ?_⟩
  rcases Std.TreeMap.mem_insert.mp hk with here | before
  · rwa [← Std.compare_eq_iff_eq.mp here]
  · exact h.possible k before

theorem Within.strike (h : Within n l) (handle : Int) : Within n (l.strike handle) :=
  ⟨h.capacity, fun k hk => h.possible k (Std.TreeMap.mem_erase.mp hk).2⟩

@[simp] theorem getElem?_note (l : Ledger) (handle k : Int) (entry : Option OpenFile) :
    (l.note handle entry).live[k]? = if handle = k then some entry else l.live[k]? := by
  simp [note, Std.TreeMap.getElem?_insert]

@[simp] theorem getElem?_strike (l : Ledger) (handle k : Int) :
    (l.strike handle).live[k]? = if handle = k then none else l.live[k]? := by
  simp [strike, Std.TreeMap.getElem?_erase]

/-- The handles that a claim may take. -/
def idle (l : Ledger) : Set Nat := {i | Possible l.capacity i ∧ (i : Int) ∉ l.live}

theorem mem_idle_iff {i : Nat} :
    i ∈ l.idle ↔ (reserved ≤ i ∧ i < l.capacity.toNat) ∧ (i : Int) ∉ l.live := by
  simp [idle, Possible]

theorem lowest?_eq_some_iff {i : Nat} : l.lowest? = some i ↔ IsLeast l.idle i := by
  rw [lowest?, List.find?_range'_eq_some, IsLeast, mem_idle_iff, List.mem_range'_1]
  simp only [mem_lowerBounds, mem_idle_iff, Bool.not_eq_true', Bool.not_not,
    ← Std.TreeMap.contains_iff_mem, Bool.not_eq_true]
  constructor
  · rintro ⟨free, ⟨low, high⟩, before⟩
    refine ⟨⟨⟨low, by omega⟩, free⟩, fun j ⟨⟨lowJ, _⟩, freeJ⟩ => ?_⟩
    by_contra below
    have taken := before j lowJ (by omega)
    rw [freeJ] at taken
    contradiction
  · rintro ⟨⟨⟨low, high⟩, free⟩, least⟩
    refine ⟨free, ⟨low, by omega⟩, fun j lowJ below => ?_⟩
    by_contra freeJ
    have := least j ⟨⟨lowJ, by omega⟩, eq_false_of_ne_true freeJ⟩
    omega

theorem lowest?_eq_none_iff : l.lowest? = none ↔ l.idle = ∅ := by
  rw [lowest?, List.find?_range'_eq_none, Set.eq_empty_iff_forall_notMem]
  simp only [mem_idle_iff, Bool.not_not, Std.TreeMap.contains_iff_mem]
  constructor
  · rintro full i ⟨⟨low, high⟩, free⟩
    exact free (full i low (by omega))
  · intro full i low high
    by_contra free
    exact full i ⟨⟨low, by omega⟩, free⟩

/-- No handle is left exactly if all possible ones are in use. -/
theorem Within.lowest?_eq_none_iff_size (h : Within n l) :
    l.lowest? = none ↔ l.live.size = n.toNat - reserved := by
  -- The handles in use, as a subset of the possible ones.
  let used := l.live.keys.toFinset
  have card : used.card = l.live.size := by
    rw [List.toFinset_card_of_nodup Std.TreeMap.nodup_keys, Std.TreeMap.length_keys]
  have mem {k : Int} : k ∈ used ↔ k ∈ l.live := by
    rw [List.mem_toFinset, Std.TreeMap.mem_keys]
  have inside : used ⊆ Finset.Ico (reserved : Int) n.toNat := fun k hk =>
    Finset.mem_Ico.mpr (h.possible k (mem.mp hk))
  have total : (Finset.Ico (reserved : Int) n.toNat).card = n.toNat - reserved := by
    rw [Int.card_Ico]
    omega
  rw [lowest?_eq_none_iff, Set.eq_empty_iff_forall_notMem]
  constructor
  · intro full
    have all : Finset.Ico (reserved : Int) n.toNat ⊆ used := by
      intro k hk
      obtain ⟨low, high⟩ := Finset.mem_Ico.mp hk
      lift k to Nat using by omega
      by_contra free
      exact full k ⟨h.capacity ▸ ⟨low, high⟩, fun live => free (mem.mpr live)⟩
    rw [← card, ← total, Finset.Subset.antisymm inside all]
  · rintro size i ⟨possible, free⟩
    have same := Finset.eq_of_subset_of_card_le inside (by rw [card, total, size])
    refine free (mem.mp ?_)
    rw [same]
    exact Finset.mem_Ico.mpr (h.capacity ▸ possible)

@[simp] theorem capacity_serve (c : Call) (l : Ledger) : (serve c l).2.capacity = l.capacity := by
  have enter (entry : Option OpenFile) : (l.enter entry).2.capacity = l.capacity := by
    unfold Ledger.enter
    cases l.lowest? <;> rfl
  cases c with
  | claim => exact enter none
  | claimFor file => exact enter (some file)
  | record handle file =>
    change (l.record handle file).2.capacity = _
    unfold record
    cases l.live[handle.toInt]? <;> rfl
  | release handle =>
    change (l.release handle).2.capacity = _
    unfold release
    cases l.live[handle.toInt]? <;> rfl
  | _ => rfl

theorem enter_untouched (h : Within n l) (addressable : n.toNat ≤ 2 ^ 31) (handle : Int32)
    (untouched : (l.enter entry).1.toOption ≠ some handle) :
    (l.enter entry).2.live[handle.toInt]? = l.live[handle.toInt]? := by
  unfold enter at untouched ⊢
  cases lowest : l.lowest? with
  | none => rfl
  | some i =>
    obtain ⟨⟨⟨-, high⟩, -⟩, -⟩ := lowest?_eq_some_iff.mp lowest
    rw [h.capacity] at high
    have same : (Int32.ofNat i).toInt = i := Int32.toInt_ofNat_of_lt (by omega)
    rw [lowest] at untouched
    rw [getElem?_note, if_neg]
    rw [← same, Int32.toInt_inj]
    exact fun here => untouched (congrArg some here)

/-- What a call does not touch stays as it is. -/
theorem serve_untouched (h : Within n l) (addressable : n.toNat ≤ 2 ^ 31) (c : Call)
    (handle : Int32) (untouched : c.touched (serve c l).1 ≠ some handle) :
    (serve c l).2.live[handle.toInt]? = l.live[handle.toInt]? := by
  have other {x : Int32} (different : some x ≠ some handle) : x.toInt ≠ handle.toInt :=
    fun same => different (congrArg some (Int32.toInt_inj.mp same))
  cases c with
  | claim => exact enter_untouched h addressable handle untouched
  | claimFor file => exact enter_untouched h addressable handle untouched
  | record x file =>
    change (l.record x file).2.live[handle.toInt]? = _
    unfold record
    cases l.live[x.toInt]? with
    | none => rfl
    | some entry => rw [getElem?_note, if_neg (other untouched)]
  | release x =>
    change (l.release x).2.live[handle.toInt]? = _
    unfold release
    cases l.live[x.toInt]? with
    | none => rfl
    | some entry => rw [getElem?_strike, if_neg (other untouched)]
  | _ => rfl

end Ledger
end DataGrid.OpenFiles
