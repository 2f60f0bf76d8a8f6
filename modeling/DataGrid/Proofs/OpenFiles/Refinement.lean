import DataGrid.Proofs.Dialogue
import DataGrid.Proofs.OpenFiles.Ledger

/-! A table of open files answers every call as the ledger does, from the start and for ever. Each
slot shows the entry of its handle, and a slot whose handle is not in use is blank. Handles are
32-bit integers, so this takes a capacity of at most 2 ^ 31. -/
namespace DataGrid.OpenFiles
open Ledger (Possible Within shown)

variable {t : OpenFiles} {l : Ledger}

/-! Handles and slots. -/

theorem position?_eq_some_iff {handle : Int32} {i : Fin t.capacity.toNat} :
    t.position? handle = some i ↔ handle.toInt = i ∧ reserved ≤ (i : Nat) := by
  unfold position?
  split
  · next usable =>
    rw [Option.some.injEq, Fin.ext_iff]
    simp only
    omega
  · next outside =>
    simp only [reduceCtorEq, false_iff]
    rintro ⟨same, usable⟩
    have := i.isLt
    omega

theorem position?_eq_none_iff {handle : Int32} :
    t.position? handle = none ↔ ¬ Possible t.capacity handle.toInt := by
  unfold position?
  split
  · next usable => exact iff_of_false (Option.some_ne_none _) (not_not_intro usable)
  · next outside => exact iff_of_true rfl outside

theorem findFinIdx?_eq_some_iff {α : Type} {n : Nat} {xs : Vector α n} {p : α → Bool} {i : Fin n} :
    xs.findFinIdx? p = some i ↔ p xs[i] = true ∧ ∀ j : Fin n, j < i → ¬ p xs[j] = true := by
  obtain ⟨xs, rfl⟩ := xs
  have cast : Fin.cast (rfl : xs.size = xs.size) = id := rfl
  rw [Vector.findFinIdx?_mk, cast, Option.map_id_fun, id_eq]
  exact Array.findFinIdx?_eq_some_iff

theorem get_eq_getElem (t : OpenFiles) (i : Fin t.capacity.toNat) :
    t.slots.get i = getElem t.slots (i : Nat) i.isLt := rfl

theorem lowestFree?_eq_some_iff {i : Fin t.capacity.toNat} :
    t.lowestFree? = some i ↔
      reserved ≤ (i : Nat) ∧ (t.slots.get i).inUse = false ∧
        ∀ j : Fin t.capacity.toNat, reserved ≤ (j : Nat) → j < i →
          (t.slots.get j).inUse = true := by
  rw [lowestFree?, Option.map_eq_some_iff]
  simp only [findFinIdx?_eq_some_iff, Fin.getElem_fin, Vector.getElem_drop, get_eq_getElem]
  constructor
  · rintro ⟨offset, ⟨free, before⟩, rfl⟩
    have hi := offset.isLt
    refine ⟨by simp, by simpa [Nat.add_comm] using free, fun j low below => ?_⟩
    have hj : (j : Nat) - reserved < t.capacity.toNat - reserved := by omega
    simpa [Nat.add_sub_cancel' low] using before ⟨j - reserved, hj⟩ (by
      rw [Fin.lt_def] at below ⊢
      simp only at below ⊢
      omega)
  · rintro ⟨usable, free, before⟩
    have hi : (i : Nat) - reserved < t.capacity.toNat - reserved := by omega
    refine ⟨⟨i - reserved, hi⟩, ⟨?_, fun j below => ?_⟩, ?_⟩
    · simpa [Nat.add_sub_cancel' usable] using free
    · have hj := j.isLt
      have := before ⟨reserved + j, by omega⟩ (by simp) (by
        rw [Fin.lt_def] at below ⊢
        simp only at below ⊢
        omega)
      simpa using this
    · simp [Nat.sub_add_cancel usable]

theorem lowestFree?_eq_none_iff :
    t.lowestFree? = none ↔
      ∀ j : Fin t.capacity.toNat, reserved ≤ (j : Nat) → (t.slots.get j).inUse = true := by
  rw [lowestFree?, Option.map_eq_none_iff, Vector.findFinIdx?_eq_none_iff]
  simp only [Vector.mem_iff_getElem, forall_exists_index, Vector.getElem_drop, get_eq_getElem]
  constructor
  · intro full j low
    have := full _ (j - reserved) (by omega) rfl
    simpa [Nat.add_sub_cancel' low] using this
  · rintro full _ i hi rfl
    simpa using full ⟨reserved + i, by omega⟩ (by simp)

@[simp] theorem getElem?_write (t : OpenFiles) (i : Fin t.capacity.toNat) (s : Slot) (k : Nat) :
    (t.write i s).slots[k]? = if (i : Nat) = k then some s else t.slots[k]? := by
  change (t.slots.set i s)[k]? = _
  rw [Vector.getElem?_set]

theorem get_write_self (t : OpenFiles) (i : Fin t.capacity.toNat) (s : Slot) :
    (t.write i s).slots.get i = s :=
  Vector.getElem_set_self i.isLt

theorem size_write (t : OpenFiles) (i : Fin t.capacity.toNat) (s : Slot) :
    (t.write i s).size =
      (t.size - if (t.slots.get i).inUse then 1 else 0) + if s.inUse then 1 else 0 :=
  Vector.countP_set i.isLt

theorem size_pos {i : Fin t.capacity.toNat} (h : (t.slots.get i).inUse = true) : 0 < t.size :=
  Vector.countP_pos_iff.mpr ⟨t.slots.get i, Vector.getElem_mem i.isLt, h⟩

/-! Claims. -/

theorem claim_of_full (full : t.lowestFree? = none) :
    t.claim = (.error (.outOfHandles t.capacity), t) := by
  rw [claim, full]

theorem claim_of_free {i : Fin t.capacity.toNat} (found : t.lowestFree? = some i) :
    t.claim = (.ok (Int32.ofNat i), t.write i { t.slots.get i with inUse := true }) := by
  rw [claim, found]

theorem claimFor_of_full (full : t.lowestFree? = none) (file : OpenFile) :
    t.claimFor file = (.error (.outOfHandles t.capacity), t) := by
  rw [claimFor, claim_of_full full]

theorem claimFor_of_free {i : Fin t.capacity.toNat} (found : t.lowestFree? = some i)
    (file : OpenFile) :
    t.claimFor file = ((t.claim.2.record (Int32.ofNat i) file).1.map fun _ => Int32.ofNat i,
      (t.claim.2.record (Int32.ofNat i) file).2) := by
  rw [claimFor, claim_of_free found]
  dsimp only
  split
  · next refused =>
    rw [refused]
    rfl
  · next recorded =>
    rw [recorded]
    rfl

/-! A table and the ledger that it stands for. -/

structure Matches (t : OpenFiles) (l : Ledger) : Prop extends Within t.capacity l where
  addressable : t.capacity.toNat ≤ 2 ^ 31
  slots : ∀ k < t.capacity.toNat, t.slots[k]? = some ((l.live[(k : Int)]?.map shown).getD {})
  size : l.live.size = t.size

theorem Matches.slot (h : Matches t l) (i : Fin t.capacity.toNat) :
    t.slots.get i = (l.live[((i : Nat) : Int)]?.map shown).getD {} := by
  have at_i := h.slots i i.isLt
  rwa [Vector.getElem?_eq_getElem i.isLt, Option.some.injEq] at at_i

@[simp] theorem inUse_shown (entry : Option OpenFile) : (shown entry).inUse = true := by
  cases entry <;> rfl

theorem Matches.inUse_iff (h : Matches t l) (i : Fin t.capacity.toNat) :
    (t.slots.get i).inUse = true ↔ ((i : Nat) : Int) ∈ l.live := by
  rw [h.slot, Std.TreeMap.mem_iff_isSome_getElem?]
  cases l.live[((i : Nat) : Int)]? <;> simp

/-- Nothing is left of an earlier owner. -/
theorem Matches.blank (h : Matches t l) {i : Fin t.capacity.toNat}
    (free : (t.slots.get i).inUse = false) : t.slots.get i = {} := by
  have slot := h.slot i
  cases entry : l.live[((i : Nat) : Int)]? with
  | none => rwa [entry] at slot
  | some entry' =>
    rw [slot, entry, Option.map_some, Option.getD_some, inUse_shown] at free
    contradiction

theorem Matches.note (h : Matches t l) {i : Fin t.capacity.toNat} (usable : reserved ≤ (i : Nat))
    (entry : Option OpenFile) : Matches (t.write i (shown entry)) (l.note (i : Nat) entry) where
  toWithin := h.toWithin.note ⟨by omega, by have := i.isLt; omega⟩ entry
  addressable := h.addressable
  slots k hk := by
    simp only [getElem?_write, Ledger.getElem?_note, Int.natCast_inj]
    split
    · rfl
    · exact h.slots k hk
  size := by
    rw [size_write, inUse_shown, Ledger.note, Std.TreeMap.size_insert, h.size]
    have live := h.inUse_iff i
    rw [← Std.TreeMap.contains_iff_mem] at live
    by_cases taken : (t.slots.get i).inUse = true
    · have := size_pos taken
      rw [if_pos taken, if_pos (live.mp taken), if_pos rfl]
      omega
    · rw [if_neg taken, if_neg (mt live.mpr taken), if_pos rfl, Nat.sub_zero]

theorem Matches.strike (h : Matches t l) {i : Fin t.capacity.toNat}
    (taken : (t.slots.get i).inUse = true) : Matches (t.write i {}) (l.strike (i : Nat)) where
  toWithin := h.toWithin.strike i
  addressable := h.addressable
  slots k hk := by
    simp only [getElem?_write, Ledger.getElem?_strike, Int.natCast_inj]
    split
    · rfl
    · exact h.slots k hk
  size := by
    have live := (h.inUse_iff i).mp taken
    rw [size_write, Ledger.strike, Std.TreeMap.size_erase,
      if_pos (Std.TreeMap.contains_iff_mem.mpr live), h.size, if_pos taken]
    rfl

theorem Matches.lowest (h : Matches t l) : t.lowestFree?.map Fin.val = l.lowest? := by
  have capacity := h.capacity
  cases found : t.lowestFree? with
  | none =>
    rw [lowestFree?_eq_none_iff] at found
    rw [Option.map_none, eq_comm, Ledger.lowest?_eq_none_iff, Set.eq_empty_iff_forall_notMem]
    intro i idle
    obtain ⟨⟨low, high⟩, free⟩ := Ledger.mem_idle_iff.mp idle
    rw [capacity] at high
    exact free ((h.inUse_iff ⟨i, high⟩).mp (found _ low))
  | some i =>
    obtain ⟨low, free, before⟩ := lowestFree?_eq_some_iff.mp found
    rw [Option.map_some, eq_comm, Ledger.lowest?_eq_some_iff]
    refine ⟨Ledger.mem_idle_iff.mpr ⟨⟨low, ?_⟩, ?_⟩, fun j idle => ?_⟩
    · rw [capacity]
      exact i.isLt
    · rw [← h.inUse_iff, free]
      exact Bool.false_ne_true
    · obtain ⟨⟨lowJ, high⟩, freeJ⟩ := Ledger.mem_idle_iff.mp idle
      rw [capacity] at high
      by_contra below
      exact freeJ ((h.inUse_iff ⟨j, high⟩).mp (before ⟨j, high⟩ lowJ (Nat.lt_of_not_le below)))

/-- What a handle is to the table and to the ledger. -/
inductive Named (t : OpenFiles) (l : Ledger) (handle : Int32) : Prop
  | outside (position : t.position? handle = none) (absent : l.live[handle.toInt]? = none)
      (refused : ∀ reason, l.refusal handle reason = .badHandle handle "out of range")
  | idle (i : Fin t.capacity.toNat) (position : t.position? handle = some i)
      (free : (t.slots.get i).inUse = false) (absent : l.live[handle.toInt]? = none)
      (refused : ∀ reason, l.refusal handle reason = .badHandle handle reason)
  | live (i : Fin t.capacity.toNat) (entry : Option OpenFile)
      (position : t.position? handle = some i) (same : handle.toInt = (i : Nat))
      (low : reserved ≤ (i : Nat)) (slot : t.slots.get i = shown entry)
      (present : l.live[handle.toInt]? = some entry)

theorem Matches.named (h : Matches t l) (handle : Int32) : Named t l handle := by
  cases position : t.position? handle with
  | none =>
    have outside := position?_eq_none_iff.mp position
    refine .outside position (Std.TreeMap.getElem?_eq_none fun live => ?_) fun reason => ?_
    · exact outside (h.possible _ live)
    · rw [Ledger.refusal, h.capacity, if_neg outside]
  | some i =>
    obtain ⟨same, low⟩ := position?_eq_some_iff.mp position
    have slot := h.slot i
    cases present : l.live[((i : Nat) : Int)]? with
    | none =>
      have blank : t.slots.get i = {} := by rwa [present] at slot
      refine .idle i position (by rw [blank]) (same ▸ present) fun reason => ?_
      rw [Ledger.refusal, h.capacity, if_pos ⟨by omega, by have := i.isLt; omega⟩]
    | some entry =>
      rw [present] at slot
      exact .live i entry position same low slot (same ▸ present)

/-! Calls. -/

/-- The same answer, and a table and a ledger that match afterwards. -/
def Agree {α : Type} (x : α × OpenFiles) (y : α × Ledger) : Prop := x.1 = y.1 ∧ Matches x.2 y.2

/-- The table is full for both or the lowest free slot is a blank one. -/
theorem Matches.free (h : Matches t l) :
    (t.lowestFree? = none ∧ l.lowest? = none) ∨
      ∃ i, t.lowestFree? = some i ∧ l.lowest? = some (i : Nat) ∧ reserved ≤ (i : Nat) ∧
        t.slots.get i = {} := by
  have lowest := h.lowest
  cases found : t.lowestFree? with
  | none =>
    rw [found, Option.map_none] at lowest
    exact .inl ⟨rfl, lowest.symm⟩
  | some i =>
    rw [found, Option.map_some] at lowest
    obtain ⟨low, free, -⟩ := lowestFree?_eq_some_iff.mp found
    exact .inr ⟨i, rfl, lowest.symm, low, h.blank free⟩

theorem Matches.claim (h : Matches t l) : Agree t.claim (l.enter none) := by
  unfold Ledger.enter
  rcases h.free with ⟨full, full'⟩ | ⟨i, found, found', low, blank⟩
  · rw [claim_of_full full, full', h.capacity]
    exact ⟨rfl, h⟩
  · simp only [claim_of_free found, found', blank]
    exact ⟨rfl, h.note low none⟩

theorem fill_shown (entry : Option OpenFile) (file : OpenFile) :
    (shown entry).fill file = shown (some file) := by
  cases entry <;> rfl

theorem record_taken {handle : Int32} {i : Fin t.capacity.toNat} {entry : Option OpenFile}
    (position : t.position? handle = some i) (slot : t.slots.get i = shown entry)
    (file : OpenFile) :
    t.record handle file = (.ok (), t.write i (shown (some file))) := by
  unfold record
  rw [position]
  simp only [slot, inUse_shown, if_true, fill_shown]

/-- The handle that a claim has answered with names the slot that it has taken. -/
theorem position?_claimed {i : Fin t.capacity.toNat} (numbered : (i : Nat) < 2 ^ 31)
    (low : reserved ≤ (i : Nat)) (s : Slot) :
    (t.write i s).position? (Int32.ofNat i) = some i :=
  position?_eq_some_iff.mpr ⟨Int32.toInt_ofNat_of_lt numbered, low⟩

theorem record_claimed {i : Fin t.capacity.toNat} (numbered : (i : Nat) < 2 ^ 31)
    (low : reserved ≤ (i : Nat)) (entry : Option OpenFile) (file : OpenFile) :
    (t.write i (shown entry)).record (Int32.ofNat i) file =
      (.ok (), t.write i (shown (some file))) := by
  rw [record_taken (position?_claimed numbered low _) (get_write_self t i _) file]
  simp [write]

theorem Matches.claimFor (h : Matches t l) (file : OpenFile) :
    Agree (t.claimFor file) (l.enter (some file)) := by
  unfold Ledger.enter
  rcases h.free with ⟨full, full'⟩ | ⟨i, found, found', low, blank⟩
  · rw [claimFor_of_full full, full', h.capacity]
    exact ⟨rfl, h⟩
  · have numbered := Nat.lt_of_lt_of_le i.isLt h.addressable
    have claimed : t.claim.2 = t.write i (shown none) := by
      simp only [claim_of_free found, blank]
      rfl
    rw [claimFor_of_free found, found', claimed, record_claimed numbered low]
    exact ⟨rfl, h.note low (some file)⟩

theorem Matches.record (h : Matches t l) (handle : Int32) (file : OpenFile) :
    Agree (t.record handle file) (l.record handle file) := by
  unfold Ledger.record
  cases h.named handle with
  | outside position absent refused =>
    rw [OpenFiles.record, position, absent, refused]
    exact ⟨rfl, h⟩
  | idle i position free absent refused =>
    rw [OpenFiles.record, position, absent, refused]
    simp only [free]
    exact ⟨rfl, h⟩
  | live i entry position same low slot present =>
    rw [record_taken position slot, present, same]
    exact ⟨rfl, h.note low (some file)⟩

theorem Matches.release (h : Matches t l) (handle : Int32) :
    Agree (t.release handle) (l.release handle) := by
  unfold OpenFiles.release Ledger.release
  cases h.named handle with
  | outside position absent refused =>
    rw [position, absent, refused]
    exact ⟨rfl, h⟩
  | idle i position free absent refused =>
    rw [position, absent, refused]
    simp only [free]
    exact ⟨rfl, h⟩
  | live i entry position same low slot present =>
    rw [position, present, same]
    simp only [slot, inUse_shown, if_true]
    exact ⟨rfl, h.strike (by rw [slot, inUse_shown])⟩

theorem Matches.hostBehind (h : Matches t l) (handle : Int32) :
    t.hostBehind handle = l.hostBehind handle := by
  unfold OpenFiles.hostBehind Ledger.hostBehind
  cases h.named handle with
  | outside position absent refused => rw [position, absent, refused]
  | idle i position free absent refused =>
    rw [position, absent, refused]
    simp only [free]
    rfl
  | live i entry position same low slot present =>
    rw [position, present]
    simp only [slot, inUse_shown, if_true]
    cases entry <;> rfl

theorem Matches.get? (h : Matches t l) (handle : Int32) :
    t.get? handle = l.live[handle.toInt]?.map shown := by
  unfold OpenFiles.get?
  cases h.named handle with
  | outside position absent refused =>
    rw [position, absent]
    rfl
  | idle i position free absent refused =>
    rw [position, absent, Option.map_some, Option.filter_some, free]
    rfl
  | live i entry position same low slot present =>
    rw [position, present, Option.map_some, Option.filter_some, slot, inUse_shown]
    rfl

theorem Matches.serve (h : Matches t l) (c : Call) : Agree (serve c t) (Ledger.serve c l) := by
  cases c with
  | claim => exact h.claim
  | record handle file => exact h.record handle file
  | claimFor file => exact h.claimFor file
  | release handle => exact h.release handle
  | hostBehind handle => exact ⟨h.hostBehind handle, h⟩
  | get handle => exact ⟨h.get? handle, h⟩
  | size => exact ⟨h.size.symm, h⟩
  | capacity => exact ⟨h.capacity.symm, h⟩

theorem matches_ofCapacity {n : UInt64} (usable : reserved < n.toNat)
    (addressable : n.toNat ≤ 2 ^ 31) :
    ∃ t, ofCapacity n = .ok t ∧ t.capacity = n ∧ Matches t { capacity := n } := by
  refine ⟨{ capacity := n, slots := .replicate _ {} }, ?_, rfl, ⟨rfl, ?_⟩, addressable, ?_, ?_⟩
  · rw [ofCapacity, if_neg (Nat.not_le_of_lt usable)]
  · intro handle live
    simp at live
  · intro k hk
    simp [hk]
  · simp [size, Vector.countP_replicate]

/-! Whole sequences of calls. -/

/-- What a table of that capacity is at any time, and the ledger beside it. -/
structure Conforms (n : UInt64) (t : OpenFiles) (l : Ledger) : Prop where
  capacity : t.capacity = n
  possible : ∀ handle ∈ l.live, Possible n handle
  least : ∀ i, l.lowest? = some i ↔ IsLeast {i : Nat | Possible n i ∧ (i : Int) ∉ l.live} i
  full : l.lowest? = none ↔ l.live.size = n.toNat - reserved
  untouched : ∀ c handle, c.touched (serve c t).1 ≠ some handle →
    (serve c t).2.get? handle = t.get? handle

theorem Matches.conforms (h : Matches t l) : Conforms t.capacity t l where
  capacity := rfl
  possible := h.possible
  least i := by rw [Ledger.lowest?_eq_some_iff, Ledger.idle, h.capacity]
  full := h.toWithin.lowest?_eq_none_iff_size
  untouched c handle untouched := by
    obtain ⟨same, after⟩ := h.serve c
    rw [same] at untouched
    rw [after.get?, h.get?, Ledger.serve_untouched h.toWithin h.addressable c handle untouched]

/-- A new table answers every sequence of calls, each of which may depend on the answers so far,
as an empty ledger does. -/
theorem table_is_ledger {n : UInt64} (usable : reserved < n.toNat)
    (addressable : n.toNat ≤ 2 ^ 31) :
    ∃ t, ofCapacity n = .ok t ∧ ∀ {α : Type} (d : Dialogue interface α),
      d.exchanges serve t = d.exchanges Ledger.serve { capacity := n } ∧
        Conforms n (d.run serve t).2 (d.run Ledger.serve { capacity := n }).2 := by
  obtain ⟨t, made, rfl, start⟩ := matches_ofCapacity usable addressable
  refine ⟨t, made, fun d => ?_⟩
  obtain ⟨same, after, capacity⟩ := d.run_simulates
    (fun t' l => Matches t' l ∧ l.capacity = t.capacity)
    (fun c _ _ h => ⟨(h.1.serve c).1, (h.1.serve c).2, by rw [Ledger.capacity_serve, h.2]⟩)
    ⟨start, rfl⟩
  rw [after.capacity] at capacity
  exact ⟨same, capacity ▸ after.conforms⟩

def Sample.file : OpenFile := ⟨⟨"h", "z", .remote⟩, "/v/a", .tape, 7, 2⟩

/-- A handle is used, given back and taken again. -/
def Sample.reuse : Dialogue interface Unit :=
  .ask (.claimFor file) fun _ => .ask (.release 3) fun _ => .ask .claim fun _ =>
    .ask (.hostBehind 3) fun _ => .done ()

theorem host_of_earlier_owner_is_gone : ∃ t, ofCapacity 5 = .ok t ∧
    Sample.reuse.exchanges serve t =
      [⟨.claimFor Sample.file, .ok 3⟩, ⟨.release 3, .ok ()⟩, ⟨.claim, .ok 3⟩,
        ⟨.hostBehind 3, .error (.badHandle 3 "no host recorded")⟩] := by
  obtain ⟨t, made, answers⟩ := table_is_ledger (n := 5) (by decide) (by decide)
  refine ⟨t, made, (answers Sample.reuse).1.trans ?_⟩
  rfl

end DataGrid.OpenFiles
