import DataGrid.Proofs.OpenFiles.Refinement

/-! The numbers of handles. A claim marks the lowest free slot and answers with the number of the
slot as a 32-bit integer. Below 2 ^ 31 that is the number itself, whatever the capacity, so the
handle names the slot it was given for. Claims in a row take the slots in order, so in a table with
more slots there comes a claim whose number wraps. -/
namespace DataGrid.OpenFiles
open Ledger (shown)

variable {t : OpenFiles} {i : Fin t.capacity.toNat} {k : Nat} {file : OpenFile}

def Taken (t : OpenFiles) (k : Nat) : Prop := t.slots[k]?.map Slot.inUse = some true

instance : Decidable (Taken t k) := inferInstanceAs (Decidable (_ = _))

/-- The slot is taken afterwards and was not before. -/
def Marks (t t' : OpenFiles) (k : Nat) : Prop := ¬ Taken t k ∧ Taken t' k

instance {t' : OpenFiles} : Decidable (Marks t t' k) := inferInstanceAs (Decidable (_ ∧ _))

/-- The handle is the number of the slot, and what is recorded under it, asked of it and given
back with it is that slot. -/
structure Usable (t : OpenFiles) (handle : Int32) (k : Nat) : Prop where
  number : handle.toInt = k
  recorded (file : OpenFile) : ∃ t', t.record handle file = (.ok (), t') ∧
    t'.hostBehind handle = .ok (file.host, file.host.isRemote) ∧
    ∀ j ≠ k, t'.slots[j]? = t.slots[j]?
  released : ∃ t', t.release handle = (.ok (), t') ∧ ¬ Taken t' k ∧
    ∀ j ≠ k, t'.slots[j]? = t.slots[j]?

/-- Calls lead to the table from a new one. -/
def Reachable (t : OpenFiles) : Prop :=
  ∃ n start, ofCapacity n = .ok start ∧ ∃ d : Dialogue interface Unit, (d.run serve start).2 = t

/-! Slots that are taken. -/

theorem getElem?_eq_get (t : OpenFiles) (i : Fin t.capacity.toNat) :
    t.slots[(i : Nat)]? = some (t.slots.get i) :=
  Vector.getElem?_eq_getElem i.isLt

theorem taken_iff : Taken t i ↔ (t.slots.get i).inUse = true := by
  rw [Taken, getElem?_eq_get, Option.map_some, Option.some.injEq]

theorem taken_write {s : Slot} :
    Taken (t.write i s) k ↔ if (i : Nat) = k then s.inUse = true else Taken t k := by
  rw [Taken, getElem?_write]
  split
  · simp
  · rfl

/-- To record a file changes a slot that is taken or nothing. -/
theorem record_cases (t : OpenFiles) (handle : Int32) (file : OpenFile) :
    (t.record handle file).2 = t ∨ ∃ i, (t.slots.get i).inUse = true ∧
      (t.record handle file).2 = t.write i ((t.slots.get i).fill file) := by
  unfold record
  cases t.position? handle with
  | none => exact .inl rfl
  | some i =>
    by_cases taken : (t.slots.get i).inUse = true
    · exact .inr ⟨i, taken, by simp only [taken, if_true]⟩
    · exact .inl (by simp only [taken]; rfl)

theorem taken_record {handle : Int32} : Taken (t.record handle file).2 k ↔ Taken t k := by
  rcases t.record_cases handle file with same | ⟨i, -, same⟩
  · rw [same]
  · rw [same, taken_write]
    split
    · next here => rw [← here, taken_iff, Slot.fill]
    · rfl

/-! Slots that are free. -/

/-- Nothing is left in a slot that is free. -/
def Blank (t : OpenFiles) : Prop :=
  ∀ (k : Nat) (s : Slot), t.slots[k]? = some s → s.inUse = false → s = {}

theorem Blank.write (h : Blank t) {s : Slot} (used : s.inUse = false → s = {}) :
    Blank (t.write i s) := by
  intro k s' there free
  rw [getElem?_write] at there
  split at there
  · cases there
    exact used free
  · exact h k s' there free

theorem Blank.record (h : Blank t) (handle : Int32) (file : OpenFile) :
    Blank (t.record handle file).2 := by
  rcases t.record_cases handle file with same | ⟨i, taken, same⟩
  · rwa [same]
  · rw [same]
    refine h.write fun free => ?_
    rw [Slot.fill, taken] at free
    contradiction

theorem Blank.claim (h : Blank t) : Blank t.claim.2 := by
  cases found : t.lowestFree? with
  | none => rwa [claim_of_full found]
  | some i =>
    rw [claim_of_free found]
    exact h.write fun free => by cases free

theorem Blank.claimFor (h : Blank t) (file : OpenFile) : Blank (t.claimFor file).2 := by
  cases found : t.lowestFree? with
  | none => rwa [claimFor_of_full found]
  | some i =>
    rw [claimFor_of_free found]
    exact h.claim.record _ file

theorem Blank.release (h : Blank t) (handle : Int32) : Blank (t.release handle).2 := by
  unfold OpenFiles.release
  cases t.position? handle with
  | none => exact h
  | some i =>
    by_cases taken : (t.slots.get i).inUse = true
    · simp only [taken, if_true]
      exact h.write fun _ => rfl
    · simp only [taken]
      exact h

theorem Blank.serve (h : Blank t) (c : Call) : Blank (serve c t).2 := by
  cases c with
  | claim => exact h.claim
  | record handle file => exact h.record handle file
  | claimFor file => exact h.claimFor file
  | release handle => exact h.release handle
  | _ => exact h

theorem ofCapacity_eq_ok_iff {n : UInt64} :
    ofCapacity n = .ok t ↔
      reserved < n.toNat ∧ t = { capacity := n, slots := .replicate _ {} } := by
  unfold ofCapacity
  split
  · next few => simp [Nat.not_lt_of_le few]
  · next enough => simp [Nat.lt_of_not_le enough, eq_comm]

theorem Reachable.blank (h : Reachable t) : Blank t := by
  obtain ⟨n, start, made, d, rfl⟩ := h
  obtain ⟨-, rfl⟩ := ofCapacity_eq_ok_iff.mp made
  refine d.run_preserves Blank (fun c _ h => h.serve c) ?_
  intro k s there _
  rw [Vector.getElem?_replicate] at there
  split at there
  · cases there
    rfl
  · contradiction

/-! The slot that a claim marks. -/

theorem marks_claim_iff : Marks t t.claim.2 k ↔ ∃ i, t.lowestFree? = some i ∧ (i : Nat) = k := by
  cases found : t.lowestFree? with
  | none =>
    rw [claim_of_full found]
    simp [Marks]
  | some i =>
    obtain ⟨-, free, -⟩ := lowestFree?_eq_some_iff.mp found
    have idle : ¬ Taken t i := by
      rw [taken_iff, free]
      exact Bool.false_ne_true
    rw [Marks, claim_of_free found, taken_write]
    split
    · next here => simpa [← here] using idle
    · next other => simp [other]

theorem marks_claimFor_iff (file : OpenFile) :
    Marks t (t.claimFor file).2 k ↔ Marks t t.claim.2 k := by
  cases found : t.lowestFree? with
  | none => rw [claimFor_of_full found, claim_of_full found]
  | some i => rw [claimFor_of_free found, Marks, Marks, taken_record]

/-! Claims of slots that are blank. -/

theorem Blank.get (h : Blank t) (free : (t.slots.get i).inUse = false) : t.slots.get i = {} :=
  h i _ (getElem?_eq_get t i) free

theorem Blank.claim_eq (h : Blank t) (found : t.lowestFree? = some i) :
    t.claim = (.ok (Int32.ofNat i), t.write i (shown none)) := by
  obtain ⟨-, free, -⟩ := lowestFree?_eq_some_iff.mp found
  simp only [claim_of_free found, h.get free]
  rfl

theorem Blank.claimFor_eq (h : Blank t) (found : t.lowestFree? = some i)
    (numbered : (i : Nat) < 2 ^ 31) (file : OpenFile) :
    t.claimFor file = (.ok (Int32.ofNat i), t.write i (shown (some file))) := by
  obtain ⟨low, -⟩ := lowestFree?_eq_some_iff.mp found
  rw [claimFor_of_free found, h.claim_eq found, record_claimed numbered low]
  rfl

theorem hostBehind_claimed (numbered : (i : Nat) < 2 ^ 31) (low : reserved ≤ (i : Nat))
    (entry : Option OpenFile) :
    (t.write i (shown entry)).hostBehind (Int32.ofNat i) =
      match entry with
      | none => .error (.badHandle (Int32.ofNat i) "no host recorded")
      | some file => .ok (file.host, file.host.isRemote) := by
  rw [hostBehind, position?_claimed numbered low]
  simp only [get_write_self, inUse_shown, if_true]
  cases entry <;> rfl

theorem release_claimed (numbered : (i : Nat) < 2 ^ 31) (low : reserved ≤ (i : Nat))
    (entry : Option OpenFile) :
    (t.write i (shown entry)).release (Int32.ofNat i) = (.ok (), t.write i {}) := by
  rw [release, position?_claimed numbered low]
  simp only [get_write_self, inUse_shown, if_true]
  simp [write]

theorem getElem?_write_of_ne {s s' : Slot} {j : Nat} (other : j ≠ i) :
    (t.write i s).slots[j]? = (t.write i s').slots[j]? := by
  rw [getElem?_write, getElem?_write, if_neg (Ne.symm other), if_neg (Ne.symm other)]

/-- The number of a slot below 2 ^ 31 is a handle of that slot. -/
theorem usable_claimed (numbered : (i : Nat) < 2 ^ 31) (low : reserved ≤ (i : Nat))
    (entry : Option OpenFile) : Usable (t.write i (shown entry)) (Int32.ofNat i) i where
  number := Int32.toInt_ofNat_of_lt numbered
  recorded file := ⟨_, record_claimed numbered low entry file,
    hostBehind_claimed numbered low (some file), fun _ => getElem?_write_of_ne⟩
  released := by
    refine ⟨_, release_claimed numbered low entry, ?_, fun _ => getElem?_write_of_ne⟩
    rw [taken_write, if_pos rfl]
    exact Bool.false_ne_true

/-! Claims in a row. -/

/-- The slots that can be used are taken up to the `m`th and free from there on. -/
def Front (t : OpenFiles) (m : Nat) : Prop :=
  ∀ k, reserved ≤ k → k < t.capacity.toNat → (Taken t k ↔ k < m)

variable {m : Nat}

theorem Front.lowest (h : Front t m) (low : reserved ≤ m) (room : m < t.capacity.toNat) :
    t.lowestFree? = some ⟨m, room⟩ := by
  rw [lowestFree?_eq_some_iff]
  refine ⟨low, ?_, ?_⟩
  · have idle : ¬ Taken t m := mt (h m low room).mp (Nat.lt_irrefl m)
    exact eq_false_of_ne_true (mt (taken_iff (i := ⟨m, room⟩)).mpr idle)
  · intro j lowJ before
    exact taken_iff.mp ((h j lowJ j.isLt).mpr before)

theorem Front.full (h : Front t m) (whole : t.capacity.toNat ≤ m) : t.lowestFree? = none := by
  rw [lowestFree?_eq_none_iff]
  intro j low
  exact taken_iff.mp ((h j low j.isLt).mpr (Nat.lt_of_lt_of_le j.isLt whole))

theorem Front.claim (h : Front t m) (low : reserved ≤ m) (room : m < t.capacity.toNat) :
    t.claim.2.capacity = t.capacity ∧ Front t.claim.2 (m + 1) := by
  rw [claim_of_free (h.lowest low room)]
  refine ⟨rfl, fun k lowK inside => ?_⟩
  rw [taken_write]
  split
  · next here => exact iff_of_true rfl (here ▸ Nat.lt_succ_self m)
  · next other =>
    rw [h k lowK inside]
    simp only at other
    omega

def claims : Nat → Dialogue interface Unit
  | 0 => .done ()
  | k + 1 => .ask .claim fun _ => claims k

theorem Front.claims (h : Front t m) (low : reserved ≤ m) (room : m + k ≤ t.capacity.toNat) :
    ((claims k).run serve t).2.capacity = t.capacity ∧
      Front ((claims k).run serve t).2 (m + k) := by
  induction k generalizing t m with
  | zero => exact ⟨rfl, h⟩
  | succ k ih =>
    obtain ⟨capacity, front⟩ := h.claim low (by omega)
    obtain ⟨capacity', front'⟩ := ih front (by omega) (by rw [capacity]; omega)
    rw [Nat.add_right_comm] at front'
    exact ⟨capacity'.trans capacity, front'⟩

theorem front_claims {n : UInt64} {start : OpenFiles} (made : ofCapacity n = .ok start)
    (room : reserved + k ≤ n.toNat) :
    ((claims k).run serve start).2.capacity = n ∧
      Front ((claims k).run serve start).2 (reserved + k) := by
  obtain ⟨-, rfl⟩ := ofCapacity_eq_ok_iff.mp made
  have front : Front { capacity := n, slots := .replicate _ {} } reserved := by
    intro j low inside
    refine iff_of_false ?_ (Nat.not_lt_of_le low)
    rw [Taken, Vector.getElem?_replicate, if_pos inside]
    simp
  exact front.claims (Nat.le_refl _) room

/-- Of the claims in a row that a new table is asked for, each takes the slot after the last. -/
theorem lowestFree?_claims {n : UInt64} {start : OpenFiles} (made : ofCapacity n = .ok start)
    (room : reserved + k < n.toNat) :
    ∃ i, ((claims k).run serve start).2.lowestFree? = some i ∧ (i : Nat) = reserved + k := by
  obtain ⟨capacity, front⟩ := front_claims made (Nat.le_of_lt room)
  exact ⟨_, front.lowest (Nat.le_add_right _ _) (by rw [capacity]; exact room), rfl⟩

/-! Numbers that wrap. -/

/-- From 2 ^ 31 to 2 ^ 32 the number of a slot is not a handle of any slot. -/
theorem claimFor_of_high (found : t.lowestFree? = some i) (high : 2 ^ 31 ≤ (i : Nat))
    (bound : (i : Nat) < 2 ^ 32) (file : OpenFile) :
    t.claimFor file = (.error (.badHandle (Int32.ofNat i) "out of range"), t.claim.2) := by
  have negative : (Int32.ofNat i).toInt = (i : Int) - 2 ^ 32 := by
    rw [Int32.toInt_ofNat', Int.bmod, Int32.size]
    omega
  have outside : t.claim.2.position? (Int32.ofNat i) = none := by
    rw [position?_eq_none_iff, negative]
    rintro ⟨low, -⟩
    omega
  rw [claimFor_of_free found, record, outside]
  rfl

/-- In every table that calls lead to, the handle of a slot below 2 ^ 31 is the number of the slot
and can be used as such: a file can be recorded under it at once, its host can be asked for from
then on, and it can be given back. A refusal that marks no higher slot changes nothing. -/
theorem marked_slot_numbered (h : Reachable t) :
    (∀ k < 2 ^ 31, Marks t t.claim.2 k → ∃ handle, t.claim.1 = .ok handle ∧
      Usable t.claim.2 handle k ∧
      t.claim.2.hostBehind handle = .error (.badHandle handle "no host recorded")) ∧
    (∀ file, ∀ k < 2 ^ 31, Marks t (t.claimFor file).2 k → ∃ handle,
      (t.claimFor file).1 = .ok handle ∧ Usable (t.claimFor file).2 handle k ∧
      (t.claimFor file).2.hostBehind handle = .ok (file.host, file.host.isRemote)) ∧
    ∀ file e, (t.claimFor file).1 = .error e →
      (∀ k, Marks t (t.claimFor file).2 k → k < 2 ^ 31) → (t.claimFor file).2 = t := by
  have blank := h.blank
  refine ⟨?_, ?_, ?_⟩
  · intro k numbered marked
    obtain ⟨i, found, rfl⟩ := marks_claim_iff.mp marked
    obtain ⟨low, -⟩ := lowestFree?_eq_some_iff.mp found
    rw [blank.claim_eq found]
    exact ⟨_, rfl, usable_claimed numbered low none, hostBehind_claimed numbered low none⟩
  · intro file k numbered marked
    obtain ⟨i, found, rfl⟩ := marks_claim_iff.mp ((marks_claimFor_iff file).mp marked)
    obtain ⟨low, -⟩ := lowestFree?_eq_some_iff.mp found
    rw [blank.claimFor_eq found numbered]
    exact ⟨_, rfl, usable_claimed numbered low (some file),
      hostBehind_claimed numbered low (some file)⟩
  · intro file e refused below
    cases found : t.lowestFree? with
    | none => rw [claimFor_of_full found]
    | some i =>
      have marked : Marks t t.claim.2 i := marks_claim_iff.mpr ⟨i, found, rfl⟩
      have numbered := below i ((marks_claimFor_iff file).mpr marked)
      rw [blank.claimFor_eq found numbered] at refused
      contradiction

/-- The last slot that has a number, in a table with one slot more, and a table that is full. -/
theorem last_numbered_slot_usable :
    (∃ start, ofCapacity 2147483649 = .ok start ∧
      let t := ((claims (2 ^ 31 - 4)).run serve start).2
      Marks t t.claim.2 (2 ^ 31 - 1) ∧ Marks t (t.claimFor Sample.file).2 (2 ^ 31 - 1) ∧
        t.claim.1 = .ok 2147483647 ∧ Usable t.claim.2 2147483647 (2 ^ 31 - 1) ∧
        (t.claimFor Sample.file).1 = .ok 2147483647 ∧
        Usable (t.claimFor Sample.file).2 2147483647 (2 ^ 31 - 1)) ∧
    ∃ start, ofCapacity 4 = .ok start ∧
      let t := ((claims 1).run serve start).2
      (t.claimFor Sample.file).1 = .error (.outOfHandles 4) ∧ (t.claimFor Sample.file).2 = t := by
  constructor
  · have made : ofCapacity 2147483649 = .ok { capacity := 2147483649, slots := .replicate _ {} } :=
      ofCapacity_eq_ok_iff.mpr ⟨by decide, rfl⟩
    obtain ⟨i, found, here⟩ := lowestFree?_claims (k := 2 ^ 31 - 4) made (by decide)
    have marked := marks_claim_iff.mpr ⟨i, found, (here : (i : Nat) = 2 ^ 31 - 1)⟩
    have marked' := (marks_claimFor_iff Sample.file).mpr marked
    obtain ⟨claimed, recorded, -⟩ :=
      marked_slot_numbered ⟨_, _, made, claims (2 ^ 31 - 4), rfl⟩
    obtain ⟨handle, answer, usable, -⟩ := claimed _ (by decide) marked
    obtain ⟨handle', answer', usable', -⟩ := recorded Sample.file _ (by decide) marked'
    obtain rfl : handle = 2147483647 := Int32.toInt_inj.mp (usable.number.trans (by decide))
    obtain rfl : handle' = 2147483647 := Int32.toInt_inj.mp (usable'.number.trans (by decide))
    exact ⟨_, made, marked, marked', answer, usable, answer', usable'⟩
  · have made : ofCapacity 4 = .ok { capacity := 4, slots := .replicate _ {} } := rfl
    obtain ⟨capacity, front⟩ := front_claims (k := 1) made (by decide)
    have full := claimFor_of_full (front.full (by rw [capacity]; decide)) Sample.file
    rw [capacity] at full
    have answer := congrArg Prod.fst full
    refine ⟨_, made, answer, (marked_slot_numbered ⟨_, _, made, claims 1, rfl⟩).2.2 _ _ answer ?_⟩
    intro k marked
    rw [full] at marked
    exact absurd marked.2 marked.1

/-- A handle that no file is recorded under has no host yet, and the slot after the last that has a
number is marked all the same: its handle is negative, and the file is refused under it. -/
theorem handle_without_host_or_number :
    (∃ start, ofCapacity 4 = .ok start ∧ Marks start start.claim.2 3 ∧ start.claim.1 = .ok 3 ∧
      start.claim.2.hostBehind 3 = .error (.badHandle 3 "no host recorded")) ∧
    ∃ start, ofCapacity 2147483649 = .ok start ∧
      let t := ((claims (2 ^ 31 - 3)).run serve start).2
      Marks t t.claim.2 (2 ^ 31) ∧ t.claim.1 = .ok (-2147483648) ∧
        (t.claimFor Sample.file).1 = .error (.badHandle (-2147483648) "out of range") ∧
        Marks t (t.claimFor Sample.file).2 (2 ^ 31) := by
  constructor
  · exact ⟨_, rfl, by decide +kernel, by decide +kernel, by decide +kernel⟩
  · have made : ofCapacity 2147483649 = .ok { capacity := 2147483649, slots := .replicate _ {} } :=
      ofCapacity_eq_ok_iff.mpr ⟨by decide, rfl⟩
    obtain ⟨i, found, here⟩ := lowestFree?_claims (k := 2 ^ 31 - 3) made (by decide)
    have high : (i : Nat) = 2 ^ 31 := here
    have number : Int32.ofNat i = -2147483648 := by
      rw [high]
      decide
    have marked := marks_claim_iff.mpr ⟨i, found, high⟩
    refine ⟨_, made, marked, ?_, ?_, (marks_claimFor_iff Sample.file).mpr marked⟩
    · rw [claim_of_free found, number]
    · rw [claimFor_of_high found (by omega) (by omega), number]

end DataGrid.OpenFiles
