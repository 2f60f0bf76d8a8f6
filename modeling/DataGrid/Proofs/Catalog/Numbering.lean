import DataGrid.Catalog.Memory

/-! The numbers of replicas. A new replica gets the number after the highest in use, in integers of
32 bits. It is above all the others unless one of them has the last number there is: then the first
comes next, and if that is in use too, two replicas share it. -/
namespace DataGrid.Catalog.Memory

instance : Std.LawfulOrderMax Int32 where
  max_eq_or a b := by
    change (if a ≤ b then b else a) = a ∨ (if a ≤ b then b else a) = b
    split
    · exact .inr rfl
    · exact .inl rfl
  max_le_iff a b c := by
    change (if a ≤ b then b else a) ≤ c ↔ a ≤ c ∧ b ≤ c
    simp only [Int32.le_iff_toInt_le]
    split <;> omega

variable {replicas : List Replica}

/-- Some replica has the highest number, and the next comes after it. -/
theorem exists_highest (some : replicas ≠ []) : ∃ last ∈ replicas,
    (∀ r ∈ replicas, r.number ≤ last.number) ∧ nextNumber replicas = last.number + 1 := by
  obtain ⟨highest, most⟩ := Option.isSome_iff_exists.mp
    (List.isSome_max?_iff.mpr (mt List.map_eq_nil_iff.mp some : replicas.map Replica.number ≠ []))
  obtain ⟨used, above⟩ := List.max?_eq_some_iff.mp most
  obtain ⟨last, mem, rfl⟩ := List.mem_map.mp used
  exact ⟨last, mem, fun r mem => above _ (List.mem_map_of_mem mem), by rw [nextNumber, most]; rfl⟩

theorem toInt_next {n : Int32} (more : n ≠ .maxValue) : (n + 1).toInt = n.toInt + 1 := by
  have bounded := Int32.le_iff_toInt_le.mp (Int32.le_maxValue n)
  have apart : n.toInt ≠ Int32.maxValue.toInt := mt Int32.toInt_inj.mp more
  have least := Int32.minValue_le_toInt n
  rw [Int32.toInt_maxValue] at bounded apart
  rw [Int32.toInt_minValue] at least
  rw [Int32.toInt_add, Int32.toInt_one, Int.bmod_eq_of_le] <;> omega

theorem lt_nextNumber (free : ∀ r ∈ replicas, r.number ≠ .maxValue) :
    ∀ r ∈ replicas, r.number < nextNumber replicas := by
  intro r used
  obtain ⟨last, mem, highest, next⟩ := exists_highest (List.ne_nil_of_mem used)
  have more := toInt_next (free last mem)
  have below := Int32.le_iff_toInt_le.mp (highest r used)
  rw [next, Int32.lt_iff_toInt_lt]
  omega

theorem nextNumber_of_last (used : ∃ r ∈ replicas, r.number = .maxValue) :
    nextNumber replicas = .minValue := by
  obtain ⟨r, mem, final⟩ := used
  obtain ⟨last, -, highest, next⟩ := exists_highest (List.ne_nil_of_mem mem)
  have same : last.number = .maxValue :=
    Int32.le_antisymm (Int32.le_maxValue _) (final ▸ highest r mem)
  rw [next, same]
  rfl

/-- The next number is above those in use exactly if none of them is the last. -/
theorem lt_nextNumber_iff : (∀ r ∈ replicas, r.number < nextNumber replicas) ↔
    ∀ r ∈ replicas, r.number ≠ .maxValue := by
  refine ⟨fun above r mem final => ?_, lt_nextNumber⟩
  have first := above r mem
  rw [nextNumber_of_last ⟨r, mem, final⟩, final] at first
  exact absurd first (by decide)

/-- It is in use already exactly if the last number and the first are. -/
theorem nextNumber_used_iff : (∃ r ∈ replicas, r.number = nextNumber replicas) ↔
    (∃ r ∈ replicas, r.number = .maxValue) ∧ ∃ r ∈ replicas, r.number = .minValue := by
  by_cases used : ∃ r ∈ replicas, r.number = .maxValue
  · rw [nextNumber_of_last used, and_iff_right used]
  · refine iff_of_false ?_ (mt And.left used)
    rintro ⟨r, mem, same⟩
    have above := lt_nextNumber (by simpa using used) r mem
    exact absurd same (Int32.ne_of_lt above)

/-- A number that a replica gets beside others. -/
structure Numbered (replicas : List Replica) (number : Int32) : Prop where
  next : number = nextNumber replicas
  above : (∀ r ∈ replicas, r.number < number) ↔ ∀ r ∈ replicas, r.number ≠ .maxValue
  shared : (∃ r ∈ replicas, r.number = number) ↔
    (∃ r ∈ replicas, r.number = .maxValue) ∧ ∃ r ∈ replicas, r.number = .minValue

theorem numbered_next (replicas : List Replica) : Numbered replicas (nextNumber replicas) :=
  ⟨rfl, lt_nextNumber_iff, nextNumber_used_iff⟩

end DataGrid.Catalog.Memory
