import DataGrid.Proofs.Json.Decoding

/-! Objects that leave out fields. A reader that knows a default for every field that is left out
cannot tell the object from one in which some of these fields stand, in any place, with their
default values. -/
namespace DataGrid.Json

variable {α : Type} {names : List String} {name : String} {defaults given whole omitted : Fields}
  {members filled : List (Option String × Json)}

def member (m : String × Json) : Option String × Json := (some m.1, m.2)

/-- Some fields that the members leave out are added with their default values, and the members
may be rearranged. -/
def Fills (defaults : Fields) (members filled : List (Option String × Json)) : Prop :=
  ∃ omitted : Fields, omitted.Sublist defaults ∧
    (∀ m ∈ omitted, some m.1 ∉ members.map Prod.fst) ∧
      filled.Perm (omitted.map member ++ members)

/-! A list of members all of whose keys are well-formed is a list of fields. -/

def field (m : Option String × Json) : String × Json := (m.1.getD "", m.2)

theorem keyed?_eq (members : List (Option String × Json)) :
    keyed? members =
      if members.all (fun m => m.1.isSome) then some (members.map field) else none := by
  induction members with
  | nil => rfl
  | cons m members ih =>
    obtain ⟨_ | key, j⟩ := m
    · rfl
    · simp only [keyed?, ih]
      by_cases all : members.all (fun m => m.1.isSome) = true
      · simp [all, field]
      · simp [all]

theorem map_field_member (fields : Fields) : (fields.map member).map field = fields := by
  simp [Function.comp_def, field, member]

/-! Fields in another order. -/

theorem lookup_eq_head_filter (fields : Fields) (name : String) :
    fields.lookup name = ((fields.filter fun m => m.1 == name).head?).map Prod.snd := by
  induction fields with
  | nil => rfl
  | cons m fields ih =>
    obtain ⟨key, j⟩ := m
    by_cases same : key = name
    · simp [same]
    · simp [List.lookup_cons, same, beq_false_of_ne (Ne.symm same), ih]

theorem eq_of_perm_of_length_le_one {xs ys : List α} (same : xs.Perm ys) (short : xs.length ≤ 1) :
    xs = ys := by
  match xs, short with
  | [], _ => exact same.symm.eq_nil.symm
  | [x], _ => exact (List.perm_singleton.mp same.symm).symm

/-- What is given no more than once is found wherever it stands. -/
theorem lookup_perm (same : given.Perm whole)
    (once : (given.filter fun m => m.1 == name).length ≤ 1) :
    given.lookup name = whole.lookup name := by
  rw [lookup_eq_head_filter, lookup_eq_head_filter,
    eq_of_perm_of_length_le_one (same.filter fun m => m.1 == name) once]

theorem filter_eq_nil_of_not_mem (absent : name ∉ given.map Prod.fst) :
    given.filter (fun m => m.1 == name) = [] := by
  rw [List.filter_eq_nil_iff]
  intro m mem
  simp only [beq_iff_eq]
  exact fun same => absent (List.mem_map.mpr ⟨m, mem, same⟩)

theorem eachOnce_filled (once : (omitted.map Prod.fst).Nodup)
    (fresh : ∀ m ∈ omitted, m.1 ∉ given.map Prod.fst) (same : whole.Perm (omitted ++ given))
    (names : List String) : eachOnce names whole = eachOnce names given := by
  unfold eachOnce
  congr 1
  funext name
  have count : (whole.filter fun m => m.1 == name).length =
      (omitted.filter fun m => m.1 == name).length +
        (given.filter fun m => m.1 == name).length := by
    rw [(same.filter _).length_eq, List.filter_append, List.length_append]
  rw [count]
  by_cases mem : name ∈ omitted.map Prod.fst
  · -- It is one of the fields filled in, so it was not given before.
    obtain ⟨m, filled, rfl⟩ := List.mem_map.mp mem
    rw [filter_eq_nil_of_not_mem (fresh m filled)]
    simpa using length_filter_of_nodup once m.1
  · rw [filter_eq_nil_of_not_mem mem]
    simp

theorem lookup_filled (same : whole.Perm (omitted ++ given)) (once : eachOnce names whole = true)
    (mem : name ∈ names) : whole.lookup name = (omitted.lookup name).or (given.lookup name) := by
  have single := of_decide_eq_true (List.all_eq_true.mp once name mem)
  rw [lookup_perm same single, List.lookup_append]

/-- Fields in which some of those with defaults have been filled in. -/
structure Completed (defaults : Fields) (names : List String) (given whole : Fields) : Prop where
  lookup : ∀ name ∈ names, whole.lookup name = given.lookup name ∨
    given.lookup name = none ∧ ∃ j, (name, j) ∈ defaults ∧ whole.lookup name = some j

theorem completed_of_perm (sub : omitted.Sublist defaults)
    (fresh : ∀ m ∈ omitted, m.1 ∉ given.map Prod.fst) (same : whole.Perm (omitted ++ given))
    (once : eachOnce names whole = true) : Completed defaults names given whole where
  lookup name mem := by
    have found := lookup_filled same once mem
    cases added : omitted.lookup name with
    | none =>
      rw [added, Option.none_or] at found
      exact .inl found
    | some j =>
      rw [added, Option.some_or] at found
      obtain ⟨before, after, rfl, -⟩ := List.lookup_eq_some_iff.mp added
      have filled : (name, j) ∈ before ++ (name, j) :: after := by simp
      have absent : given.lookup name = none := by
        rw [List.lookup_eq_none_iff]
        intro m given
        simp only [bne_iff_ne, ne_eq]
        exact fun same => fresh _ filled (List.mem_map.mpr ⟨m, given, same.symm⟩)
      exact .inr ⟨absent, j, sub.subset filled, found⟩

/-- Either neither of the objects gives the fields, or both do, and the fields of the second
complete those of the first. -/
theorem fields?_filled (nodup : (defaults.map Prod.fst).Nodup)
    (fills : Fills defaults members filled) (names : List String) :
    (fields? names (.object members) = none ∧ fields? names (.object filled) = none) ∨
      ∃ given whole, fields? names (.object members) = some given ∧
        fields? names (.object filled) = some whole ∧ Completed defaults names given whole := by
  obtain ⟨omitted, sub, fresh, same⟩ := fills
  have keys : filled.all (fun m => m.1.isSome) = members.all (fun m => m.1.isSome) := by
    rw [same.all_eq]
    simp [member]
  by_cases all : members.all (fun m => m.1.isSome) = true
  · have same' : (filled.map field).Perm (omitted ++ members.map field) := by
      have mapped := same.map field
      rwa [List.map_append, map_field_member] at mapped
    have fresh' : ∀ m ∈ omitted, m.1 ∉ (members.map field).map Prod.fst := by
      intro m mem again
      rw [List.map_map] at again
      obtain ⟨⟨key, j⟩, given, same⟩ := List.mem_map.mp again
      obtain ⟨key, rfl⟩ := Option.isSome_iff_exists.mp (List.all_eq_true.mp all _ given)
      obtain rfl : key = m.1 := same
      exact fresh m mem (List.mem_map_of_mem given)
    have once := eachOnce_filled ((sub.map Prod.fst).nodup nodup) fresh' same' names
    by_cases single : eachOnce names (members.map field) = true
    · rw [single] at once
      exact .inr ⟨_, _, by simp [fields?, keyed?_eq, all, single],
        by simp [fields?, keyed?_eq, keys, all, once], completed_of_perm sub fresh' same' once⟩
    · left
      simp [fields?, keyed?_eq, keys, all, once, single]
  · left
    simp [fields?, keyed?_eq, keys, all]

theorem Completed.required (completed : Completed defaults names given whole) (name : String)
    (mem : name ∈ names) (other : name ∉ defaults.map Prod.fst) (f : Json → Option α) :
    whole.required name f = given.required name f := by
  rcases completed.lookup name mem with same | ⟨-, j, default, -⟩
  · rw [Fields.required, Fields.required, same]
  · exact absurd (List.mem_map.mpr ⟨_, default, rfl⟩) other

theorem Completed.withDefault (completed : Completed defaults names given whole) (name : String)
    (default : α) (f : Json → Option α) (mem : name ∈ names)
    (reads : ∀ j, (name, j) ∈ defaults → f j = some default) :
    whole.withDefault name default f = given.withDefault name default f := by
  rcases completed.lookup name mem with same | ⟨absent, j, mem, present⟩
  · rw [Fields.withDefault, Fields.withDefault, same]
  · rw [Fields.withDefault, Fields.withDefault, absent, present]
    exact reads j mem

end DataGrid.Json
