import DataGrid.Query.Predicate
import Mathlib.Data.List.Infix
import Mathlib.Data.List.Forall2

/-! What it is for a pattern to fit a value, and that the table of fits tells. Only a line feed in
the pattern fits one in the value. -/
namespace DataGrid.Predicate

/-- `%` stands for characters one after the other, `_` for one, and others for themselves; neither
of the two stands for a line feed. -/
inductive Fits : (pattern value : List Char) → Prop
  | nil : Fits [] []
  | stop {ps vs : List Char} (later : Fits ps vs) : Fits ('%' :: ps) vs
  | more {v : Char} {ps vs : List Char} (line : v ≠ '\n') (later : Fits ('%' :: ps) vs) :
      Fits ('%' :: ps) (v :: vs)
  | one {v : Char} {ps vs : List Char} (line : v ≠ '\n') (later : Fits ps vs) :
      Fits ('_' :: ps) (v :: vs)
  | same {p : Char} {ps vs : List Char} (run : p ≠ '%') (one : p ≠ '_') (later : Fits ps vs) :
      Fits (p :: ps) (p :: vs)

variable {p v : Char} {ps vs rest : List Char} {later : List Bool}

theorem fits_nil_iff : Fits [] vs ↔ vs = [] := by
  constructor
  · intro h
    cases h
    rfl
  · rintro rfl
    exact .nil

theorem fits_cons_nil_iff : Fits (p :: ps) [] ↔ p = '%' ∧ Fits ps [] := by
  constructor
  · intro h
    cases h with
    | stop later => exact ⟨rfl, later⟩
  · rintro ⟨rfl, later⟩
    exact .stop later

theorem fits_run_iff :
    Fits ('%' :: ps) (v :: vs) ↔ Fits ps (v :: vs) ∨ v ≠ '\n' ∧ Fits ('%' :: ps) vs := by
  constructor
  · intro h
    cases h with
    | stop later => exact .inl later
    | more line later => exact .inr ⟨line, later⟩
    | same run => exact absurd rfl run
  · rintro (later | ⟨line, later⟩)
    · exact .stop later
    · exact .more line later

theorem fits_one_iff : Fits ('_' :: ps) (v :: vs) ↔ v ≠ '\n' ∧ Fits ps vs := by
  constructor
  · intro h
    cases h with
    | one line later => exact ⟨line, later⟩
    | same _ one => exact absurd rfl one
  · rintro ⟨line, later⟩
    exact .one line later

theorem fits_same_iff (run : p ≠ '%') (one : p ≠ '_') :
    Fits (p :: ps) (v :: vs) ↔ v = p ∧ Fits ps vs := by
  constructor
  · intro h
    cases h with
    | stop => exact absurd rfl run
    | more => exact absurd rfl run
    | one => exact absurd rfl one
    | same _ _ later => exact ⟨rfl, later⟩
  · rintro ⟨rfl, later⟩
    exact .same run one later

/-! The table. -/

/-- The entries tell, suffix by suffix, whether the pattern fits. -/
def Tells (pattern value : List Char) (table : List Bool) : Prop :=
  List.Forall₂ (fun entry suffix => entry = true ↔ Fits pattern suffix) table value.tails

/-- The first entry is about the whole value. -/
theorem Tells.head {pattern value : List Char} {table : List Bool} (h : Tells pattern value table) :
    table.headD false = true ↔ Fits pattern value := by
  cases value with
  | nil =>
    cases h with
    | cons first _ => exact first
  | cons v vs =>
    cases h with
    | cons first _ => exact first

theorem tells_extendFits (p : Char) (value : List Char) (h : Tells ps value later) :
    Tells (p :: ps) value (extendFits p value later) := by
  induction value generalizing later with
  | nil =>
    refine .cons ?_ .nil
    rw [Bool.and_eq_true, beq_iff_eq, h.head, fits_cons_nil_iff]
  | cons v vs ih =>
    cases h with
    | @cons entry _ entries _ here below =>
      have shorter := ih below
      refine .cons ?_ shorter
      simp only [List.headD_cons, List.tail_cons]
      by_cases run : p = '%'
      · subst run
        simp only [if_true, Bool.or_eq_true, Bool.and_eq_true, bne_iff_ne, fits_run_iff]
        rw [here, shorter.head]
      · by_cases one : p = '_'
        · subst one
          simp only [run, if_false, if_true, Bool.and_eq_true, bne_iff_ne, fits_one_iff]
          rw [Tells.head below]
        · simp only [run, one, if_false, Bool.and_eq_true, beq_iff_eq, fits_same_iff run one]
          rw [Tells.head below]

theorem tells_fits (pattern value : List Char) : Tells pattern value (fits pattern value) := by
  induction pattern with
  | nil =>
    induction value with
    | nil => exact .cons (by simp [fits_nil_iff]) .nil
    | cons v vs ih => exact .cons (by simp [fits_nil_iff]) ih
  | cons p ps ih => exact tells_extendFits p value ih

theorem like_iff (ps : List Char) (value : String) :
    like (String.ofList ps) value = true ↔ Fits ps value.toList := by
  rw [like, String.toList_ofList]
  exact (tells_fits ps value.toList).head

/-! Texts as patterns. -/

/-- Whatever wildcards a text has, it fits itself as a pattern. -/
theorem Fits.append (h : Fits ps vs) (text : List Char) : Fits (text ++ ps) (text ++ vs) := by
  induction text with
  | nil => exact h
  | cons c cs ih =>
    by_cases run : c = '%'
    · subst run
      exact .more (by decide) (.stop ih)
    · by_cases one : c = '_'
      · subst one
        exact .one (by decide) ih
      · exact .same run one ih

theorem fits_run (free : '\n' ∉ vs) : Fits ['%'] vs := by
  induction vs with
  | nil => exact .stop .nil
  | cons v vs ih =>
    obtain ⟨line, free⟩ := not_or.mp (mt List.mem_cons.mpr free)
    exact .more (Ne.symm line) (ih free)

theorem Fits.count_line (h : Fits ps vs) : vs.count '\n' = ps.count '\n' := by
  induction h with
  | nil => rfl
  | stop _ ih => rwa [List.count_cons_of_ne (by decide)]
  | more line _ ih => rwa [List.count_cons_of_ne line]
  | one line _ ih => rw [List.count_cons_of_ne line, List.count_cons_of_ne (by decide), ih]
  | same _ _ _ ih => rw [List.count_cons, List.count_cons, ih]

/-- Of what is below a name, the name with a run after its slash fits just the single lines. -/
theorem fits_below_iff (name rest : List Char) :
    Fits (name ++ ['/', '%']) (name ++ '/' :: rest) ↔ '\n' ∉ rest := by
  constructor
  · intro h
    have same := h.count_line
    simp only [List.count_append, List.count_cons, List.count_nil] at same
    rw [← List.count_eq_zero]
    simpa using same
  · intro free
    exact (Fits.same (by decide) (by decide) (fits_run free)).append name

end DataGrid.Predicate
