/-! Case and identifiers over the ASCII letters. Letters outside ASCII keep their case here
and belong to no identifier. -/
namespace DataGrid.Text

/-- Equal when the case of ASCII letters is ignored. -/
def sameLetters (a b : List Char) : Bool := a.map Char.toLower == b.map Char.toLower

def upper (s : String) : String := String.ofList (s.toList.map Char.toUpper)

def isNameStart (c : Char) : Bool := c.isAlpha || c == '_'

def isNameChar (c : Char) : Bool := c.isAlphanum || c == '_'

/-- A letter or underscore, followed by letters, digits and underscores. -/
def isIdentifier : List Char → Bool
  | [] => false
  | c :: cs => isNameStart c && cs.all isNameChar

/-- The rest of `text` after `lead`, if it begins so. -/
def stripLead? : (lead text : List Char) → Option (List Char)
  | [], text => some text
  | _ :: _, [] => none
  | p :: ps, c :: cs => if p = c then stripLead? ps cs else none

/-- Whether `part` stands anywhere in the text. -/
def occurs (part : List Char) : List Char → Bool
  | [] => part.isEmpty
  | c :: cs => part.isPrefixOf (c :: cs) || occurs part cs

theorem stripLead?_append (lead rest : List Char) : stripLead? lead (lead ++ rest) = some rest := by
  induction lead with
  | nil => rfl
  | cons c cs ih => simp [stripLead?, ih]

theorem eq_append_of_stripLead? {lead text rest : List Char}
    (h : stripLead? lead text = some rest) : text = lead ++ rest := by
  induction lead generalizing text with
  | nil => simpa [stripLead?] using h
  | cons p ps ih =>
    cases text with
    | nil => simp [stripLead?] at h
    | cons c cs =>
      by_cases hpc : p = c
      · simp only [stripLead?, hpc, if_true] at h
        rw [ih h, hpc, List.cons_append]
      · simp [stripLead?, hpc] at h

theorem stripLead?_eq_some_iff {lead text rest : List Char} :
    stripLead? lead text = some rest ↔ text = lead ++ rest :=
  ⟨eq_append_of_stripLead?, fun h => h ▸ stripLead?_append lead rest⟩

theorem stripLead?_eq_none_iff {lead text : List Char} :
    stripLead? lead text = none ↔ ¬ lead <+: text := by
  constructor
  · rintro h ⟨rest, rfl⟩
    simp [stripLead?_append] at h
  · intro h
    cases hs : stripLead? lead text with
    | none => rfl
    | some rest => exact absurd ⟨rest, (eq_append_of_stripLead? hs).symm⟩ h

theorem occurs_iff {part text : List Char} : occurs part text = true ↔ part <:+: text := by
  induction text with
  | nil => simp [occurs]
  | cons c cs ih => simp [occurs, ih, List.infix_cons_iff]

end DataGrid.Text
