/-! Blank characters and trimming. Two notions of blank occur: the Unicode property
`White_Space`, which trimming uses, and the five ASCII blanks that delimit keywords.
Trimming removes a run of blanks at either end and nothing else. -/
namespace DataGrid.Text

/-- The characters with the Unicode property `White_Space`. -/
def isBlank (c : Char) : Bool :=
  let n := c.toNat
  (9 ≤ n && n ≤ 13) || n == 0x20 || n == 0x85 || n == 0xA0 || n == 0x1680 ||
    (0x2000 ≤ n && n ≤ 0x200A) || n == 0x2028 || n == 0x2029 || n == 0x202F || n == 0x205F ||
    n == 0x3000

/-- Space, tabulator, line feed, form feed and carriage return. -/
def isAsciiBlank (c : Char) : Bool :=
  c == ' ' || c == '\t' || c == '\n' || c == '\x0c' || c == '\r'

theorem isBlank_of_isAsciiBlank {c : Char} (h : isAsciiBlank c = true) : isBlank c = true := by
  simp only [isAsciiBlank, Bool.or_eq_true, beq_iff_eq] at h
  rcases h with (((rfl | rfl) | rfl) | rfl) | rfl <;> decide

/-- The list without its longest final run of elements that satisfy `p`. -/
def dropEndWhile (p : α → Bool) (xs : List α) : List α :=
  (xs.reverse.dropWhile p).reverse

def trimChars (cs : List Char) : List Char :=
  dropEndWhile isBlank (cs.dropWhile isBlank)

def trim (s : String) : String := String.ofList (trimChars s.toList)

/-- Blank from end to end; the empty text is. -/
def allBlank (s : String) : Bool := s.toList.all isBlank

theorem dropEndWhile_append_of_all {p : α → Bool} (xs : List α) {trail : List α}
    (all : trail.all p = true) : dropEndWhile p (xs ++ trail) = dropEndWhile p xs := by
  have each : ∀ x ∈ trail.reverse, p x = true := by simpa using all
  rw [dropEndWhile, List.reverse_append, List.dropWhile_append_of_pos each]
  rfl

theorem dropEndWhile_append_of_neg {p : α → Bool} (xs : List α) {x : α} (h : p x = false) :
    dropEndWhile p (xs ++ [x]) = xs ++ [x] := by
  simp [dropEndWhile, h]

/-- What trimming the end removes is a run of elements that satisfy `p`. -/
theorem exists_append_dropEndWhile (p : α → Bool) (xs : List α) :
    ∃ run, xs = dropEndWhile p xs ++ run ∧ run.all p = true := by
  refine ⟨(xs.reverse.takeWhile p).reverse, ?_, ?_⟩
  · rw [dropEndWhile, ← List.reverse_append, List.takeWhile_append_dropWhile, List.reverse_reverse]
  · simp only [List.all_reverse, List.all_eq_true]
    intro x hx
    have h := List.all_takeWhile (p := p) (l := xs.reverse)
    exact List.all_eq_true.mp h x hx

end DataGrid.Text
