import DataGrid.Proofs.Text.ByteOrder
import DataGrid.Text.Blank
import DataGrid.Text.Letters

/-! ASCII in the bytes of a text. A byte below 128 is a character of its own and occurs in no other
character, so bytes that are cut before such a byte are cut between two characters. -/
namespace DataGrid.Text

/-- The bytes of characters in a row. -/
def encode (cs : List Char) : List UInt8 := cs.flatMap String.utf8EncodeChar

variable {c : Char} {cs : List Char} {b : UInt8} {x y : List UInt8}

@[simp] theorem encode_nil : encode [] = [] := rfl

@[simp] theorem encode_cons (c : Char) (cs : List Char) :
    encode (c :: cs) = String.utf8EncodeChar c ++ encode cs := rfl

theorem encode_ne_nil (some : cs ≠ []) : encode cs ≠ [] := by
  obtain ⟨c, cs, rfl⟩ := List.exists_cons_of_ne_nil some
  simp [String.utf8EncodeChar_ne_nil]

@[simp] theorem encode_append (as bs : List Char) : encode (as ++ bs) = encode as ++ encode bs :=
  List.flatMap_append

theorem bytes_eq_encode (s : String) : bytes s = encode s.toList := bytes_eq s

theorem ascii_of_all (all : cs.all (fun c => c.toNat < 128) = true) : ∀ c ∈ cs, c.toNat < 128 := by
  simpa using all

/-- What holds of the first 128 characters one by one holds of every ASCII character. -/
theorem forall_ascii {P : Char → Prop} (each : ∀ n < 128, P (Char.ofNat n)) (ascii : c.toNat < 128) :
    P c := by
  have := each c.toNat ascii
  rwa [Char.ofNat_toNat] at this

theorem utf8EncodeChar_ascii (ascii : c.toNat < 128) :
    String.utf8EncodeChar c = [UInt8.ofNat c.toNat] := by
  have small : c.val.toNat ≤ 127 := Nat.le_of_lt_succ ascii
  rw [String.utf8EncodeChar, if_pos small]
  rfl

theorem ofNat_toNat_eq_iff {d : Char} (ascii : c.toNat < 128) (ascii' : d.toNat < 128) :
    UInt8.ofNat c.toNat = UInt8.ofNat d.toNat ↔ c = d := by
  rw [← UInt8.toNat_inj, toNat_ofNat_of_lt (by omega), toNat_ofNat_of_lt (by omega)]
  exact Char.toNat_inj

theorem le_of_mem_utf8EncodeChar (wide : ¬ c.toNat < 128) (mem : b ∈ String.utf8EncodeChar c) :
    128 ≤ b.toNat := by
  have bounded : c.val.toNat < 0x110000 := by rcases c.valid with h | h <;> omega
  have large : ¬ c.val.toNat ≤ 127 := fun small => wide (Nat.lt_succ_of_le small)
  simp only [String.utf8EncodeChar, large, if_false] at mem
  split_ifs at mem <;> simp only [List.mem_cons, List.not_mem_nil, or_false] at mem <;>
    rcases mem with rfl | rfl | rfl | rfl <;> rw [toNat_ofNat_of_lt (by omega)] <;> omega

/-- A text begins with an ASCII character if its bytes begin with the one byte of it. -/
theorem head_encode_iff {d : Char} (ascii : d.toNat < 128) :
    (encode cs).head? = some (UInt8.ofNat d.toNat) ↔ cs.head? = some d := by
  cases cs with
  | nil => simp
  | cons c cs =>
    rw [encode_cons, List.head?_cons, Option.some.injEq]
    by_cases small : c.toNat < 128
    · rw [utf8EncodeChar_ascii small, List.singleton_append, List.head?_cons, Option.some.injEq]
      exact ofNat_toNat_eq_iff small ascii
    · constructor
      · intro first
        rw [List.head?_append_of_ne_nil _ String.utf8EncodeChar_ne_nil] at first
        have := le_of_mem_utf8EncodeChar small (List.mem_of_mem_head? first)
        rw [toNat_ofNat_of_lt (by omega)] at this
        omega
      · rintro rfl
        exact absurd ascii small

/-- Bytes that are cut where nothing or an ASCII byte follows are cut between characters. -/
theorem exists_of_encode_eq_append (split : encode cs = x ++ y)
    (ascii : ∀ b ∈ y.head?, b.toNat < 128) :
    ∃ before after, cs = before ++ after ∧ encode before = x ∧ encode after = y := by
  induction cs generalizing x with
  | nil =>
    obtain ⟨rfl, rfl⟩ := List.append_eq_nil_iff.mp split.symm
    exact ⟨[], [], rfl, rfl, rfl⟩
  | cons c cs ih =>
    rw [encode_cons] at split
    rcases List.append_eq_append_iff.mp split with ⟨gap, rfl, rest⟩ | ⟨gap, within, rfl⟩
    · obtain ⟨before, after, rfl, rfl, rfl⟩ := ih rest
      exact ⟨c :: before, after, rfl, rfl, rfl⟩
    · cases x with
      | nil => exact ⟨[], c :: cs, rfl, rfl, by rw [encode_cons, within]; rfl⟩
      | cons d x =>
        cases gap with
        | nil =>
          refine ⟨[c], cs, rfl, ?_, rfl⟩
          rw [encode_cons, within]
          simp
        | cons e gap =>
          -- the cut would be within a character, which has no ASCII byte then
          have low := ascii e rfl
          by_cases small : c.toNat < 128
          · rw [utf8EncodeChar_ascii small] at within
            simp at within
          · have := le_of_mem_utf8EncodeChar small (b := e) (by rw [within]; simp)
            omega

/-! What can be told of a text from its bytes. -/

def isBlankByte (b : UInt8) : Bool :=
  b == 0x20 || b == 0x09 || b == 0x0a || b == 0x0c || b == 0x0d

def lowerByte (b : UInt8) : UInt8 := if 0x41 ≤ b ∧ b ≤ 0x5a then b + 0x20 else b

theorem toNat_lt_of_isBlankByte (blank : isBlankByte b = true) : b.toNat < 128 := by
  simp only [isBlankByte, Bool.or_eq_true, beq_iff_eq] at blank
  rcases blank with (((rfl | rfl) | rfl) | rfl) | rfl <;> decide

theorem toNat_lt_of_isAsciiBlank (blank : isAsciiBlank c = true) : c.toNat < 128 := by
  simp only [isAsciiBlank, Bool.or_eq_true, beq_iff_eq] at blank
  rcases blank with (((rfl | rfl) | rfl) | rfl) | rfl <;> decide

theorem toNat_lt_of_lowerByte (lower : (lowerByte b).toNat < 128) : b.toNat < 128 := by
  rw [lowerByte] at lower
  split at lower
  · next capital =>
    have : b.toNat ≤ 0x5a := UInt8.le_iff_toNat_le.mp capital.2
    omega
  · exact lower

theorem count_quote_utf8EncodeChar (c : Char) :
    (String.utf8EncodeChar c).count 0x27 = if c == '\'' then 1 else 0 := by
  by_cases small : c.toNat < 128
  · rw [utf8EncodeChar_ascii small]
    exact forall_ascii (P := fun c => [UInt8.ofNat c.toNat].count 0x27 = if c == '\'' then 1 else 0)
      (by decide) small
  · have other : c ≠ '\'' := by
      rintro rfl
      exact small (by decide)
    rw [if_neg (by simpa using other), List.count_eq_zero]
    intro mem
    have := le_of_mem_utf8EncodeChar small mem
    simp at this

theorem count_quote_encode (cs : List Char) : (encode cs).count 0x27 = cs.count '\'' := by
  induction cs with
  | nil => rfl
  | cons c cs ih =>
    rw [encode_cons, List.count_append, List.count_cons, ih, count_quote_utf8EncodeChar,
      Nat.add_comm]

/-- A character is blank if one of its bytes is, the first or the last. -/
theorem isBlankByte_iff (mem : b ∈ String.utf8EncodeChar c) :
    isBlankByte b = true ↔ isAsciiBlank c = true := by
  by_cases small : c.toNat < 128
  · rw [utf8EncodeChar_ascii small, List.mem_singleton] at mem
    subst mem
    exact forall_ascii
      (P := fun c => isBlankByte (UInt8.ofNat c.toNat) = true ↔ isAsciiBlank c = true)
      (by decide) small
  · constructor
    · intro blank
      have := le_of_mem_utf8EncodeChar small mem
      have := toNat_lt_of_isBlankByte blank
      omega
    · exact fun blank => absurd (toNat_lt_of_isAsciiBlank blank) small

theorem blank_head_encode_iff (cs : List Char) :
    (∀ b ∈ (encode cs).head?, isBlankByte b = true) ↔ ∀ c ∈ cs.head?, isAsciiBlank c = true := by
  cases cs with
  | nil => simp
  | cons c cs =>
    obtain ⟨b, bs, spelled⟩ := List.exists_cons_of_ne_nil (@String.utf8EncodeChar_ne_nil c)
    simpa [spelled] using isBlankByte_iff (c := c) (b := b) (by simp [spelled])

theorem blank_getLast_encode_iff (cs : List Char) :
    (∀ b ∈ (encode cs).getLast?, isBlankByte b = true) ↔
      ∀ c ∈ cs.getLast?, isAsciiBlank c = true := by
  rcases List.eq_nil_or_concat cs with rfl | ⟨init, c, rfl⟩
  · simp
  · obtain ⟨bs, b, spelled⟩ :=
      (List.eq_nil_or_concat _).resolve_left (@String.utf8EncodeChar_ne_nil c)
    rw [List.concat_eq_append] at spelled
    simpa [spelled, ← List.append_assoc] using isBlankByte_iff (c := c) (b := b) (by simp [spelled])

/-- Case is told from the bytes. -/
theorem map_lowerByte_encode (ascii : ∀ c ∈ cs, c.toNat < 128) :
    (encode cs).map lowerByte = (cs.map Char.toLower).map fun c => UInt8.ofNat c.toNat := by
  induction cs with
  | nil => rfl
  | cons c cs ih =>
    obtain ⟨small, ascii⟩ := List.forall_mem_cons.mp ascii
    have lower : [UInt8.ofNat c.toNat].map lowerByte = [UInt8.ofNat c.toLower.toNat] :=
      forall_ascii
        (P := fun c => [UInt8.ofNat c.toNat].map lowerByte = [UInt8.ofNat c.toLower.toNat])
        (by decide) small
    rw [encode_cons, utf8EncodeChar_ascii small, List.map_append, ih ascii, lower]
    rfl

theorem toNat_lt_of_toLower (small : c.toLower.toNat < 128) : c.toNat < 128 := by
  delta Char.toLower at small
  split at small
  · next capital =>
    have : c.val.toNat ≤ 90 := UInt32.le_iff_toNat_le.mp capital.2
    exact Nat.lt_of_le_of_lt this (by decide)
  · exact small

theorem toLower_toNat_lt (small : c.toNat < 128) : c.toLower.toNat < 128 :=
  forall_ascii (P := fun c => c.toLower.toNat < 128) (by decide) small

theorem forall_ascii_of_encode (low : ∀ b ∈ encode cs, b.toNat < 128) : ∀ c ∈ cs, c.toNat < 128 := by
  intro c mem
  by_contra wide
  obtain ⟨b, bs, spelled⟩ := List.exists_cons_of_ne_nil (@String.utf8EncodeChar_ne_nil c)
  have first : b ∈ String.utf8EncodeChar c := by simp [spelled]
  have := low b (List.mem_flatMap.mpr ⟨c, mem, first⟩)
  have := le_of_mem_utf8EncodeChar wide first
  omega

theorem map_ofNat_map_toNat (ascii : ∀ c ∈ cs, c.toNat < 128) :
    (cs.map fun c => UInt8.ofNat c.toNat).map (fun b => Char.ofNat b.toNat) = cs := by
  rw [List.map_map]
  refine (List.map_congr_left fun c mem => ?_).trans (List.map_id cs)
  have small := ascii c mem
  rw [Function.comp_apply, toNat_ofNat_of_lt (by omega), Char.ofNat_toNat, id]

theorem forall_ascii_map_toLower (ascii : ∀ c ∈ cs, c.toNat < 128) :
    ∀ c ∈ cs.map Char.toLower, c.toNat < 128 := by
  simpa using fun c mem => toLower_toNat_lt (ascii c mem)

/-- A byte of an ASCII word, in whatever case, is ASCII. -/
theorem toNat_lt_of_mem_encode (ascii : ∀ c ∈ cs, c.toNat < 128)
    (mem : lowerByte b ∈ (encode cs).map lowerByte) : b.toNat < 128 := by
  rw [map_lowerByte_encode ascii] at mem
  obtain ⟨c, inWord, spelled⟩ := List.mem_map.mp mem
  have small := forall_ascii_map_toLower ascii c inWord
  apply toNat_lt_of_lowerByte
  rw [← spelled, toNat_ofNat_of_lt (by omega)]
  exact small

/-- Whether a text spells an ASCII word can be told from its bytes. -/
theorem map_lowerByte_eq_iff {word written : List Char} (ascii : ∀ c ∈ word, c.toNat < 128) :
    (encode written).map lowerByte = (encode word).map lowerByte ↔
      sameLetters word written = true := by
  rw [sameLetters, beq_iff_eq]
  constructor
  · intro same
    have ascii' : ∀ c ∈ written, c.toNat < 128 := forall_ascii_of_encode fun b mem =>
      toNat_lt_of_mem_encode ascii (same ▸ List.mem_map_of_mem mem)
    rw [map_lowerByte_encode ascii, map_lowerByte_encode ascii'] at same
    rw [← map_ofNat_map_toNat (forall_ascii_map_toLower ascii), ← same,
      map_ofNat_map_toNat (forall_ascii_map_toLower ascii')]
  · intro same
    have ascii' : ∀ c ∈ written, c.toNat < 128 := fun c mem =>
      toNat_lt_of_toLower (forall_ascii_map_toLower ascii _ (same ▸ List.mem_map_of_mem mem))
    rw [map_lowerByte_encode ascii, map_lowerByte_encode ascii', same]

end DataGrid.Text
