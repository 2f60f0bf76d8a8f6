import DataGrid.Proofs.Json.Reading
import DataGrid.Json.Decode

/-! What the readers of fields make of values written by their counterparts. -/
namespace DataGrid.Json
open Text

variable {α : Type} {fields : Fields} {names : List String} {name tag : String}

theorem keyed?_record (fields : Fields) :
    keyed? (fields.map fun m => (some m.1, m.2)) = some fields := by
  induction fields with
  | nil => rfl
  | cons m fields ih => simp [keyed?, ih]

theorem length_filter_of_nodup (once : (fields.map Prod.fst).Nodup) (name : String) :
    (fields.filter fun m => m.1 == name).length ≤ 1 := by
  have count := List.nodup_iff_count.mp once name
  rw [← List.countP_eq_length_filter]
  rwa [List.count, List.countP_map] at count

theorem eachOnce_of_nodup (once : (fields.map Prod.fst).Nodup) (names : List String) :
    eachOnce names fields = true :=
  List.all_eq_true.mpr fun name _ => decide_eq_true (length_filter_of_nodup once name)

theorem fields?_record (once : (fields.map Prod.fst).Nodup) (names : List String) :
    (record fields).fields? names = some fields := by
  simp [fields?, record, keyed?_record, eachOnce_of_nodup once]

@[simp] theorem required_head (name : String) (j : Json) (fields : Fields)
    (f : Json → Option α) : Fields.required ((name, j) :: fields) name f = f j := by
  simp [Fields.required]

@[simp] theorem required_tail {key : String} (other : name ≠ key) (j : Json) (fields : Fields)
    (f : Json → Option α) :
    Fields.required ((key, j) :: fields) name f = Fields.required fields name f := by
  simp [Fields.required, List.lookup_cons, beq_false_of_ne other]

@[simp] theorem withDefault_head (name : String) (j : Json) (fields : Fields) (default : α)
    (f : Json → Option α) : Fields.withDefault ((name, j) :: fields) name default f = f j := by
  simp [Fields.withDefault]

@[simp] theorem withDefault_tail {key : String} (other : name ≠ key) (j : Json) (fields : Fields)
    (default : α) (f : Json → Option α) :
    Fields.withDefault ((key, j) :: fields) name default f =
      Fields.withDefault fields name default f := by
  simp [Fields.withDefault, List.lookup_cons, beq_false_of_ne other]

/-! Numbers of a fixed width. -/

theorem contains_of_bounds {range : IntRange} {n : Int} (least : range.least ≤ n)
    (greatest : n ≤ range.greatest) : range.contains n = true :=
  (Bool.and_eq_true _ _).mpr ⟨decide_eq_true least, decide_eq_true greatest⟩

@[simp] theorem text?_text (s : String) : (text s).text? = some s := rfl

@[simp] theorem bool?_bool (b : Bool) : (Json.bool b).bool? = some b := rfl

@[simp] theorem plain_ofInt32 (n : Int32) : (ofInt32 n).plain = true := rfl

@[simp] theorem plain_ofInt64 (n : Int64) : (ofInt64 n).plain = true := rfl

@[simp] theorem plain_ofUInt64 (n : UInt64) : (ofUInt64 n).plain = true := rfl

@[simp] theorem int32?_ofInt32 (n : Int32) : (ofInt32 n).int32? = some n := by
  have inside : int32Range.contains n.toInt = true :=
    contains_of_bounds n.le_toInt n.toInt_le
  simp [int32?, ofInt32, integerIn?, inside]

@[simp] theorem int64?_ofInt64 (n : Int64) : (ofInt64 n).int64? = some n := by
  have inside : int64Range.contains n.toInt = true :=
    contains_of_bounds n.le_toInt n.toInt_le
  simp [int64?, ofInt64, integerIn?, inside]

@[simp] theorem uint64?_ofUInt64 (n : UInt64) : (ofUInt64 n).uint64? = some n := by
  have small := n.toNat_lt
  have inside : uint64Range.contains n.toNat = true :=
    contains_of_bounds (Int.natCast_nonneg _) (Int.le_sub_one_of_lt (Int.ofNat_lt.mpr small))
  simp [uint64?, ofUInt64, integerIn?, inside]

/-! Lists, absent values and names. -/

theorem list?_map {f : Json → Option α} {g : α → Json} {as : List α}
    (back : ∀ a ∈ as, f (g a) = some a) : list? f (.array (as.map g)) = some as := by
  change (as.map g).mapM f = some as
  induction as with
  | nil => rfl
  | cons a as ih =>
    have rest := ih fun b mem => back b (List.mem_cons_of_mem a mem)
    rw [List.map_cons, List.mapM_cons, back a List.mem_cons_self, rest]
    rfl

@[simp] theorem plain_optional_text (s : Option String) :
    (optional text s).plain = true := by
  cases s <;> rfl

@[simp] theorem optional?_text (s : Option String) :
    optional? text? (.optional .text s) = some s := by
  cases s <;> rfl

/-! Whole numbers of 64 bits are within the range of doubles. -/

theorem le_ofDigitChars (ds : List Char) (n : Nat) : n ≤ Nat.ofDigitChars 10 ds n := by
  induction ds generalizing n with
  | nil => exact Nat.le_refl n
  | cons d ds ih =>
    rw [Nat.ofDigitChars_cons]
    exact Nat.le_trans (by omega) (ih _)

/-- As long as the numeral fits, no digit is left out. -/
theorem foldl_pushWhole {ds : List Char} {n : Nat} (fits : Nat.ofDigitChars 10 ds n < UInt64.size) :
    ds.foldl Significand.pushWhole ⟨n, 0, false⟩ = ⟨Nat.ofDigitChars 10 ds n, 0, false⟩ := by
  induction ds generalizing n with
  | nil => rfl
  | cons d ds ih =>
    have next : n * 10 + (d.toNat - 48) = 10 * n + (d.toNat - '0'.toNat) := by
      rw [Nat.mul_comm]
      rfl
    rw [Nat.ofDigitChars_cons] at fits ⊢
    have small : ¬ 10 * n + (d.toNat - '0'.toNat) ≥ UInt64.size :=
      Nat.not_le.mpr (Nat.lt_of_le_of_lt (le_ofDigitChars ds _) fits)
    have pushed : Significand.pushWhole ⟨n, 0, false⟩ d =
        ⟨10 * n + (d.toNat - '0'.toNat), 0, false⟩ := by
      simp only [Significand.pushWhole, next, small, decide_false, Bool.or_false,
        Bool.false_eq_true, if_false]
    rw [List.foldl_cons, pushed, ih fits]

theorem round53_le {n : Nat} (positive : n ≠ 0) : round53 n ≤ n + n := by
  let unit := Nat.pow 2 (n.log2 + 1 - 53)
  have small : unit ≤ n :=
    Nat.le_trans (Nat.pow_le_pow_right (by decide) (by omega)) (Nat.log2_self_le positive)
  have low : n / unit * unit ≤ n := Nat.div_mul_le_self n unit
  have rounded : round53 n ≤ n / unit * unit + unit := by
    simp only [round53]
    split
    · exact Nat.le_of_eq (Nat.succ_mul _ _)
    · exact Nat.le_add_right _ _
  omega

theorem finite_of_lt {n : Nat} (small : n < UInt64.size) : finite n 0 = true := by
  unfold finite
  by_cases positive : n = 0
  · rw [if_pos positive]
  · have one : round53 (Nat.pow 10 0) = 1 := by decide
    have big : UInt64.size + UInt64.size < Nat.pow 2 1024 - Nat.pow 2 970 := by decide +kernel
    have le := round53_le positive
    have bound : round53 n * round53 (Nat.pow 10 0) < Nat.pow 2 1024 - Nat.pow 2 970 := by
      rw [one, Nat.mul_one]
      exact Nat.lt_trans (Nat.lt_of_le_of_lt le (Nat.add_lt_add small small)) big
    rw [if_neg positive, if_neg (by decide), if_neg (by decide)]
    exact decide_eq_true bound

theorem integerInRange_of_lt {n : Int} (small : n.natAbs < UInt64.size) :
    integerInRange n = true := by
  have digits : Nat.ofDigitChars 10 (toString n.natAbs).toList 0 = n.natAbs := by
    change Nat.ofDigitChars 10 n.natAbs.repr.toList 0 = n.natAbs
    rw [Nat.toList_repr, Nat.ofDigitChars_toDigits (by decide) (by decide)]
  have read : (toString n.natAbs).toList.foldl Significand.pushWhole ⟨0, 0, false⟩ =
      ⟨n.natAbs, 0, false⟩ := by
    rw [foldl_pushWhole (by rwa [digits]), digits]
  simp only [integerInRange, Decimal.inRange, read, List.foldl_nil]
  exact finite_of_lt small

/-! Tagged objects. -/

/-- A value that holds no others and that can be used. -/
structure Flat (j : Json) : Prop where
  depth : j.depth = 0
  sound : j.sound = true

@[simp] theorem flat_text (s : String) : Flat (text s) := ⟨rfl, rfl⟩

@[simp] theorem flat_bool (b : Bool) : Flat (.bool b) := ⟨rfl, rfl⟩

@[simp] theorem flat_ofInt32 (n : Int32) : Flat (ofInt32 n) := by
  have least := n.le_toInt
  have greatest := n.toInt_lt
  refine ⟨rfl, integerInRange_of_lt ?_⟩
  change n.toInt.natAbs < 2 ^ 64
  omega

@[simp] theorem flat_ofUInt64 (n : UInt64) : Flat (ofUInt64 n) :=
  ⟨rfl, integerInRange_of_lt n.toNat_lt⟩

theorem flat_members (flat : ∀ m ∈ fields, Flat m.2) :
    (record fields).sound = true ∧ (record fields).depth = 1 := by
  suffices h : soundMembers (fields.map fun m => (some m.1, m.2)) = true ∧
      membersDepth (fields.map fun m => (some m.1, m.2)) = 0 from
    ⟨h.1, congrArg (· + 1) h.2⟩
  induction fields with
  | nil => exact ⟨rfl, rfl⟩
  | cons m fields ih =>
    have first := flat m List.mem_cons_self
    have rest := ih fun other mem => flat other (List.mem_cons_of_mem m mem)
    simp [soundMembers, membersDepth, first.sound, first.depth, rest]

/-- The name of the alternative and the other members. -/
theorem tagged?_record {level : Nat} {name : String} {rest : Fields}
    (once : (((tag, .text name) :: rest).map Prod.fst).Nodup) (flat : ∀ m ∈ rest, Flat m.2)
    (shallow : level < depthLimit) :
    (record ((tag, .text name) :: rest)).tagged? level tag = some (name, rest) := by
  have all : ∀ m ∈ (tag, text name) :: rest, Flat m.2 :=
    List.forall_mem_cons.mpr ⟨flat_text name, flat⟩
  obtain ⟨sound, depth⟩ := flat_members all
  have within : level + 1 ≤ depthLimit := shallow
  have kept : rest.filter (fun m => m.1 != tag) = rest := by
    rw [List.filter_eq_self]
    intro m mem
    have other := (List.nodup_cons.mp once).1
    simp only [bne_iff_ne, ne_eq]
    exact fun same => other (List.mem_map.mpr ⟨m, mem, same⟩)
  have keyed := keyed?_record ((tag, .text name) :: rest)
  have given : Fields.required ((tag, .text name) :: rest) tag text? = some name := by simp
  simp only [record] at sound depth ⊢
  simp only [tagged?, sound, depth, within, decide_true, Bool.and_true, if_true, keyed,
    eachOnce_of_nodup once, given, Option.map_some]
  simp [kept]

end DataGrid.Json
