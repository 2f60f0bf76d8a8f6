import DataGrid.Proofs.Query.Conditions
import DataGrid.Proofs.Query.Meaning
import DataGrid.Proofs.Text.Ascii

/-! Predicates cut and joined. The cuts of a text can be told without the scanner: each is at the
first two bars out of quotes since the cut before. Cutting undoes joining, and joining undoes
cutting up to the blanks around the pieces. A scan of the bytes makes the same cuts. -/
namespace DataGrid.Predicate
open Text Query

variable {quoted : Bool} {c : Char} {cs text piece rest : List Char} {ps : List (List Char)}

/-- A text and its pieces. Out of quotes, bars in a row are paired from the left, so no piece that
another follows ends in a bar. -/
inductive Divides : (quoted : Bool) → (text : List Char) → List (List Char) → Prop
  | whole {quoted : Bool} {text : List Char} (unbarred : ¬ Barred quoted text) :
      Divides quoted text [text]
  | next {quoted : Bool} {piece rest : List Char} {pieces : List (List Char)}
      (unbarred : ¬ Barred quoted piece) (closed : quotedAfter quoted piece = false)
      (early : piece.getLast? ≠ some '|') (others : Divides false rest pieces) :
      Divides quoted (piece ++ '|' :: '|' :: rest) (piece :: pieces)

/-- A character goes to the first piece, unless it is the first of two bars out of quotes. -/
theorem Divides.push (divides : Divides (if c = '\'' then !quoted else quoted) cs ps)
    (alone : quoted = false → c = '|' → cs.head? ≠ some '|') :
    Divides quoted (c :: cs) (pushChar c ps) := by
  cases divides with
  | whole unbarred =>
    refine .whole fun barred => ?_
    rcases barred_cons_iff.mp barred with ⟨outside, bar, next⟩ | barred
    · exact alone outside bar next
    · exact unbarred barred
  | @next _ piece rest pieces unbarred closed early others =>
    refine @Divides.next quoted (c :: piece) rest pieces ?_ ?_ ?_ others
    · intro barred
      rcases barred_cons_iff.mp barred with ⟨outside, bar, next⟩ | barred
      · exact alone outside bar (by rw [List.head?_append, next]; rfl)
      · exact unbarred barred
    · rwa [quotedAfter_cons]
    · cases piece with
      | nil =>
        -- two bars follow, out of quotes, so that a third before them would be the first of a pair
        intro last
        obtain rfl : c = '|' := by simpa using last
        exact alone closed rfl rfl
      | cons d ds => rwa [List.getLast?_cons_cons]

theorem divides_pieces (quoted : Bool) (cs : List Char) : Divides quoted cs (pieces quoted cs) := by
  fun_induction pieces quoted cs with
  | case1 => exact .whole (by simp [Barred])
  | case2 cs ih => exact Divides.push (c := '|') ih (by simp)
  | case3 quoted cs outside ih =>
    rw [Bool.not_eq_true] at outside
    subst outside
    exact @Divides.next _ [] _ _ (by simp [Barred]) rfl (by simp) ih
  | case4 quoted c cs alone ih =>
    refine ih.push fun _ bar next => ?_
    obtain ⟨more, rest⟩ := List.head?_eq_some_iff.mp next
    exact alone more bar rest

theorem Divides.ne_nil (divides : Divides quoted text ps) : ps ≠ [] := by
  cases divides <;> simp

theorem Divides.join (divides : Divides quoted text ps) : "||".toList.intercalate ps = text := by
  induction divides with
  | whole => exact List.intercalate_singleton
  | next _ _ _ others ih =>
    rw [List.intercalate_cons_of_ne_nil others.ne_nil, ih]
    simp

theorem Divides.unbarred (divides : Divides quoted text ps) (outside : quoted = false) :
    ∀ piece ∈ ps, ¬ Barred false piece := by
  induction divides with
  | whole unbarred => simpa [← outside] using unbarred
  | next unbarred _ _ _ ih => exact List.forall_mem_cons.mpr ⟨outside ▸ unbarred, ih rfl⟩

theorem Divides.even (divides : Divides quoted text ps) (outside : quoted = false) :
    ∀ piece ∈ ps.dropLast, piece.count '\'' % 2 = 0 := by
  induction divides with
  | whole => simp
  | next _ closed _ others ih =>
    rw [List.dropLast_cons_of_ne_nil others.ne_nil]
    refine List.forall_mem_cons.mpr ⟨?_, ih rfl⟩
    subst outside
    simpa [quotedAfter] using closed

/-! The blanks around a piece. -/

theorem quotedAfter_blank_append {lead : List Char} (blank : lead.all isBlank = true)
    (cs : List Char) : quotedAfter quoted (lead ++ cs) = quotedAfter quoted cs := by
  rw [quotedAfter, quotedAfter, List.count_append, count_quote_of_blank blank, Nat.zero_add]

theorem Barred.of_trimChars (barred : Barred quoted (trimChars cs)) : Barred quoted cs := by
  obtain ⟨lead, trail, blank, around⟩ := exists_trimChars cs
  rw [List.all_append, Bool.and_eq_true] at blank
  obtain ⟨before, after, split, outside⟩ := barred
  refine ⟨lead ++ before, after ++ trail, ?_, ?_⟩
  · rw [around, split]
    simp
  · rwa [quotedAfter_blank_append blank.1]

/-- No blank at either end. -/
theorem trimChars_eq_self (starts : ∀ c ∈ cs.head?, isBlank c = false)
    (ends : ∀ c ∈ cs.getLast?, isBlank c = false) : trimChars cs = cs := by
  rcases cs.eq_nil_or_concat with rfl | ⟨init, last, rfl⟩
  · rfl
  · rw [List.concat_eq_append] at starts ends ⊢
    have solid : isBlank last = false := ends last (by simp)
    have filled : (init ++ [last]).dropWhile isBlank = init ++ [last] := by
      obtain ⟨first, tail, chars⟩ := List.exists_cons_of_ne_nil (List.concat_ne_nil last init)
      rw [chars] at starts ⊢
      exact List.dropWhile_cons_of_neg (by simp [starts first rfl])
    rw [trimChars, filled, dropEndWhile_append_of_neg init solid]

/-! Bytes. -/

/-- One byte after the other, with a step over the second of two bars. -/
def cutBytes : (quoted skip : Bool) → List UInt8 → List (List UInt8)
  | _, _, [] => [[]]
  | quoted, true, _ :: bs => cutBytes quoted false bs
  | quoted, false, b :: bs =>
    if b = 0x7c ∧ quoted = false ∧ bs.head? = some 0x7c then [] :: cutBytes quoted true bs
    else (cutBytes (if b = 0x27 then !quoted else quoted) false bs).modifyHead (b :: ·)

theorem cutBytes_wide {wide : List UInt8} (high : ∀ b ∈ wide, 128 ≤ b.toNat) (bs : List UInt8) :
    cutBytes quoted false (wide ++ bs) = (cutBytes quoted false bs).modifyHead (wide ++ ·) := by
  induction wide with
  | nil => exact (congrFun List.modifyHead_id _).symm
  | cons b wide ih =>
    obtain ⟨here, high⟩ := List.forall_mem_cons.mp high
    have bar : b ≠ 0x7c := by rintro rfl; simp at here
    have quote : b ≠ 0x27 := by rintro rfl; simp at here
    rw [List.cons_append, cutBytes, if_neg fun h => bar h.1, if_neg quote, ih high,
      List.modifyHead_modifyHead]
    rfl

theorem map_encode_pushChar (some : ps ≠ []) (c : Char) :
    (pushChar c ps).map encode = (ps.map encode).modifyHead (String.utf8EncodeChar c ++ ·) := by
  obtain ⟨p, ps, rfl⟩ := List.exists_cons_of_ne_nil some
  rfl

/-- The bytes are cut between characters, and at the same places. -/
theorem cutBytes_encode (quoted : Bool) (cs : List Char) :
    cutBytes quoted false (encode cs) = (pieces quoted cs).map encode := by
  fun_induction pieces quoted cs with
  | case1 => rfl
  | case2 cs ih =>
    rw [map_encode_pushChar (pieces_ne_nil _ _), ← ih]
    rfl
  | case3 quoted cs outside ih =>
    rw [Bool.not_eq_true] at outside
    subst outside
    rw [List.map_cons, ← ih]
    rfl
  | case4 quoted c cs alone ih =>
    rw [map_encode_pushChar (pieces_ne_nil _ _), ← ih, encode_cons]
    by_cases ascii : c.toNat < 128
    · have bar : UInt8.ofNat c.toNat = 0x7c ↔ c = '|' :=
        ofNat_toNat_eq_iff (d := '|') ascii (by decide)
      have quote : UInt8.ofNat c.toNat = 0x27 ↔ c = '\'' :=
        ofNat_toNat_eq_iff (d := '\'') ascii (by decide)
      have single : ¬ (UInt8.ofNat c.toNat = 0x7c ∧ quoted = false ∧
          (encode cs).head? = some 0x7c) := by
        rintro ⟨here, -, next⟩
        have bar' : cs.head? = some '|' := (head_encode_iff (by decide)).mp next
        obtain ⟨more, rest⟩ := List.head?_eq_some_iff.mp bar'
        exact alone more (bar.mp here) rest
      rw [utf8EncodeChar_ascii ascii, List.singleton_append, cutBytes, if_neg single,
        if_congr quote rfl rfl]
      rfl
    · have other : c ≠ '\'' := by
        rintro rfl
        exact ascii (by decide)
      rw [cutBytes_wide fun b mem => le_of_mem_utf8EncodeChar ascii mem, if_neg other]

/-! Cutting and joining. -/

/-- A text that can stand between two bars: no blank at its ends, no quote left open, and no two
bars out of quotes. -/
structure Closed (s : String) : Prop where
  starts : ∀ c ∈ s.toList.head?, isBlank c = false
  ends : ∀ c ∈ s.toList.getLast?, isBlank c = false
  even : s.toList.count '\'' % 2 = 0
  unbarred : ¬ Barred false s.toList

theorem closed_iff {s : String} : Closed s ↔
    s.toList.head?.all (!isBlank ·) = true ∧ s.toList.getLast?.all (!isBlank ·) = true ∧
      s.toList.count '\'' % 2 = 0 ∧ ¬ Barred false s.toList := by
  simp only [Option.all_eq_true, Bool.not_eq_true']
  constructor
  · rintro ⟨starts, ends, even, unbarred⟩
    exact ⟨starts, ends, even, unbarred⟩
  · rintro ⟨starts, ends, even, unbarred⟩
    exact ⟨starts, ends, even, unbarred⟩

instance (s : String) : Decidable (Closed s) := decidable_of_iff _ closed_iff.symm

theorem Closed.single {s : String} (closed : Closed s) : Single s.toList :=
  ⟨trimChars_eq_self closed.starts closed.ends, closed.even, uncut_iff.mpr closed.unbarred⟩

/-- The text is the piece with blanks around it. -/
def Around (piece text : String) : Prop :=
  ∃ lead trail : List Char, (lead ++ trail).all isBlank = true ∧
    text.toList = lead ++ piece.toList ++ trail

/-- Texts of that form are cut apart again once they are joined. Any text is cut into pieces that,
with their blanks put back, join to it; no piece has bars out of its own quotes, and none but the
last leaves a quote open. The cuts are those of a scan of the bytes. -/
theorem alternatives_cut_and_join :
    (∀ texts : List String, texts ≠ [] → (∀ s ∈ texts, Closed s) →
      alternatives (" || ".intercalate texts) = texts) ∧
    ∀ p : String,
      (∀ a ∈ alternatives p, ¬ Barred false a.toList) ∧
      (∀ a ∈ (alternatives p).dropLast, a.toList.count '\'' % 2 = 0) ∧
      ∃ texts : List String, "||".intercalate texts = p ∧
        List.Forall₂ Around (alternatives p) texts ∧
        cutBytes false false (bytes p) = texts.map bytes := by
  constructor
  · intro texts some closed
    exact alternatives_join some fun s mem => (closed s mem).single
  · intro p
    have divides := divides_pieces false p.toList
    refine ⟨?_, ?_, (pieces false p.toList).map String.ofList, ?_, ?_, ?_⟩
    · intro a mem
      obtain ⟨piece, cut, rfl⟩ := List.mem_map.mp mem
      rw [String.toList_ofList]
      exact fun barred => divides.unbarred rfl piece cut barred.of_trimChars
    · rw [alternatives, ← List.map_dropLast]
      intro a mem
      obtain ⟨piece, cut, rfl⟩ := List.mem_map.mp mem
      rw [String.toList_ofList, count_trimChars]
      exact divides.even rfl piece cut
    · rw [← String.toList_inj, String.toList_intercalate, List.map_map]
      simpa using divides.join
    · rw [alternatives, List.forall₂_map_left_iff, List.forall₂_map_right_iff, List.forall₂_same]
      intro piece _
      obtain ⟨lead, trail, blank, around⟩ := exists_trimChars piece
      exact ⟨lead, trail, blank, by simpa using around⟩
    · rw [bytes_eq_encode, cutBytes_encode, List.map_map]
      simp [bytes_eq_encode]

/-- Single bars at the ends of the texts, bars and blanks within quotes, an empty text and wide
characters; then three bars in a row and a quote that stays open. -/
theorem alternatives_of_bars :
    let texts := ["= 'a||b'|", "", "|é '| | ||'", "'\u3000'"]
    alternatives (" || ".intercalate texts) = texts ∧
      alternatives "\t'||'||| é||'||" = ["'||'", "| é", "'||"] ∧
      ∃ texts : List String, "||".intercalate texts = "\t'||'||| é||'||" ∧
        List.Forall₂ Around ["'||'", "| é", "'||"] texts := by
  have cut : alternatives "\t'||'||| é||'||" = ["'||'", "| é", "'||"] := by decide
  refine ⟨alternatives_cut_and_join.1 _ (by decide) ?_, cut, ?_⟩
  · simp only [List.forall_mem_cons]
    exact ⟨by decide, by decide, by decide, by decide, by simp⟩
  · obtain ⟨-, -, texts, join, around, -⟩ := alternatives_cut_and_join.2 "\t'||'||| é||'||"
    rw [cut] at around
    exact ⟨texts, join, around⟩

end DataGrid.Predicate
