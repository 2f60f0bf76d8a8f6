import DataGrid.Proofs.Query.Scanning
import DataGrid.Remote

/-! The line of a command and the words that a shell reads in it. Between its quotes a path is read
as it stands, blanks and all, unless it has a quote of its own: then the words are not the
arguments. What stands between the two paths of a link may then stand in one of them as well, and
the line is that of another link. -/
namespace DataGrid

/-! Words by the quoting of the POSIX shell. Nothing is expanded. -/
namespace Shell
open Query

/-- Where a reader is: between words, in a word, in single or double quotes, or after a backslash
in one of the places where it quotes. -/
inductive Place where
  | gap
  | word
  | single
  | double
  | gapEscape
  | wordEscape
  | doubleEscape
  deriving Repr, DecidableEq

def isBlank (c : Char) : Bool := c == ' ' || c == '\t' || c == '\n'

/-- Within double quotes a backslash stands for itself, unless it quotes one of these. -/
def isSpecial (c : Char) : Bool := c == '$' || c == '\x60' || c == '"' || c == '\\'

/-- The place after a character out of quotes, and what it adds to a word. -/
def stepOut (escape : Place) (c : Char) : Place × List Char :=
  if isBlank c then (.gap, [])
  else if c = '\'' then (.single, [])
  else if c = '"' then (.double, [])
  else if c = '\\' then (escape, [])
  else (.word, [c])

def step : Place → Char → Place × List Char
  | .gap, c => stepOut .gapEscape c
  | .word, c => stepOut .wordEscape c
  | .single, c => if c = '\'' then (.word, []) else (.single, [c])
  | .double, c =>
    if c = '"' then (.word, []) else if c = '\\' then (.doubleEscape, []) else (.double, [c])
  | .gapEscape, c => if c = '\n' then (.gap, []) else (.word, [c])
  | .wordEscape, c => (.word, if c = '\n' then [] else [c])
  | .doubleEscape, c =>
    (.double, if c = '\n' then [] else if isSpecial c then [c] else ['\\', c])

/-- Puts characters in front of the words that follow: in front of the first of them, unless they
end a word. -/
def extend (ends : Bool) (text : List Char) (words : List (List Char)) : List (List Char) :=
  if ends then text :: words else pushChars text words

/-- What is still to be read at the end of the text. -/
def Place.atEnd : Place → Option (List (List Char))
  | .gap => some []
  | .word => some [[]]
  | _ => none

/-- The words from a place on, the first of them the rest of one that has begun. There are none if a
quote stays open or a last backslash has nothing to quote. -/
def readWords : Place → List Char → Option (List (List Char))
  | place, [] => place.atEnd
  | place, c :: cs =>
    (readWords (step place c).1 cs).map
      (extend (place == .word && (step place c).1 == .gap) (step place c).2)

def words? (line : String) : Option (List String) :=
  (readWords .gap line.toList).map fun words => words.map String.ofList

variable {place : Place} {c : Char} {cs : List Char} {words : List (List Char)}

/-! What is read as it stands. -/

/-- Neither a blank nor a sign that quotes. -/
def isPlain (c : Char) : Bool := !isBlank c && c != '\'' && c != '"' && c != '\\'

theorem stepOut_plain (plain : isPlain c = true) (escape : Place) :
    stepOut escape c = (.word, [c]) := by
  simp only [isPlain, Bool.and_eq_true, Bool.not_eq_true', bne_iff_ne] at plain
  obtain ⟨⟨⟨solid, quote⟩, quote'⟩, slash⟩ := plain
  rw [stepOut, if_neg (by simp [solid]), if_neg quote, if_neg quote', if_neg slash]

theorem readWords_word_plain (plain : cs.all isPlain = true) (rest : List Char) :
    readWords .word (cs ++ ' ' :: rest) = (readWords .gap rest).map (cs :: ·) := by
  induction cs with
  | nil => rfl
  | cons c cs ih =>
    rw [List.all_cons, Bool.and_eq_true] at plain
    obtain ⟨here, later⟩ := plain
    rw [List.cons_append, readWords, step, stepOut_plain here, ih later, Option.map_map]
    rfl

theorem readWords_plain (plain : cs.all isPlain = true) (some : cs ≠ []) (rest : List Char) :
    readWords .gap (cs ++ ' ' :: rest) = (readWords .gap rest).map (cs :: ·) := by
  obtain ⟨c, cs, rfl⟩ := List.exists_cons_of_ne_nil some
  rw [List.all_cons, Bool.and_eq_true] at plain
  obtain ⟨here, later⟩ := plain
  rw [List.cons_append, readWords, step, stepOut_plain here, readWords_word_plain later,
    Option.map_map]
  rfl

/-- Between single quotes every character is. -/
theorem readWords_single (quoteless : '\'' ∉ cs) (rest : List Char) :
    readWords .single (cs ++ '\'' :: rest) = (readWords .word rest).map (pushChars cs) := by
  induction cs with
  | nil => rfl
  | cons c cs ih =>
    obtain ⟨differs, quoteless⟩ := not_or.mp (mt List.mem_cons.mpr quoteless)
    rw [List.cons_append, readWords, step, if_neg (Ne.symm differs), ih quoteless,
      Option.map_map]
    rfl

/-! A quote is in a word only if a backslash or a double quote has been read away before it. -/

def isMark (c : Char) : Bool := c == '\\' || c == '"'

/-- What has been read but not added so far: within double quotes a backslash may turn out to stand
for itself. -/
def Place.owed : Place → List Char
  | .doubleEscape => ['\\']
  | _ => []

/-- Neither within double quotes nor after a backslash: here a quote begins or ends a quotation. -/
def Place.literal : Place → Bool
  | .gap | .word | .single => true
  | _ => false

theorem owed_of_literal (literal : place.literal = true) : place.owed = [] := by
  cases place with
  | doubleEscape => contradiction
  | _ => rfl

theorem stepOut_literal {escape : Place} (settled : escape.owed = []) (c : Char) :
    isMark c = true ∧ (stepOut escape c).2 = [] ∧ (stepOut escape c).1.owed = [] ∨
      (stepOut escape c).1.literal = true ∧ '\'' ∉ (stepOut escape c).2 ∧
        (stepOut escape c).2.Sublist [c] := by
  unfold stepOut
  split
  · exact .inr ⟨rfl, by simp, by simp⟩
  · split
    · exact .inr ⟨rfl, by simp, by simp⟩
    · next differs =>
      split
      · next quote => exact .inl ⟨by rw [quote]; rfl, rfl, rfl⟩
      · split
        · next slash => exact .inl ⟨by rw [slash]; rfl, rfl, settled⟩
        · exact .inr ⟨rfl, by simpa [eq_comm] using differs, List.Sublist.refl _⟩

/-- A step from such a place reads a mark away, or it leads to such a place and adds no quote. -/
theorem step_literal (literal : place.literal = true) (c : Char) :
    isMark c = true ∧ (step place c).2 = [] ∧ (step place c).1.owed = [] ∨
      (step place c).1.literal = true ∧ '\'' ∉ (step place c).2 ∧ (step place c).2.Sublist [c] := by
  cases place with
  | gap => exact stepOut_literal rfl c
  | word => exact stepOut_literal rfl c
  | single =>
    simp only [step]
    split
    · exact .inr ⟨rfl, by simp, by simp⟩
    · next differs => exact .inr ⟨rfl, by simpa [eq_comm] using differs, List.Sublist.refl _⟩
  | _ => contradiction

/-- No step adds what has not been read. -/
theorem step_sublist (place : Place) (c : Char) :
    ((step place c).2 ++ (step place c).1.owed).Sublist (place.owed ++ [c]) := by
  by_cases literal : place.literal = true
  · rw [owed_of_literal literal, List.nil_append]
    rcases step_literal literal c with ⟨-, none, settled⟩ | ⟨literal', -, here⟩
    · rw [none, settled]
      exact List.nil_sublist _
    · rwa [owed_of_literal literal', List.append_nil]
  · cases place with
    | double =>
      simp only [step]
      split
      · exact List.nil_sublist _
      · split
        · next slash =>
          rw [slash]
          exact List.Sublist.refl _
        · exact List.Sublist.refl _
    | gapEscape => simp only [step]; split <;> simp [Place.owed]
    | wordEscape => simp only [step]; split <;> simp [Place.owed]
    | doubleEscape =>
      simp only [step]
      split
      · exact List.nil_sublist _
      · split <;> simp [Place.owed]
    | _ => exact absurd rfl literal

theorem flatten_extend (ends : Bool) (text : List Char) (words : List (List Char)) :
    (extend ends text words).flatten = text ++ words.flatten := by
  cases ends with
  | true => rfl
  | false => exact flatten_pushChars text words

theorem flatten_of_atEnd (read : place.atEnd = some words) : words.flatten = [] := by
  cases place <;> cases read <;> rfl

theorem exists_of_readWords_cons (read : readWords place (c :: cs) = some words) :
    ∃ later, readWords (step place c).1 cs = some later ∧
      words.flatten = (step place c).2 ++ later.flatten := by
  rw [readWords] at read
  obtain ⟨later, rest, rfl⟩ := Option.map_eq_some_iff.mp read
  exact ⟨later, rest, flatten_extend _ _ _⟩

theorem sublist_of_readWords (read : readWords place cs = some words) :
    words.flatten.Sublist (place.owed ++ cs) := by
  induction cs generalizing place words with
  | nil =>
    rw [flatten_of_atEnd read]
    exact List.nil_sublist _
  | cons c cs ih =>
    obtain ⟨later, rest, split⟩ := exists_of_readWords_cons read
    have here := (step_sublist place c).append_right cs
    rw [List.append_assoc, List.append_assoc] at here
    rw [split]
    exact ((ih rest).append_left _).trans here

theorem countP_mark_lt (literal : place.literal = true) (read : readWords place cs = some words)
    (quote : '\'' ∈ words.flatten) : words.flatten.countP isMark < cs.countP isMark := by
  induction cs generalizing place words with
  | nil =>
    rw [flatten_of_atEnd read] at quote
    contradiction
  | cons c cs ih =>
    obtain ⟨later, rest, split⟩ := exists_of_readWords_cons read
    rw [split, List.mem_append] at quote
    rw [split, List.countP_append, List.countP_cons]
    rcases step_literal literal c with ⟨mark, none, settled⟩ | ⟨literal', plain, here⟩
    · have kept := (sublist_of_readWords rest).countP_le (p := isMark)
      rw [settled, List.nil_append] at kept
      rw [none, List.countP_nil, if_pos mark]
      omega
    · have less := ih literal' rest (quote.resolve_left plain)
      have kept := here.countP_le (p := isMark)
      rw [List.countP_singleton] at kept
      omega

/-- Text whose signs are all in its words has no quote in them. -/
theorem quoteless_of_readWords (read : readWords .gap cs = some words)
    (same : words.flatten.countP isMark = cs.countP isMark) : '\'' ∉ words.flatten := fun quote =>
  absurd same (Nat.ne_of_lt (countP_mark_lt rfl read quote))

end Shell

namespace Remote.Command
open Shell Query

variable {c : Command} {path : String}

/-! Reading a line. -/

theorem quoted_toList (path : String) :
    (quoted path).toList = '\'' :: (path.toList ++ ['\'']) := by
  simp [quoted]

theorem readWords_quoted (quoteless : '\'' ∉ path.toList) (rest : List Char) :
    readWords .gap ((quoted path).toList ++ rest) =
      (readWords .word rest).map (pushChars path.toList) := by
  rw [quoted_toList, List.cons_append, List.append_assoc]
  change (readWords .single (path.toList ++ '\'' :: rest)).map id = _
  rw [Option.map_id, id, readWords_single quoteless]

theorem readWords_quoted_last (quoteless : '\'' ∉ path.toList) :
    readWords .gap (quoted path).toList = some [path.toList] := by
  rw [← List.append_nil (quoted path).toList, readWords_quoted quoteless]
  change some (pushChars path.toList [[]]) = _
  rw [pushChars_cons, List.append_nil]

theorem readWords_line (quoteless : ∀ a ∈ c.arguments, '\'' ∉ a.toList) :
    readWords .gap c.line.toList = some (c.arguments.map String.toList) := by
  cases c with
  | mkdir path parents =>
    cases parents with
    | false => exact readWords_quoted_last (quoteless path (by simp [arguments]))
    | true =>
      have read : readWords .gap ("-p".toList ++ ' ' :: (quoted path).toList) = _ :=
        readWords_plain (by decide) (by decide) _
      rw [readWords_quoted_last (quoteless path (by simp [arguments]))] at read
      rwa [line, String.toList_append]
  | link source dest =>
    rw [line, String.toList_append, String.toList_append, List.append_assoc,
      readWords_quoted (quoteless source (by simp [arguments]))]
    change ((readWords .gap (quoted dest).toList).map ([] :: ·)).map _ = _
    rw [readWords_quoted_last (quoteless dest (by simp [arguments])), Option.map_some,
      Option.map_some, pushChars_cons, List.append_nil]
    rfl

/-- The quotes that a line adds are not among the signs. -/
theorem countP_mark_line (c : Command) :
    c.line.toList.countP isMark = (c.arguments.map String.toList).flatten.countP isMark := by
  cases c with
  | mkdir path parents => cases parents <;> simp [line, arguments, quoted, isMark]
  | link source dest => simp [line, arguments, quoted, isMark]

theorem words?_line_iff :
    words? c.line = some c.arguments ↔ ∀ a ∈ c.arguments, '\'' ∉ a.toList := by
  constructor
  · intro read
    obtain ⟨words, read, spelled⟩ := Option.map_eq_some_iff.mp read
    obtain rfl : words = c.arguments.map String.toList := by
      rw [← spelled, List.map_map]
      simp
    have quoteless := quoteless_of_readWords read (countP_mark_line c).symm
    intro a mem quote
    exact quoteless (List.mem_flatten.mpr ⟨_, List.mem_map_of_mem mem, quote⟩)
  · intro quoteless
    rw [words?, readWords_line quoteless, Option.map_some, List.map_map]
    simp

theorem words?_name_line (c : Command) :
    words? (c.name ++ " " ++ c.line) = (words? c.line).map (c.name :: ·) := by
  have plain : c.name.toList.all isPlain = true ∧ c.name.toList ≠ [] := by
    obtain same | same : c.name = "mkdir" ∨ c.name = "link" := by cases c <;> simp [name]
    · rw [same]
      decide
    · rw [same]
      decide
  have spelled : (c.name ++ " " ++ c.line).toList = c.name.toList ++ ' ' :: c.line.toList := by
    simp
  rw [words?, words?, spelled, readWords_plain plain.1 plain.2, Option.map_map, Option.map_map]
  congr 1
  funext words
  simp

/-! Commands of one line. -/

theorem eq_mkdir_of_line {parents : Bool} {other : Command}
    (name : other.name = (mkdir path parents).name)
    (same : other.line = (mkdir path parents).line) : other = mkdir path parents := by
  cases other with
  | link => simp [Command.name] at name
  | mkdir path' parents' =>
    have chars := congrArg String.toList same
    cases parents' <;> cases parents <;> simp [line, quoted_toList] at chars
    · rw [String.toList_inj.mp chars]
    · rw [String.toList_inj.mp chars]

/-- What stands between the paths of a link. -/
def seam : List Char := ['\'', ' ', '\'']

variable {s s' d d' gap : List Char}

theorem link_line_eq_iff {source dest source' dest' : String} :
    (link source' dest').line = (link source dest).line ↔
      source'.toList ++ (seam ++ dest'.toList) = source.toList ++ (seam ++ dest.toList) := by
  have spelled (source dest : String) : (link source dest).line.toList =
      '\'' :: (source.toList ++ (seam ++ dest.toList)) ++ ['\''] := by
    simp [line, quoted, seam]
  rw [← String.toList_inj, spelled, spelled, List.append_cancel_right_eq, List.cons.injEq]
  exact and_iff_right rfl

/-- A seam further on overlaps with the first by no more than its quote. -/
theorem seam_shift (some : gap ≠ []) (same : seam ++ d = gap ++ (seam ++ d')) :
    ∃ tail, gap = '\'' :: ' ' :: tail ∧ '\'' :: d = tail ++ (seam ++ d') := by
  match gap with
  | [] => contradiction
  | [a] => simp [seam] at same
  | a :: b :: tail =>
    obtain ⟨rfl, rfl, split⟩ : '\'' = a ∧ ' ' = b ∧ '\'' :: d = tail ++ (seam ++ d') := by
      simpa [seam] using same
    exact ⟨tail, rfl, split⟩

theorem seam_unique (source : ¬ seam <:+: s ++ ['\'']) (dest : ¬ seam <:+: '\'' :: d)
    (same : s' ++ (seam ++ d') = s ++ (seam ++ d)) : s' = s ∧ d' = d := by
  rcases List.append_eq_append_iff.mp same with ⟨gap, rfl, later⟩ | ⟨gap, rfl, later⟩
  · by_cases some : gap = []
    · subst some
      simpa using later
    · obtain ⟨tail, rfl, split⟩ := seam_shift some later
      obtain ⟨more, ends⟩ : ∃ more, tail ++ ['\''] = '\'' :: more := by
        cases tail with
        | nil => exact ⟨[], rfl⟩
        | cons t tail => exact ⟨tail ++ ['\''], by rw [(List.cons.inj split).1]; rfl⟩
      refine absurd ⟨s', more, ?_⟩ source
      simp [seam, ends]
  · by_cases some : gap = []
    · subst some
      simpa using later.symm
    · obtain ⟨tail, rfl, split⟩ := seam_shift some later
      exact absurd ⟨tail, d', by rw [split, List.append_assoc]⟩ dest

/-- The paths can be told from the line: no seam but the one between them is in it, not even one
that shares a quote with it. -/
def Apart : Command → Prop
  | .mkdir _ _ => True
  | .link source dest => ¬ seam <:+: source.toList ++ ['\''] ∧ ¬ seam <:+: '\'' :: dest.toList

theorem exists_other_link {source dest : String}
    (found : seam <:+: source.toList ++ ['\''] ∨ seam <:+: '\'' :: dest.toList) :
    ∃ source' dest', (link source' dest').line = (link source dest).line ∧ source' ≠ source := by
  rcases found with ⟨before, after, split⟩ | ⟨before, after, split⟩
  · refine ⟨String.ofList before, String.ofList (after ++ ' ' :: '\'' :: dest.toList), ?_, ?_⟩
    · rw [link_line_eq_iff]
      have : source.toList ++ (seam ++ dest.toList) =
          (source.toList ++ ['\'']) ++ (' ' :: '\'' :: dest.toList) := by simp [seam]
      rw [this, ← split]
      simp
    · rintro rfl
      have := congrArg List.length split
      simp [seam] at this
  · refine ⟨String.ofList (source.toList ++ '\'' :: ' ' :: before), String.ofList after, ?_, ?_⟩
    · rw [link_line_eq_iff]
      have : source.toList ++ (seam ++ dest.toList) =
          source.toList ++ '\'' :: ' ' :: ('\'' :: dest.toList) := by simp [seam]
      rw [this, ← split]
      simp
    · intro same
      have := congrArg (fun s => s.toList.length) same
      simp at this

theorem unambiguous_iff_apart (c : Command) :
    (∀ other : Command, other.name = c.name → other.line = c.line → other = c) ↔ c.Apart := by
  cases c with
  | mkdir path parents => exact iff_of_true (fun _ => eq_mkdir_of_line) trivial
  | link source dest =>
    constructor
    · intro alone
      rw [Apart, ← not_or]
      intro found
      obtain ⟨source', dest', same, differs⟩ := exists_other_link found
      exact differs (link.inj (alone (link source' dest') rfl same)).1
    · rintro ⟨clean, clean'⟩ other name same
      cases other with
      | mkdir => simp [Command.name] at name
      | link source' dest' =>
        obtain ⟨same, same'⟩ := seam_unique clean clean' (link_line_eq_iff.mp same)
        rw [String.toList_inj.mp same, String.toList_inj.mp same']

theorem apart_of_quoteless (quoteless : ∀ a ∈ c.arguments, '\'' ∉ a.toList) : c.Apart := by
  -- a seam has two quotes, where there is one
  cases c with
  | mkdir => trivial
  | link source dest =>
    have source := List.count_eq_zero.mpr (quoteless source (by simp [arguments]))
    have dest := List.count_eq_zero.mpr (quoteless dest (by simp [arguments]))
    constructor
    · intro found
      have le := found.sublist.count_le '\''
      simp [seam, source] at le
    · intro found
      have le := found.sublist.count_le '\''
      simp [seam, dest] at le

/-- With the name in front of a line, the name is one word more. The words of the line are the
arguments if and only if no path has a quote, and no other command has that line then. Otherwise a
line is that of one command as long as its paths are apart. -/
theorem line_reads_back (c : Command) :
    words? (c.name ++ " " ++ c.line) = (words? c.line).map (c.name :: ·) ∧
    (words? c.line = some c.arguments ↔ ∀ a ∈ c.arguments, '\'' ∉ a.toList) ∧
    (words? c.line = some c.arguments → c.Apart) ∧
    ((∀ other : Command, other.name = c.name → other.line = c.line → other = c) ↔ c.Apart) :=
  ⟨words?_name_line c, words?_line_iff, fun read => apart_of_quoteless (words?_line_iff.mp read),
    unambiguous_iff_apart c⟩

/-- Blanks, backslashes and signs of other kinds in paths. -/
theorem blanks_read_back :
    words? (mkdir "-p \"/v/$a\\ " true).line = some ["-p", "-p \"/v/$a\\ "] ∧
      ∀ other : Command, other.name = "link" → other.line = "' /v/a  b' ''" →
        other = link " /v/a  b" "" := by
  refine ⟨(line_reads_back (mkdir "-p \"/v/$a\\ " true)).2.1.mpr (by decide), ?_⟩
  obtain ⟨-, -, apart, unambiguous⟩ := line_reads_back (link " /v/a  b" "")
  exact unambiguous.mpr (apart (by decide))

/-- Two links of one line, which is read as three arguments; a directory that is read as two, and
one whose quote stays open. -/
theorem quotes_misread :
    (link "/v/a' '/v/b" "/v/c").line = (link "/v/a" "/v/b' '/v/c").line ∧
      link "/v/a' '/v/b" "/v/c" ≠ link "/v/a" "/v/b' '/v/c" ∧
      words? (link "/v/a' '/v/b" "/v/c").line = some ["/v/a", "/v/b", "/v/c"] ∧
      words? (mkdir "/v/a' '/v/b" false).line = some ["/v/a", "/v/b"] ∧
      words? (mkdir "/v/o'brien" true).line = none := by
  decide

end Remote.Command
end DataGrid
