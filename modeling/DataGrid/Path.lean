import DataGrid.Text.Blank
import DataGrid.Text.Letters

/-! Slash-separated paths, of files and of collections alike. A path is read as the list of
its segments; two paths that differ in trailing slashes name the same place. `within` is the
containment relation: the segments of the outer path begin those of the inner one. `normal`
is the lexical normal form, in which `..` removes the segment before it and stays at the root. -/
namespace DataGrid.Path
open Text

def isSlash (c : Char) : Bool := c == '/'

def trimChars (p : List Char) : List Char := dropEndWhile isSlash p

/-- The path without its trailing slashes; the root becomes empty. -/
def trim (p : String) : String := String.ofList (trimChars p.toList)

/-- The pieces between slashes, empty ones included. -/
def segments : List Char → List (List Char)
  | [] => [[]]
  | c :: cs =>
    if c = '/' then [] :: segments cs
    else
      match segments cs with
      | [] => [[c]]
      | s :: ss => (c :: s) :: ss

/-- Segments with a slash between each two. -/
def join : List (List Char) → List Char
  | [] => []
  | [s] => s
  | s :: t :: ss => s ++ '/' :: join (t :: ss)

theorem segments_ne_nil (p : List Char) : segments p ≠ [] := by
  cases p with
  | nil => simp [segments]
  | cons c cs =>
    simp only [segments]
    split
    · simp
    · split <;> simp

theorem join_segments (p : List Char) : join (segments p) = p := by
  induction p with
  | nil => rfl
  | cons c cs ih =>
    simp only [segments]
    split
    · next h =>
      cases hs : segments cs with
      | nil => exact absurd hs (segments_ne_nil cs)
      | cons s ss => rw [hs] at ih; simp [join, ih, h]
    · cases hs : segments cs with
      | nil => exact absurd hs (segments_ne_nil cs)
      | cons s ss =>
        rw [hs] at ih
        cases ss with
        | nil => simp_all [join]
        | cons t ts => simp_all [join]

/-- The path before the last slash and the name after it. The parent of a path whose only
slash is the first character is the root. -/
def split? (p : String) : Option (String × String) :=
  let r := p.toList.reverse
  match r.dropWhile (fun c => !isSlash c) with
  | [] => none
  | _ :: rest =>
    let parent := if rest.isEmpty then ['/'] else rest.reverse
    some (String.ofList parent, String.ofList (r.takeWhile fun c => !isSlash c).reverse)

/-- Empty for a path without a slash. -/
def parent (p : String) : String := ((split? p).map (·.1)).getD ""

/-- The whole path if it has no slash. -/
def leaf (p : String) : String := ((split? p).map (·.2)).getD p

/-- What follows `root` in a path that lies in its tree: nothing, or a slash and more. -/
def below? (root p : List Char) : Option (List Char) :=
  match stripLead? root p with
  | some [] => some []
  | some (c :: cs) => if c = '/' then some (c :: cs) else none
  | none => none

/-- Whether `p` is `root` or lies below it. -/
def within (p root : String) : Bool :=
  (below? (trimChars root.toList) (trimChars p.toList)).isSome

/-- One step of the lexical resolution; `done` holds the resolved segments, last one first. -/
def resolveStep (done : List (List Char)) (s : List Char) : List (List Char) :=
  if s = [] ∨ s = ['.'] then done
  else if s = ['.', '.'] then done.tail
  else s :: done

/-- The segments of the normal form, seen from the root. -/
def resolved (p : List Char) : List (List Char) :=
  ((segments p).foldl resolveStep []).reverse

def normal (p : String) : String := String.ofList ('/' :: join (resolved p.toList))

/-- Whether `root` lies at or above `p` once both are resolved, segment by segment. -/
def covers (root p : String) : Bool :=
  (resolved root.toList).isPrefixOf (resolved p.toList)

/-- The places on the way from `base` down `rest`, nearest to `base` first: every prefix of the
whole path that ends before a slash or at the end and is longer than `base`. -/
def rungs (base : List Char) : List Char → List (List Char)
  | [] => []
  | c :: cs =>
    let seg := cs.takeWhile fun d => !isSlash d
    let next := base ++ c :: seg
    next :: rungs next (cs.dropWhile fun d => !isSlash d)
  termination_by rest => rest.length
  decreasing_by
    simp only [List.length_cons]
    have h := (List.dropWhile_sublist (fun d => !isSlash d) (l := cs)).length_le
    omega

end DataGrid.Path
