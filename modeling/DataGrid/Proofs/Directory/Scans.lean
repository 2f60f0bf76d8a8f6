import DataGrid.Proofs.Segments

/-! The two scans of a directory walk cut the destination at the same boundaries, the rungs below
the start: going back by the last slash takes them from the longest down, and going on by the next
slash takes those that the first scan passed over. So a walk is the survey of its route, and then
the creation of what the survey found missing. -/
namespace DataGrid.Path

/-- The rungs of a way that has one name more. -/
theorem rungs_concat {name : List Char} (free : '/' ∉ name) (base way : List Char) :
    rungs base (way ++ '/' :: name) = rungs base way ++ [base ++ (way ++ '/' :: name)] := by
  induction base, way using rungs.induct with
  | case1 base =>
    have single : rungs base ('/' :: (name ++ [])) =
        (base ++ '/' :: name) :: rungs (base ++ '/' :: name) [] :=
      rungs_name free (by simp) base '/'
    rw [List.append_nil, rungs] at single
    rw [rungs]
    exact single
  | case2 base c cs seg next ih =>
    have whole : seg ++ cs.dropWhile (fun d => !isSlash d) = cs := List.takeWhile_append_dropWhile
    have first : ∀ d ∈ (cs.dropWhile (fun d => !isSlash d) ++ '/' :: name).head?, d = '/' := by
      cases rest : cs.dropWhile fun d => !isSlash d with
      | nil => simp
      | cons d ds => simp [head?_dropWhile_slash cs d (by rw [rest]; rfl)]
    have longest : next ++ (cs.dropWhile (fun d => !isSlash d) ++ '/' :: name) =
        base ++ c :: (cs ++ '/' :: name) := by
      rw [← List.append_assoc, List.append_assoc base, List.cons_append, whole]
      simp
    calc rungs base (c :: cs ++ '/' :: name)
        = rungs base (c :: (seg ++ (cs.dropWhile (fun d => !isSlash d) ++ '/' :: name))) := by
          rw [← List.append_assoc, whole, List.cons_append]
      _ = next :: rungs next (cs.dropWhile (fun d => !isSlash d) ++ '/' :: name) :=
          rungs_name (slash_not_mem_takeWhile cs) first base c
      _ = rungs base (c :: cs) ++ [base ++ (c :: cs ++ '/' :: name)] := by
          rw [ih, longest, rungs, List.cons_append, List.cons_append]

/-- The name after the last slash of a way, and the way before it. -/
theorem exists_last_name {way : List Char} (some : way ≠ []) (first : ∀ c ∈ way.head?, c = '/') :
    ∃ front name, way = front ++ '/' :: name ∧ '/' ∉ name ∧ ∀ c ∈ front.head?, c = '/' := by
  have mem : '/' ∈ way.reverse := by
    cases way with
    | nil => contradiction
    | cons c cs => simp [first c rfl]
  obtain ⟨name, front, back, free⟩ := List.eq_append_cons_of_mem mem
  have split : way = front.reverse ++ '/' :: name.reverse := by
    rw [← List.reverse_reverse way, back]
    simp
  refine ⟨_, _, split, by simpa using free, ?_⟩
  cases chars : front.reverse with
  | nil => simp
  | cons c cs =>
    rw [split, chars] at first
    exact first

end DataGrid.Path

namespace DataGrid.Directory
open DataGrid.Path (isSlash rungs)

/-- Looks at places from the longest down, up to the first that exists; every failure to look
counts as missing. `missing` collects what has to be made, shortest first. -/
def survey : (longestFirst : List String) → (missing : List String) →
    Dialogue interface (Except Error (List String))
  | [], missing => .done (.ok missing)
  | d :: ds, missing =>
    .ask (.stat d) fun
      | .ok st => .done (if st.isDir then .ok missing else .error (.notADirectory d))
      | .error _ => survey ds (d :: missing)

/-- Makes the directories in order, up to the first that cannot be made; `count` have been. -/
def create (mode : UInt32) : List String → (count : Nat) → Dialogue interface (Except Error Nat)
  | [], count => .done (.ok count)
  | d :: ds, count =>
    .ask (.mkdir d mode) fun
      | .ok () => create mode ds (count + 1)
      | .error e => .done (.error (.fileOperation "mkdir" d e.message))

/-- The places from just below `start` down to `dest`, shortest first, if `dest` is in the tree
of `start`. -/
def route? (start dest : String) : Option (List String) :=
  (Path.below? (Path.trimChars start.toList) (Path.trimChars dest.toList)).map fun rest =>
    (rungs (Path.trimChars start.toList) rest).map String.ofList

/-- The rungs that are longer than a beginning of the path. -/
def beyond (dest : List Char) (i : Nat) : List String :=
  (rungs (dest.take i) (dest.drop i)).map String.ofList

theorem lastSlash_append {name : List Char} (free : '/' ∉ name) (front : List Char) :
    lastSlash (front ++ '/' :: name) = front.length := by
  have back := (Path.takeWhile_name (s := name.reverse) (by simpa using free)
    ('/' :: front.reverse) (by simp)).2
  rw [lastSlash, List.reverse_append, List.reverse_cons, List.append_assoc, List.singleton_append,
    back, List.tail_cons, List.length_reverse]

theorem beyond_of_lt {dest : List Char} {i : Nat} (more : i < dest.length) :
    beyond dest i =
      String.ofList (dest.take (nextSlash dest i)) :: beyond dest (nextSlash dest i) := by
  have rest : dest.drop i = dest[i] :: dest.drop (i + 1) := List.drop_eq_getElem_cons more
  have whole := List.takeWhile_append_dropWhile (p := fun d => !isSlash d) (l := dest.drop (i + 1))
  have split : dest =
      (dest.take i ++ dest[i] :: (dest.drop (i + 1)).takeWhile fun d => !isSlash d) ++
        (dest.drop (i + 1)).dropWhile fun d => !isSlash d := by
    rw [List.append_assoc, List.cons_append, whole, ← rest, List.take_append_drop]
  have length : (dest.take i ++
      dest[i] :: (dest.drop (i + 1)).takeWhile fun d => !isSlash d).length = nextSlash dest i := by
    rw [List.length_append, List.length_take_of_le (Nat.le_of_lt more), List.length_cons, nextSlash]
    omega
  have front : dest.take (nextSlash dest i) =
      dest.take i ++ dest[i] :: (dest.drop (i + 1)).takeWhile fun d => !isSlash d :=
    (congrArg (List.take (nextSlash dest i)) split).trans (List.take_left' length)
  have back : dest.drop (nextSlash dest i) = (dest.drop (i + 1)).dropWhile fun d => !isSlash d :=
    (congrArg (List.drop (nextSlash dest i)) split).trans (List.drop_left' length)
  rw [beyond, rest, rungs, beyond, front, back, List.map_cons]

/-- Going on by the next slash makes the rungs that are left. -/
theorem makeOn_eq_create (dest : List Char) (mode : UInt32) (i count : Nat) :
    makeOn dest mode i count = create mode (beyond dest i) count := by
  fun_induction makeOn dest mode i count with
  | case1 i count more place ih =>
    rw [beyond_of_lt more, create]
    congr 1
    funext made
    cases made with
    | ok done => exact ih
    | error e => rfl
  | case2 i count done =>
    rw [beyond, List.drop_of_length_le (Nat.le_of_not_lt done), rungs]
    rfl

theorem beyond_append (front back : List Char) :
    beyond (front ++ back) front.length = (rungs front back).map String.ofList := by
  rw [beyond, List.take_left, List.drop_left]

/-- Going back by the last slash looks at the rungs from the longest down, and passes over those
that are longer than where it ends. -/
theorem survey_rungs {dest base way rest : List Char} (split : dest = base ++ way ++ rest)
    (first : ∀ c ∈ way.head?, c = '/') (next : ∀ c ∈ rest.head?, c = '/') :
    survey ((rungs base way).map String.ofList).reverse
        ((rungs (base ++ way) rest).map String.ofList) =
      lookBack dest base.length (base ++ way).length >>= fun found =>
        .done (found.map (beyond dest)) := by
  by_cases none : way = []
  · subst none
    rw [List.append_nil] at split
    rw [lookBack, if_neg (by simp), List.append_nil, rungs, split]
    simp only [List.map_nil, List.reverse_nil, survey, Dialogue.done_bind, Except.map,
      beyond_append]
  · obtain ⟨front, name, rfl, free, head⟩ := Path.exists_last_name none first
    have shorter : dest = base ++ front ++ ('/' :: name ++ rest) := by simpa using split
    have ih := survey_rungs shorter head (by simp)
    have longer : base.length < (base ++ (front ++ '/' :: name)).length := by
      rw [List.length_append, List.length_append, List.length_cons]
      omega
    have place : dest.take (base ++ (front ++ '/' :: name)).length =
        base ++ (front ++ '/' :: name) := by
      rw [split, List.take_left]
    have back : lastSlash (base ++ (front ++ '/' :: name)) = (base ++ front).length := by
      rw [← List.append_assoc, lastSlash_append free]
    have left : rungs (base ++ front) ('/' :: name ++ rest) =
        (base ++ (front ++ '/' :: name)) :: rungs (base ++ (front ++ '/' :: name)) rest := by
      rw [List.cons_append, Path.rungs_name free next, List.append_assoc]
    rw [lookBack, if_pos longer, place, back, Path.rungs_concat free, List.map_append,
      List.map_singleton, List.reverse_append, List.reverse_singleton, List.singleton_append,
      survey, Dialogue.ask_bind]
    congr 1
    funext found
    cases found with
    | ok st =>
      have ahead := beyond_append (base ++ (front ++ '/' :: name)) rest
      rw [← split] at ahead
      rw [← ahead]
      cases isDir : st.isDir <;> simp [isDir, Except.map]
    | error e =>
      -- What was looked at in vain is the first of the rungs to make.
      rw [left] at ih
      exact ih
  termination_by way.length

/-- A walk surveys its route and creates what is missing of it. -/
theorem ensure_eq (start dest : String) (mode : UInt32) :
    ensure start dest mode =
      match route? start dest with
      | none => .done (.error (.input s!"'{dest}' is not below start directory '{start}'"))
      | some route => do
        match ← survey route.reverse [] with
        | .ok missing => create mode missing 0
        | .error e => return .error e := by
  rw [ensure, route?, isUnder_eq]
  cases below : Path.below? (Path.trimChars start.toList) (Path.trimChars dest.toList) with
  | none => rfl
  | some rest =>
    obtain ⟨split, first⟩ := Path.eq_append_of_below? below
    have whole : Path.trimChars dest.toList = Path.trimChars start.toList ++ rest ++ [] := by
      simpa using split
    have surveyed := survey_rungs whole first (by simp)
    rw [← split, rungs, List.map_nil] at surveyed
    simp only [Option.isSome_some, if_true, Option.map_some]
    rw [surveyed, bind_assoc]
    congr 1
    funext found
    cases found with
    | ok i => exact makeOn_eq_create _ mode i 0
    | error e => rfl

end DataGrid.Directory

namespace DataGrid.Path

/-- Whatever lies on the way to the parent of a path is above the path. -/
theorem above_of_mem_route {start dest leaf path : String} {route : List String}
    (hroute : Directory.route? start dest = some route) (hsplit : split? path = some (dest, leaf)) :
    ∀ place ∈ route, Above place path := by
  intro place hplace
  simp only [Directory.route?, Option.map_eq_some_iff] at hroute
  obtain ⟨rest, hbelow, rfl⟩ := hroute
  obtain ⟨rung, hrung, rfl⟩ := List.mem_map.mp hplace
  obtain ⟨more, hmore, first⟩ := eq_append_of_mem_rungs hrung
  rw [← (eq_append_of_below? hbelow).1] at hmore
  rcases (split?_eq_some hsplit).2 with ⟨rfl, -⟩ | hpath
  · -- Below the root itself there is no rung.
    have root : trimChars "/".toList = [] := by decide
    obtain ⟨hbase, -⟩ := eq_append_of_below? hbelow
    rw [root] at hbase
    obtain ⟨-, rfl⟩ := List.append_eq_nil_iff.mp hbase.symm
    simp [rungs] at hrung
  · obtain ⟨slashes, split, all⟩ := exists_append_trimChars dest.toList
    rw [split, hmore, List.append_assoc, List.append_assoc] at hpath
    cases more with
    | cons c cs =>
      rw [first c rfl] at hpath
      exact ⟨cs ++ (slashes ++ '/' :: leaf.toList), by simpa using hpath⟩
    | nil =>
      cases slashes with
      | nil => exact ⟨leaf.toList, by simpa using hpath⟩
      | cons c cs =>
        rw [all c List.mem_cons_self] at hpath
        exact ⟨cs ++ '/' :: leaf.toList, by simpa using hpath⟩

theorem route?_place (hb : Proper base) (hr : Proper rest) :
    Directory.route? (place base) (place (base ++ rest)) = some ((ladder base rest).map place) := by
  have whole : Proper (base ++ rest) := hb.append hr
  have below : below? (spell base) (spell (base ++ rest)) = some (spell rest) :=
    (below?_spell hb whole).mpr ⟨rest, rfl, rfl⟩
  simp only [Directory.route?, toList_place, trimChars_spell hb, trimChars_spell whole, below,
    Option.map_some, rungs_spell base hr, List.map_map]
  rfl

end DataGrid.Path
