import DataGrid.Proofs.Dialogue
import DataGrid.Proofs.Directory.Places

/-! What a directory walk asks of a file driver, whatever the driver answers. It looks at the
stages from the longest down, each once, until one can be looked at. If that one is a directory,
or if there is none, everything longer is made from the shortest up until a creation fails. -/
namespace DataGrid.Directory
open Dialogue (Exchange Transcript transcript_bind_iff transcript_done_iff)
open DataGrid.Path (trim boundaries OneFurther)

/-- The place that a call is about. -/
def Call.place : Call → String
  | .stat path | .mkdir path _ => path

/-- The directory that a call asks for. -/
def Call.wanted? : Call → Option String
  | .stat _ => none
  | .mkdir path _ => some path

def created (mode : UInt32) (place : String) : Exchange interface := ⟨.mkdir place mode, .ok ()⟩

/-- Each of the places has been looked at in vain, in this order. -/
def InVain : (places : List String) → (looks : List (Exchange interface)) → Prop :=
  List.Forall₂ fun place x => ∃ e, x = ⟨.stat place, .error e⟩

/-- The looks that tell what is missing of a route: the longest places in vain, up to a directory
or to the end of the route. -/
inductive Survey : (known missing : List String) → (looks : List (Exchange interface)) → Prop
  | nothing {missing : List String} {looks : List (Exchange interface)}
      (vain : InVain missing.reverse looks) : Survey [] missing looks
  | directory {known missing : List String} {looks : List (Exchange interface)} {place : String}
      {st : FileStatus} (vain : InVain missing.reverse looks) (isDir : st.isDir = true) :
      Survey (known ++ [place]) missing (looks ++ [⟨.stat place, .ok st⟩])

/-- The calls of a walk, with their answers, and its result. -/
inductive Walked (start dest : String) (mode : UInt32) :
    List (Exchange interface) → Except Error Nat → Prop
  | outside (apart : trim start ∉ boundaries (trim dest)) :
      Walked start dest mode []
        (.error (.input s!"'{dest}' is not below start directory '{start}'"))
  | blocked {known missing : List String} {looks : List (Exchange interface)} {place : String}
      {st : FileStatus} (inside : trim start ∈ boundaries (trim dest))
      (split : stages start dest = known ++ place :: missing)
      (vain : InVain missing.reverse looks) (file : st.isDir = false) :
      Walked start dest mode (looks ++ [⟨.stat place, .ok st⟩]) (.error (.notADirectory place))
  | stopped {known made left : List String} {looks : List (Exchange interface)} {place : String}
      {e : IoError} (inside : trim start ∈ boundaries (trim dest))
      (split : stages start dest = known ++ (made ++ place :: left))
      (survey : Survey known (made ++ place :: left) looks) :
      Walked start dest mode (looks ++ (made.map (created mode) ++ [⟨.mkdir place mode, .error e⟩]))
        (.error (.fileOperation "mkdir" place e.message))
  | complete {known missing : List String} {looks : List (Exchange interface)}
      (inside : trim start ∈ boundaries (trim dest))
      (split : stages start dest = known ++ missing) (survey : Survey known missing looks) :
      Walked start dest mode (looks ++ missing.map (created mode)) (.ok missing.length)

variable {start dest file : String} {mode : UInt32} {calls looks : List (Exchange interface)}
  {places missing : List String}

/-! The two halves of a walk. -/

theorem transcript_survey_iff {r : Except Error (List String)} :
    Transcript (survey places missing) calls r ↔
      (InVain places calls ∧ r = .ok (places.reverse ++ missing)) ∨
        ∃ passed place ahead looks st, places = passed ++ place :: ahead ∧ InVain passed looks ∧
          calls = looks ++ [⟨.stat place, .ok st⟩] ∧
          r = if st.isDir then .ok (passed.reverse ++ missing)
            else .error (.notADirectory place) := by
  induction places generalizing missing calls with
  | nil =>
    rw [survey, transcript_done_iff]
    simp [InVain]
  | cons d ds ih =>
    constructor
    · intro h
      cases h with
      | ask answer tail =>
        cases answer with
        | ok st =>
          obtain ⟨rfl, rfl⟩ := transcript_done_iff.mp tail
          exact .inr ⟨[], d, ds, [], st, rfl, .nil, rfl, by simp⟩
        | error e =>
          rcases ih.mp tail with
            ⟨vain, rfl⟩ | ⟨passed, place, ahead, looks, st, rfl, vain, rfl, rfl⟩
          · exact .inl ⟨.cons ⟨e, rfl⟩ vain, by simp⟩
          · exact .inr ⟨d :: passed, place, ahead, _ :: looks, st, rfl, .cons ⟨e, rfl⟩ vain, rfl,
              by simp⟩
    · rintro (⟨vain, rfl⟩ | ⟨passed, place, ahead, looks, st, split, vain, rfl, rfl⟩)
      · cases vain with
        | cons first vain =>
          obtain ⟨e, rfl⟩ := first
          exact .ask (I := interface) (c := .stat d) (.error e) (ih.mpr (.inl ⟨vain, by simp⟩))
      · cases vain with
        | nil =>
          obtain ⟨rfl, rfl⟩ := List.cons.inj split
          exact .ask (I := interface) (c := .stat d) (.ok st)
            (transcript_done_iff.mpr ⟨rfl, by simp⟩)
        | cons first vain =>
          obtain ⟨e, rfl⟩ := first
          obtain ⟨rfl, rfl⟩ := List.cons.inj split
          exact .ask (I := interface) (c := .stat d) (.error e)
            (ih.mpr (.inr ⟨_, place, ahead, _, st, rfl, vain, rfl, by simp⟩))

theorem InVain.look {x : Exchange interface} (vain : InVain places looks) (mem : x ∈ looks) :
    ∃ place ∈ places, x.call = .stat place := by
  induction vain with
  | nil => contradiction
  | cons first _ ih =>
    obtain ⟨e, rfl⟩ := first
    rcases List.mem_cons.mp mem with rfl | mem
    · exact ⟨_, List.mem_cons_self, rfl⟩
    · obtain ⟨place, listed, call⟩ := ih mem
      exact ⟨place, List.mem_cons_of_mem _ listed, call⟩

/-- The looks up to the first that is not in vain. -/
theorem InVain.look_cut {place : String} {st : FileStatus} {x : Exchange interface}
    (vain : InVain places looks) (mem : x ∈ looks ++ [⟨.stat place, .ok st⟩]) :
    ∃ other ∈ place :: places, x.call = .stat other := by
  rcases List.mem_append.mp mem with mem | mem
  · obtain ⟨other, listed, call⟩ := vain.look mem
    exact ⟨other, List.mem_cons_of_mem _ listed, call⟩
  · exact ⟨place, List.mem_cons_self, congrArg Exchange.call (List.mem_singleton.mp mem)⟩

/-- A survey only looks. -/
theorem stat_of_transcript_survey {r : Except Error (List String)} {x : Exchange interface}
    (h : Transcript (survey places missing) calls r) (mem : x ∈ calls) :
    ∃ place, x.call = .stat place := by
  rcases transcript_survey_iff.mp h with ⟨vain, -⟩ | ⟨_, _, _, _, _, -, vain, rfl, -⟩
  · obtain ⟨place, -, call⟩ := vain.look mem
    exact ⟨place, call⟩
  · obtain ⟨place, -, call⟩ := vain.look_cut mem
    exact ⟨place, call⟩

theorem transcript_create_iff {count : Nat} {r : Except Error Nat} :
    Transcript (create mode places count) calls r ↔
      (calls = places.map (created mode) ∧ r = .ok (count + places.length)) ∨
        ∃ made place left e, places = made ++ place :: left ∧
          calls = made.map (created mode) ++ [⟨.mkdir place mode, .error e⟩] ∧
          r = .error (.fileOperation "mkdir" place e.message) := by
  induction places generalizing count calls with
  | nil =>
    rw [create, transcript_done_iff]
    simp
  | cons d ds ih =>
    have counted : count + 1 + ds.length = count + (d :: ds).length := by
      rw [List.length_cons, Nat.add_assoc, Nat.add_comm 1]
    constructor
    · intro h
      cases h with
      | ask answer tail =>
        cases answer with
        | ok u =>
          rcases ih.mp tail with ⟨rfl, rfl⟩ | ⟨made, place, left, e, rfl, rfl, rfl⟩
          · exact .inl ⟨rfl, by rw [counted]⟩
          · exact .inr ⟨d :: made, place, left, e, rfl, rfl, rfl⟩
        | error e =>
          obtain ⟨rfl, rfl⟩ := transcript_done_iff.mp tail
          exact .inr ⟨[], d, ds, e, rfl, rfl, rfl⟩
    · rintro (⟨rfl, rfl⟩ | ⟨made, place, left, e, split, rfl, rfl⟩)
      · exact .ask (I := interface) (c := .mkdir d mode) (.ok ())
          (ih.mpr (.inl ⟨rfl, by rw [counted]⟩))
      · cases made with
        | nil =>
          obtain ⟨rfl, rfl⟩ := List.cons.inj split
          exact .ask (I := interface) (c := .mkdir d mode) (.error e)
            (transcript_done_iff.mpr ⟨rfl, rfl⟩)
        | cons first made =>
          obtain ⟨rfl, rfl⟩ := List.cons.inj split
          exact .ask (I := interface) (c := .mkdir d mode) (.ok ())
            (ih.mpr (.inr ⟨made, place, left, e, rfl, rfl, rfl⟩))

/-! Whole walks. -/

/-- Looking up a route from its end tells what is missing of it, or finds a file on it. -/
theorem transcript_survey_route_iff {route : List String} {r : Except Error (List String)} :
    Transcript (survey route.reverse []) calls r ↔
      (∃ known missing, route = known ++ missing ∧ Survey known missing calls ∧ r = .ok missing) ∨
        ∃ known place missing looks st, route = known ++ place :: missing ∧
          InVain missing.reverse looks ∧ st.isDir = false ∧
          calls = looks ++ [⟨.stat place, .ok st⟩] ∧ r = .error (.notADirectory place) := by
  rw [transcript_survey_iff]
  constructor
  · rintro (⟨vain, rfl⟩ | ⟨passed, place, ahead, looks, st, cut, vain, rfl, rfl⟩)
    · exact .inl ⟨[], route, rfl, .nothing vain, by simp⟩
    · have split : route = ahead.reverse ++ place :: passed.reverse := by
        rw [← List.reverse_reverse route, cut]
        simp
      rw [← List.reverse_reverse passed] at vain
      cases isDir : st.isDir with
      | true => exact .inl ⟨_, _, by simpa using split, .directory vain isDir, by simp⟩
      | false => exact .inr ⟨_, place, _, looks, st, split, vain, isDir, rfl, rfl⟩
  · rintro (⟨known, missing, rfl, survey, rfl⟩ |
      ⟨known, place, missing, looks, st, rfl, vain, file, rfl, rfl⟩)
    · cases survey with
      | nothing vain => exact .inl ⟨vain, by simp⟩
      | @directory known missing looks place st vain isDir =>
        exact .inr ⟨_, place, known.reverse, looks, st, by simp, vain, rfl, by simp [isDir]⟩
    · exact .inr ⟨_, place, known.reverse, looks, st, by simp, vain, rfl, by simp [file]⟩

theorem ensure_of_mem (inside : trim start ∈ boundaries (trim dest)) :
    ensure start dest mode = survey (stages start dest).reverse [] >>= fun
      | .ok missing => create mode missing 0
      | .error e => .done (.error e) := by
  rw [ensure_eq, route?_of_mem inside]
  rfl

theorem transcript_ensure_iff {r : Except Error Nat} :
    Transcript (ensure start dest mode) calls r ↔ Walked start dest mode calls r := by
  by_cases inside : trim start ∈ boundaries (trim dest)
  · rw [ensure_of_mem inside, transcript_bind_iff]
    constructor
    · rintro ⟨looks, found, rest, rfl, surveyed, after⟩
      rcases transcript_survey_route_iff.mp surveyed with
        ⟨known, missing, split, survey, rfl⟩ | ⟨known, place, missing, looks, st, split, vain, file,
          rfl, rfl⟩
      · rcases transcript_create_iff.mp after with
          ⟨rfl, rfl⟩ | ⟨made, place, left, e, rfl, rfl, rfl⟩
        · rw [Nat.zero_add]
          exact .complete inside split survey
        · exact .stopped inside split survey
      · obtain ⟨rfl, rfl⟩ := transcript_done_iff.mp after
        rw [List.append_nil]
        exact .blocked inside split vain file
    · intro walked
      cases walked with
      | outside apart => exact absurd inside apart
      | blocked _ split vain file =>
        refine ⟨_, .error _, [], (List.append_nil _).symm,
          transcript_survey_route_iff.mpr (.inr ?_), transcript_done_iff.mpr ⟨rfl, rfl⟩⟩
        exact ⟨_, _, _, _, _, split, vain, file, rfl, rfl⟩
      | stopped _ split survey =>
        refine ⟨_, _, _, rfl, transcript_survey_route_iff.mpr (.inl ⟨_, _, split, survey, rfl⟩),
          transcript_create_iff.mpr (.inr ?_)⟩
        exact ⟨_, _, _, _, rfl, rfl, rfl⟩
      | complete _ split survey =>
        refine ⟨_, _, _, rfl, transcript_survey_route_iff.mpr (.inl ⟨_, _, split, survey, rfl⟩),
          transcript_create_iff.mpr (.inl ⟨rfl, ?_⟩)⟩
        rw [Nat.zero_add]
  · rw [ensure_eq, route?_of_not_mem inside, transcript_done_iff]
    constructor
    · rintro ⟨rfl, rfl⟩
      exact .outside inside
    · intro walked
      cases walked with
      | outside apart => exact ⟨rfl, rfl⟩
      | blocked there => exact absurd there inside
      | stopped there => exact absurd there inside
      | complete there => exact absurd there inside

theorem transcript_ensureParent_iff {r : Except Error Nat} :
    Transcript (ensureParent start file mode) calls r ↔
      ('/' ∉ file.toList ∧ calls = [] ∧
        r = .error (.input s!"path '{file}' has no parent directory")) ∨
      ∃ parent name, Path.Splits file parent name ∧
        Walked start parent (mode ||| traverseBits) calls r := by
  cases split : Path.split? file with
  | none =>
    simp only [ensureParent, parentAndName, split, transcript_done_iff, ← Path.split?_eq_some_iff,
      Path.split?_eq_none_iff.mp split, reduceCtorEq, not_false_eq_true, true_and, false_and,
      exists_false, or_false]
  | some parts =>
    have slashed : '/' ∈ file.toList := by
      by_contra free
      rw [Path.split?_eq_none_iff.mpr free] at split
      contradiction
    simp only [ensureParent, parentAndName, split, transcript_ensure_iff,
      ← Path.split?_eq_some_iff, slashed, not_true_eq_false, false_and, false_or,
      Option.some.injEq]
    constructor
    · intro walked
      exact ⟨parts.1, parts.2, rfl, walked⟩
    · rintro ⟨parent, name, rfl, walked⟩
      exact walked

theorem Survey.look {known : List String} {x : Exchange interface}
    (survey : Survey known missing looks) (mem : x ∈ looks) :
    ∃ place ∈ known ++ missing, x.call = .stat place := by
  cases survey with
  | nothing vain => simpa using vain.look mem
  | directory vain =>
    obtain ⟨place, listed, call⟩ := vain.look_cut mem
    rw [List.append_assoc]
    exact ⟨place, List.mem_append_right _ (by simpa using listed), call⟩

theorem place_mem_of_mem_created {x : Exchange interface} (mem : x ∈ places.map (created mode)) :
    x.call.place ∈ places := by
  obtain ⟨d, listed, rfl⟩ := List.mem_map.mp mem
  exact listed

/-- The creations up to the first that fails. -/
theorem place_mem_of_mem_stopped {made left : List String} {place : String} {e : IoError}
    {x : Exchange interface}
    (mem : x ∈ made.map (created mode) ++ [⟨.mkdir place mode, .error e⟩]) :
    x.call.place ∈ made ++ place :: left := by
  rcases List.mem_append.mp mem with mem | refused
  · exact List.mem_append_left _ (place_mem_of_mem_created mem)
  · rw [List.mem_singleton.mp refused]
    exact List.mem_append_right _ List.mem_cons_self

theorem wanted_of_stat (stats : ∀ x ∈ calls, ∃ place, x.call = .stat place) :
    calls.filterMap (·.call.wanted?) = [] := by
  rw [List.filterMap_eq_nil_iff]
  intro x mem
  obtain ⟨place, call⟩ := stats x mem
  rw [call]
  rfl

theorem wanted_of_created (mode : UInt32) (places : List String) :
    (places.map (created mode)).filterMap (·.call.wanted?) = places := by
  rw [List.filterMap_map]
  exact List.filterMap_some

/-- Every call of a walk is about one of its stages. -/
theorem Walked.place_mem {r : Except Error Nat} {x : Exchange interface}
    (walked : Walked start dest mode calls r) (mem : x ∈ calls) :
    trim start ∈ boundaries (trim dest) ∧ x.call.place ∈ stages start dest := by
  cases walked with
  | outside => contradiction
  | blocked inside split vain =>
    obtain ⟨place, listed, call⟩ := vain.look_cut mem
    rw [split, call]
    exact ⟨inside, List.mem_append_right _ (by simpa [Call.place] using listed)⟩
  | stopped inside split survey =>
    refine ⟨inside, ?_⟩
    rw [split]
    rcases List.mem_append.mp mem with looked | mem
    · obtain ⟨place, listed, call⟩ := survey.look looked
      rwa [call]
    · exact List.mem_append_right _ (place_mem_of_mem_stopped mem)
  | complete inside split survey =>
    refine ⟨inside, ?_⟩
    rw [split]
    rcases List.mem_append.mp mem with looked | mem
    · obtain ⟨place, listed, call⟩ := survey.look looked
      rwa [call]
    · exact List.mem_append_right _ (place_mem_of_mem_created mem)

/-- What a walk may ask and answer is just what `Walked` lists, for the directories above a file
too; nothing at or above the start is asked about, and every place the walk is cut at is a
position of the destination. -/
theorem walk_trace (start dest file : String) (mode : UInt32) :
    (∀ calls r, Transcript (ensure start dest mode) calls r ↔ Walked start dest mode calls r) ∧
    (∀ calls r, Transcript (ensureParent start file mode) calls r ↔
      ('/' ∉ file.toList ∧ calls = [] ∧
        r = .error (.input s!"path '{file}' has no parent directory")) ∨
      ∃ parent name, Path.Splits file parent name ∧
        Walked start parent (mode ||| 0o110) calls r) ∧
    (∀ calls r, Transcript (ensure start dest mode) calls r →
      ∀ x ∈ calls, Path.Above (trim start) x.call.place) ∧
    (trim start ∈ boundaries (trim dest) → ∀ place ∈ trim start :: stages start dest,
      place.rawEndPos.IsValid (trim dest) ∧
        (place = trim dest ∨ (place ++ "/").rawEndPos.IsValid (trim dest))) := by
  refine ⟨fun _ _ => transcript_ensure_iff, fun _ _ => transcript_ensureParent_iff, ?_, ?_⟩
  · intro calls r transcript x mem
    obtain ⟨inside, staged⟩ := (transcript_ensure_iff.mp transcript).place_mem mem
    exact List.rel_of_pairwise_cons (stages_descend inside) staged
  · intro inside place mem
    refine Path.isValid_of_mem_boundaries ?_
    rcases List.mem_cons.mp mem with rfl | mem
    · exact inside
    · exact (List.mem_filter.mp mem).1

/-- The name between two slashes may be empty, and a name may be longer than its letters. -/
theorem walk_trace_doubled_slash : Transcript (ensure "/v/" "/v//é/b" 0o750)
    [⟨.stat "/v//é/b", .error (.system .noEntry)⟩, ⟨.stat "/v//é", .error (.system .accessDenied)⟩,
      ⟨.stat "/v/", .ok ⟨true, 0⟩⟩, ⟨.mkdir "/v//é" 0o750, .ok ()⟩,
      ⟨.mkdir "/v//é/b" 0o750, .error (.system .exists)⟩]
    (.error (.fileOperation "mkdir" "/v//é/b" "File exists (os error 17)")) := by
  have vain : InVain ["/v//é/b", "/v//é"]
      [⟨.stat "/v//é/b", .error (.system .noEntry)⟩,
        ⟨.stat "/v//é", .error (.system .accessDenied)⟩] :=
    .cons ⟨_, rfl⟩ (.cons ⟨_, rfl⟩ .nil)
  have survey : Survey ([] ++ ["/v/"]) (["/v//é"] ++ "/v//é/b" :: [])
      (_ ++ [⟨.stat "/v/", .ok ⟨true, 0⟩⟩]) := .directory vain rfl
  have walked : Walked "/v/" "/v//é/b" 0o750 _
      (.error (.fileOperation "mkdir" "/v//é/b" (IoError.system .exists).message)) :=
    .stopped (by decide) (by decide) survey
  exact ((walk_trace "/v/" "/v//é/b" "" 0o750).1 _ _).mpr walked

end DataGrid.Directory
