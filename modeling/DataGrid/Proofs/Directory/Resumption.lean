import DataGrid.Proofs.Directory.Walk
import Mathlib.Data.Set.Insert

/-! Walks that are taken up again. On a driver that keeps a set of directories, what is missing of
a route is what comes after the longest stage that is there. An attempt makes a beginning of what
is missing and leaves the rest missing, so however many attempts have failed on the way, together
they make each missing directory once and in order. -/
namespace DataGrid.Directory
open Dialogue (Exchange Runs Served runs_iff served_nil_iff served_cons_iff served_append_iff)
open DataGrid.Path (trim boundaries)

/-- The driver tells a directory by its membership in a set, adds what it makes and adds nothing
when it fails to. When it fails is left open. -/
structure Keeps {σ : Type} (serve : Server σ interface) (dirs : σ → Set String) : Prop where
  there {place : String} {s : σ} (mem : place ∈ dirs s) :
    ∃ st, (serve (.stat place) s).1 = .ok st ∧ st.isDir = true
  absent {place : String} {s : σ} (missing : place ∉ dirs s) :
    ∃ e, (serve (.stat place) s).1 = .error e
  looked (place : String) (s : σ) : dirs (serve (.stat place) s).2 = dirs s
  added {place : String} {mode : UInt32} {s : σ} (ok : (serve (.mkdir place mode) s).1 = .ok ()) :
    dirs (serve (.mkdir place mode) s).2 = insert place (dirs s)
  unchanged {place : String} {mode : UInt32} {s : σ} {e : IoError}
    (failed : (serve (.mkdir place mode) s).1 = .error e) :
    dirs (serve (.mkdir place mode) s).2 = dirs s

/-- The directories that the calls have made, in order. -/
def made (calls : List (Exchange interface)) : List String :=
  calls.filterMap fun
    | ⟨.mkdir place _, .ok ()⟩ => some place
    | _ => none

/-- No creation among the calls has failed. -/
def Smooth (calls : List (Exchange interface)) : Prop :=
  ∀ place mode e, ⟨.mkdir place mode, .error e⟩ ∉ calls

/-- One walk after another with the same arguments, whether they fail or not, and all that is
exchanged meanwhile. -/
inductive Attempts {σ : Type} (serve : Server σ interface) (start dest : String) (mode : UInt32) :
    σ → List (Exchange interface) → σ → Prop
  | none (s : σ) : Attempts serve start dest mode s [] s
  | more {s mid s' : σ} {before calls : List (Exchange interface)} {r : Except Error Nat}
      (earlier : Attempts serve start dest mode s before mid)
      (attempt : Runs serve (ensure start dest mode) mid calls r s') :
      Attempts serve start dest mode s (before ++ calls) s'

/-- What is missing of a route: all that comes after the longest stage that is there. -/
def Missing (dirs : Set String) (route missing : List String) : Prop :=
  ∃ known, route = known ++ missing ∧ (∀ place ∈ missing, place ∉ dirs) ∧
    ∀ place ∈ known.getLast?, place ∈ dirs

variable {σ : Type} {serve : Server σ interface} {dirs : σ → Set String} {s s' : σ}
  {start dest : String} {mode : UInt32} {known missing places route : List String}
  {before calls looks : List (Exchange interface)}

theorem made_append (xs ys : List (Exchange interface)) : made (xs ++ ys) = made xs ++ made ys :=
  List.filterMap_append ..

theorem made_created (mode : UInt32) (places : List String) :
    made (places.map (created mode)) = places := by
  induction places with
  | nil => rfl
  | cons place places ih => exact congrArg (place :: ·) ih

theorem InVain.made_eq_nil (vain : InVain places looks) : made looks = [] := by
  induction vain with
  | nil => rfl
  | cons first _ ih =>
    obtain ⟨e, rfl⟩ := first
    exact ih

theorem Survey.made_eq_nil (survey : Survey known missing looks) : made looks = [] := by
  cases survey with
  | nothing vain => exact vain.made_eq_nil
  | directory vain =>
    rw [made_append, vain.made_eq_nil]
    rfl

/-! What is missing. -/

/-- The cut of a route into what is there and what is missing is determined by the set. -/
theorem Missing.unique {D : Set String} {missing' : List String} (h : Missing D route missing)
    (h' : Missing D route missing') : missing = missing' := by
  obtain ⟨known, split, gone, last⟩ := h
  obtain ⟨known', split', gone', last'⟩ := h'
  -- A stage between the two cuts would be the last one there and missing.
  have between {known known' missing more : List String} (gone : ∀ place ∈ missing, place ∉ D)
      (last : ∀ place ∈ known'.getLast?, place ∈ D) (longer : known' = known ++ more)
      (first : ∀ place ∈ more, place ∈ missing) : more = [] := by
    cases tail : more.getLast? with
    | none => exact List.getLast?_eq_none_iff.mp tail
    | some place =>
      refine absurd (last place ?_) (gone place (first place (List.mem_of_getLast? tail)))
      rw [longer, List.getLast?_append, tail]
      rfl
  rcases List.append_eq_append_iff.mp (split.symm.trans split') with
    ⟨more, longer, cut⟩ | ⟨more, longer, cut⟩
  · rw [cut, between gone last' longer (by simp +contextual [cut]), List.nil_append]
  · rw [cut, between gone' last longer (by simp +contextual [cut]), List.nil_append]

/-- With a beginning of what is missing made, the rest of it is missing. -/
theorem Missing.advance {D : Set String} {first rest : List String}
    (h : Missing D route (first ++ rest)) (once : route.Nodup) :
    Missing (D ∪ {place | place ∈ first}) route rest := by
  obtain ⟨known, rfl, gone, last⟩ := h
  refine ⟨known ++ first, by simp, ?_, ?_⟩
  · rintro place mem (there | twice)
    · exact gone place (List.mem_append_right _ mem) there
    · exact List.disjoint_of_nodup_append (List.Nodup.of_append_right once) twice mem
  · intro place mem
    rw [List.getLast?_append] at mem
    cases tail : first.getLast? with
    | none =>
      rw [tail] at mem
      exact .inl (last place mem)
    | some other =>
      rw [tail] at mem
      obtain rfl : other = place := by simpa using mem
      exact .inr (List.mem_of_getLast? tail)

namespace Keeps

/-! What the parts of a walk tell of the set, and do to it. -/

theorem found {place : String} {st : FileStatus} (keeps : Keeps serve dirs)
    (ok : (serve (.stat place) s).1 = .ok st) : place ∈ dirs s ∧ st.isDir = true := by
  by_cases mem : place ∈ dirs s
  · obtain ⟨st', ok', isDir⟩ := keeps.there mem
    obtain rfl := Except.ok.inj (ok.symm.trans ok')
    exact ⟨mem, isDir⟩
  · obtain ⟨e, failed⟩ := keeps.absent mem
    exact absurd (ok.symm.trans failed) (by simp)

theorem inVain (keeps : Keeps serve dirs) (vain : InVain places looks)
    (served : Served serve s looks s') : (∀ place ∈ places, place ∉ dirs s) ∧ dirs s' = dirs s := by
  induction vain generalizing s with
  | nil =>
    cases served
    exact ⟨by simp, rfl⟩
  | @cons place x places looks first _ ih =>
    obtain ⟨e, rfl⟩ := first
    obtain ⟨failed, rest⟩ := served_cons_iff.mp served
    obtain ⟨gone, same⟩ := ih rest
    rw [keeps.looked] at gone same
    refine ⟨List.forall_mem_cons.mpr ⟨?_, gone⟩, same⟩
    intro mem
    obtain ⟨st, ok, -⟩ := keeps.there mem
    rw [failed] at ok
    contradiction

theorem survey (keeps : Keeps serve dirs) (survey : Survey known missing looks)
    (served : Served serve s looks s') :
    Missing (dirs s) (known ++ missing) missing ∧ dirs s' = dirs s := by
  cases survey with
  | nothing vain =>
    obtain ⟨gone, same⟩ := keeps.inVain vain served
    exact ⟨⟨[], rfl, by simpa using gone, by simp⟩, same⟩
  | @directory known missing looks place st vain isDir =>
    obtain ⟨mid, first, last⟩ := served_append_iff.mp served
    obtain ⟨gone, same⟩ := keeps.inVain vain first
    obtain ⟨ok, last⟩ := served_cons_iff.mp last
    obtain rfl := served_nil_iff.mp last
    rw [keeps.looked, same]
    refine ⟨⟨known ++ [place], rfl, by simpa using gone, ?_⟩, rfl⟩
    simp only [List.getLast?_append, List.getLast?_singleton, Option.some_or, Option.mem_some_iff]
    rintro _ rfl
    rw [← same]
    exact (keeps.found ok).1

theorem creations (keeps : Keeps serve dirs)
    (served : Served serve s (places.map (created mode)) s') :
    dirs s' = dirs s ∪ {place | place ∈ places} := by
  induction places generalizing s with
  | nil =>
    cases served
    simp
  | cons place places ih =>
    obtain ⟨ok, rest⟩ := served_cons_iff.mp served
    have inserted : dirs (serve (.mkdir place mode) s).2 = insert place (dirs s) := keeps.added ok
    calc dirs s' = dirs (serve (.mkdir place mode) s).2 ∪ {place | place ∈ places} := ih rest
      _ = dirs s ∪ {other | other ∈ place :: places} := by
        rw [inserted]
        ext other
        simp [or_assoc, or_left_comm]

/-- An attempt makes a beginning of what is missing, all of it if no creation fails, and tries to
make nothing else. -/
theorem attempt {r : Except Error Nat} (keeps : Keeps serve dirs)
    (inside : trim start ∈ boundaries (trim dest))
    (run : Runs serve (ensure start dest mode) s calls r s') :
    ∃ left, Missing (dirs s) (stages start dest) (made calls ++ left) ∧
      dirs s' = dirs s ∪ {place | place ∈ made calls} ∧
      (Smooth calls → left = [] ∧ r = .ok (made calls).length) ∧
      ∀ x ∈ calls, (∃ place, x.call = .stat place) ∨ x.call.place ∈ made calls ++ left := by
  obtain ⟨transcript, served⟩ := runs_iff.mp run
  cases transcript_ensure_iff.mp transcript with
  | outside apart => exact absurd inside apart
  | @blocked known missing looks place st _ split vain file =>
    obtain ⟨mid, first, last⟩ := served_append_iff.mp served
    obtain ⟨ok, -⟩ := served_cons_iff.mp last
    exact absurd (keeps.found ok).2 (by simp [file])
  | @stopped known some left looks place e _ split survey =>
    obtain ⟨mid, first, rest⟩ := served_append_iff.mp served
    obtain ⟨cut, same⟩ := keeps.survey survey first
    obtain ⟨last, middle, rest⟩ := served_append_iff.mp rest
    obtain ⟨failed, rest⟩ := served_cons_iff.mp rest
    obtain rfl := served_nil_iff.mp rest
    have all : made (looks ++ (some.map (created mode) ++
        [⟨.mkdir place mode, .error e⟩])) = some := by
      rw [made_append, made_append, survey.made_eq_nil, made_created]
      exact List.append_nil some
    refine ⟨place :: left, by rwa [all, split], ?_, ?_, ?_⟩
    · have kept : dirs (serve (.mkdir place mode) last).2 = dirs last := keeps.unchanged failed
      rw [all, ← same, ← keeps.creations middle]
      exact kept
    · intro smooth
      exact absurd (by simp) (smooth place mode e)
    · rw [all]
      intro x mem
      rcases List.mem_append.mp mem with looked | mem
      · obtain ⟨place, -, call⟩ := survey.look looked
        exact .inl ⟨place, call⟩
      · exact .inr (place_mem_of_mem_stopped mem)
  | @complete known missing looks _ split survey =>
    obtain ⟨mid, first, rest⟩ := served_append_iff.mp served
    obtain ⟨cut, same⟩ := keeps.survey survey first
    have all : made (looks ++ missing.map (created mode)) = missing := by
      rw [made_append, survey.made_eq_nil, made_created, List.nil_append]
    rw [all]
    refine ⟨[], by rwa [List.append_nil, split], ?_, fun _ => ⟨rfl, rfl⟩, ?_⟩
    · rw [← same, keeps.creations rest]
    · intro x mem
      rcases List.mem_append.mp mem with looked | mem
      · obtain ⟨place, -, call⟩ := survey.look looked
        exact .inl ⟨place, call⟩
      · exact .inr (by simpa using place_mem_of_mem_created mem)

/-- Attempts, however they end, together make a beginning of what is missing. -/
theorem attempts (keeps : Keeps serve dirs) (inside : trim start ∈ boundaries (trim dest))
    (cut : Missing (dirs s) (stages start dest) missing)
    (run : Attempts serve start dest mode s before s') :
    ∃ left, missing = made before ++ left ∧ Missing (dirs s') (stages start dest) left ∧
      dirs s' = dirs s ∪ {place | place ∈ made before} := by
  induction run with
  | none => exact ⟨missing, rfl, cut, by simp [made]⟩
  | more earlier attempt ih =>
    obtain ⟨left, rfl, here, grown⟩ := ih
    obtain ⟨rest, there, more, -⟩ := keeps.attempt inside attempt
    obtain rfl := here.unique there
    refine ⟨rest, by rw [made_append, List.append_assoc], ?_, ?_⟩
    · rw [more]
      exact here.advance (stages_nodup start dest)
    · rw [more, grown, made_append]
      ext place
      simp [or_assoc]

/-! Where nothing is missing. -/

theorem idle_attempt {r : Except Error Nat} (keeps : Keeps serve dirs)
    (inside : trim start ∈ boundaries (trim dest)) (whole : Missing (dirs s) (stages start dest) [])
    (run : Runs serve (ensure start dest mode) s calls r s') :
    r = .ok 0 ∧ (∀ x ∈ calls, ∃ place, x.call = .stat place) ∧ dirs s' = dirs s := by
  obtain ⟨left, cut, grown, full, only⟩ := keeps.attempt inside run
  obtain ⟨none, rfl⟩ := List.append_eq_nil_iff.mp (whole.unique cut).symm
  have looks (x : Exchange interface) (mem : x ∈ calls) : ∃ place, x.call = .stat place := by
    refine (only x mem).resolve_right ?_
    rw [none]
    simp
  have smooth : Smooth calls := by
    intro place mode e mem
    obtain ⟨_, call⟩ := looks _ mem
    exact Call.noConfusion call
  refine ⟨?_, looks, ?_⟩
  · rw [(full smooth).2, none]
    rfl
  · rw [grown, none]
    simp

theorem idle_attempts (keeps : Keeps serve dirs) (inside : trim start ∈ boundaries (trim dest))
    (whole : Missing (dirs s) (stages start dest) [])
    (run : Attempts serve start dest mode s before s') : dirs s' = dirs s := by
  induction run with
  | none => rfl
  | more earlier attempt ih =>
    rw [← ih] at whole ⊢
    exact (keeps.idle_attempt inside whole attempt).2.2

end Keeps

/-- The attempts that come before a smooth one only anticipate it. -/
theorem resumption {σ τ : Type} {serve : Server σ interface} {dirs : σ → Set String}
    {serve' : Server τ interface} {dirs' : τ → Set String} {start dest : String} {mode : UInt32}
    {s mid after : σ} {s' after' : τ} {before last clean : List (Exchange interface)}
    {r r' : Except Error Nat} (keeps : Keeps serve dirs) (keeps' : Keeps serve' dirs')
    (same : dirs s = dirs' s') (inside : trim start ∈ boundaries (trim dest))
    (earlier : Attempts serve start dest mode s before mid)
    (resumed : Runs serve (ensure start dest mode) mid last r after) (smooth : Smooth last)
    (single : Runs serve' (ensure start dest mode) s' clean r' after') (smooth' : Smooth clean) :
    r = .ok (made last).length ∧ r' = .ok (made clean).length ∧
    made before ++ made last = made clean ∧ (made clean).Nodup ∧ dirs after = dirs' after' ∧
    ∀ more later again r'' final, Attempts serve start dest mode after more later →
      Runs serve (ensure start dest mode) later again r'' final →
      r'' = .ok 0 ∧ (∀ x ∈ again, ∃ place, x.call = .stat place) ∧ dirs final = dirs after := by
  obtain ⟨_, whole, grown', full', -⟩ := keeps'.attempt inside single
  obtain ⟨rfl, ends'⟩ := full' smooth'
  rw [List.append_nil, ← same] at whole
  obtain ⟨left, parts, here, grown⟩ := keeps.attempts inside whole earlier
  obtain ⟨_, there, more, full, -⟩ := keeps.attempt inside resumed
  obtain ⟨rfl, ends⟩ := full smooth
  rw [List.append_nil] at there
  obtain rfl := here.unique there
  have done : Missing (dirs after) (stages start dest) [] := by
    rw [more]
    refine Missing.advance ?_ (stages_nodup start dest)
    rwa [List.append_nil]
  refine ⟨ends, ends', parts.symm, ?_, ?_, ?_⟩
  · obtain ⟨known, split, -⟩ := whole
    exact List.Nodup.of_append_right (split ▸ stages_nodup start dest)
  · rw [more, grown, grown', parts, same]
    ext place
    simp [or_assoc]
  · intro more later again r'' final further run
    have still := keeps.idle_attempts inside done further
    rw [← still] at done ⊢
    exact keeps.idle_attempt inside done run

/-- A disk with a list of its directories, and a script that says which creations it refuses. -/
def scriptedDisk : Server (List String × List Bool) interface
  | .stat place, s => (if place ∈ s.1 then .ok ⟨true, 0⟩ else .error (.system .noEntry), s)
  | .mkdir _ _, (dirs, true :: script) => (.error (.system .accessDenied), dirs, script)
  | .mkdir place _, (dirs, script) => (.ok (), place :: dirs, script.tail)

def scriptedDirs (s : List String × List Bool) : Set String := {place | place ∈ s.1}

theorem keeps_scriptedDisk : Keeps scriptedDisk scriptedDirs where
  there mem := ⟨_, if_pos mem, rfl⟩
  absent missing := ⟨_, if_neg missing⟩
  looked _ _ := rfl
  added {place mode s} ok := by
    rcases s with ⟨dirs, _ | ⟨_ | _, script⟩⟩
    · ext other
      simp [scriptedDisk, scriptedDirs]
    · ext other
      simp [scriptedDisk, scriptedDirs]
    · simp [scriptedDisk] at ok
  unchanged {place mode s e} failed := by
    rcases s with ⟨dirs, _ | ⟨_ | _, script⟩⟩
    · simp [scriptedDisk] at failed
    · simp [scriptedDisk] at failed
    · rfl

/-- The directory that is there to begin with has no parent; of the two that are missing below
it, the first attempt makes one. -/
theorem resumption_below_stray : ∃ first mid last after clean after',
    Runs scriptedDisk (ensure "/v" "/v/a/b/c/d" 0o750) (["/v/a/b"], [false, true]) first
      (.error (.fileOperation "mkdir" "/v/a/b/c/d" "Permission denied (os error 13)")) mid ∧
    Runs scriptedDisk (ensure "/v" "/v/a/b/c/d" 0o750) mid last (.ok 1) after ∧
    Runs scriptedDisk (ensure "/v" "/v/a/b/c/d" 0o750) (["/v/a/b"], []) clean (.ok 2) after' ∧
    made first ++ made last = made clean := by
  have route : stages "/v" "/v/a/b/c/d" = ["/v/a", "/v/a/b", "/v/a/b/c", "/v/a/b/c/d"] := by
    decide
  have first : Runs scriptedDisk (ensure "/v" "/v/a/b/c/d" 0o750) (["/v/a/b"], [false, true])
      [⟨.stat "/v/a/b/c/d", .error (.system .noEntry)⟩,
        ⟨.stat "/v/a/b/c", .error (.system .noEntry)⟩, ⟨.stat "/v/a/b", .ok ⟨true, 0⟩⟩,
        ⟨.mkdir "/v/a/b/c" 0o750, .ok ()⟩,
        ⟨.mkdir "/v/a/b/c/d" 0o750, .error (.system .accessDenied)⟩]
      (.error (.fileOperation "mkdir" "/v/a/b/c/d" "Permission denied (os error 13)"))
      (["/v/a/b/c", "/v/a/b"], []) := by
    rw [ensure_of_mem (by decide), route]
    exact ⟨rfl, rfl⟩
  have last : Runs scriptedDisk (ensure "/v" "/v/a/b/c/d" 0o750) (["/v/a/b/c", "/v/a/b"], [])
      [⟨.stat "/v/a/b/c/d", .error (.system .noEntry)⟩, ⟨.stat "/v/a/b/c", .ok ⟨true, 0⟩⟩,
        ⟨.mkdir "/v/a/b/c/d" 0o750, .ok ()⟩]
      (.ok 1) (["/v/a/b/c/d", "/v/a/b/c", "/v/a/b"], []) := by
    rw [ensure_of_mem (by decide), route]
    exact ⟨rfl, rfl⟩
  have clean : Runs scriptedDisk (ensure "/v" "/v/a/b/c/d" 0o750) (["/v/a/b"], [])
      [⟨.stat "/v/a/b/c/d", .error (.system .noEntry)⟩,
        ⟨.stat "/v/a/b/c", .error (.system .noEntry)⟩, ⟨.stat "/v/a/b", .ok ⟨true, 0⟩⟩,
        ⟨.mkdir "/v/a/b/c" 0o750, .ok ()⟩, ⟨.mkdir "/v/a/b/c/d" 0o750, .ok ()⟩]
      (.ok 2) (["/v/a/b/c/d", "/v/a/b/c", "/v/a/b"], []) := by
    rw [ensure_of_mem (by decide), route]
    exact ⟨rfl, rfl⟩
  refine ⟨_, _, _, _, _, _, first, last, clean, ?_⟩
  have same : scriptedDirs (["/v/a/b"], [false, true]) = scriptedDirs (["/v/a/b"], []) := rfl
  exact (resumption keeps_scriptedDisk keeps_scriptedDisk same (by decide)
    (.more (.none _) first) last (by simp [Smooth]) clean (by simp [Smooth])).2.2.1

end DataGrid.Directory
