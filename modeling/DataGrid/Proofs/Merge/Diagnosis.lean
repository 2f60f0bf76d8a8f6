import DataGrid.Proofs.Merge.Destination
import DataGrid.Proofs.Merge.Discipline
import DataGrid.Proofs.Merge.World

/-! What the result of a merge tells about the call that failed, whatever a catalog and hosts of
any kind answer. A failed call either ends the merge or is passed over, and then something else
is asked. The failure that ends a merge names the step of the call and keeps its status; but
collections are created by way of a directory walk, and the walk has a status of its own for
whatever could not be created. -/
namespace DataGrid.Merge
open Dialogue (Exchange Keeps)

/-- The status of the failure that was answered. -/
def failure? : Exchange interface → Option Int32
  | ⟨.inl _, .error f⟩ => some f.status
  | ⟨.inr _, .error f⟩ => some f.status
  | _ => none

/-- The status of a directory walk that could not make a directory. -/
def notCreated : Int32 := -1500

/-- The status that a merge reports for a failure of the call. -/
def reported (status : Int32) : interface.Call → Int32
  | .inl (.makeCollection _) => notCreated
  | _ => status

/-- The result is an error that names the step of the call. -/
def Diagnosed (r : Except Error α) (e : Exchange interface) (status : Int32) : Prop :=
  ∃ error, r = .error error ∧ error.step? = some (stepOf e.call) ∧
    error.status = reported status e.call

/-- So far no call has failed, but for failures that are passed over. -/
def PassedOver (master : String) (past : List (Exchange interface)) : Prop :=
  ∀ e ∈ past.getLast?, Failed e → Tolerated master e

/-- The last call has not failed. -/
def Unfailed (past : List (Exchange interface)) : Prop := ∀ e ∈ past.getLast?, ¬ Failed e

/-- If the last call has failed, the result tells so. -/
def Told (r : Except Error α) (past : List (Exchange interface)) : Prop :=
  ∀ e ∈ past.getLast?, ∀ status, status < 0 → failure? e = some status → Diagnosed r e status

/-- From here on no failure but those that are passed over is followed by a call, and one at the
end is told. -/
def Tells (master : String) (x : Attempt α) (past : List (Exchange interface)) : Prop :=
  x.run.Keeps (fun past _ => PassedOver master past) Told past

variable {α β σ : Type} {master : String} {past : List (Exchange interface)} {status : Int32}

theorem failed_of_failure {e : Exchange interface} (h : failure? e = some status) : Failed e := by
  obtain ⟨c | q, f | a⟩ := e
  · exact ⟨f, rfl⟩
  · contradiction
  · exact ⟨f, rfl⟩
  · contradiction

theorem unfailed_told {c : Catalog.Call} {a : c.Result} : Unfailed (past ++ [told c a]) := by
  simpa [Unfailed] using not_failed_told

theorem unfailed_ran {q : Remote.Request} {out : Remote.Output} :
    Unfailed (past ++ [ran q out]) := by
  simpa [Unfailed] using not_failed_ran

theorem Unfailed.passedOver (h : Unfailed past) : PassedOver master past :=
  fun e last failed => absurd failed (h e last)

theorem Unfailed.told (h : Unfailed past) (r : Except Error α) : Told r past :=
  fun e last _ _ failed => absurd (failed_of_failure failed) (h e last)

/-! Steps that fail for good. -/

theorem status_toError {f : Catalog.Failure} {step : Step} {target : String}
    (negative : f.status < 0) : (f.toError step target).status = f.status :=
  if_pos negative

theorem status_remote {f : Remote.Failure} {step : Step} {q : Remote.Request}
    (negative : f.status < 0) : (f.toError step q).status = f.status :=
  if_pos negative

/-- A call of the catalog is told or followed by the rest. -/
theorem ask_tells {step : Step} {target : String} {c : Catalog.Call} {f : c.Result → Attempt β}
    (clear : PassedOver master past) (named : stepOf (.inl c) = step)
    (kept : ∀ status, reported status (.inl c) = status)
    (rest : ∀ a, Tells master (f a) (past ++ [told c a])) :
    Tells master (ask step target c >>= f) past := by
  refine ⟨clear, ?_⟩
  rintro (e | a)
  · intro x last status negative failed
    obtain rfl : ⟨.inl c, .error e⟩ = x := by simpa using last
    cases failed
    refine ⟨_, rfl, congrArg some named.symm, ?_⟩
    rw [kept]
    exact status_toError negative
  · exact rest a

theorem command_tells {step : Step} {q : Remote.Request} {f : Unit → Attempt β}
    (clear : PassedOver master past) (named : stepOf (.inr q) = step)
    (rest : ∀ out, Tells master (f ()) (past ++ [ran q out])) :
    Tells master (command step q >>= f) past := by
  refine ⟨clear, ?_⟩
  rintro (e | out)
  · intro x last status negative failed
    obtain rfl : ⟨.inr q, .error e⟩ = x := by simpa using last
    cases failed
    exact ⟨_, rfl, congrArg some named.symm, status_remote negative⟩
  · exact rest out

/-- What is known without asking can be wrong only after a call that has not failed. -/
theorem known_tells {k : Except Error α} {f : α → Attempt β} (unfailed : Unfailed past)
    (rest : ∀ a, k = .ok a → Tells master (f a) past) : Tells master (known k >>= f) past := by
  cases k with
  | error e => exact unfailed.told (.error e)
  | ok a => exact rest a rfl

theorem link_tells {obj : String} (clear : PassedOver master past) :
    Tells master (link obj master) past := by
  unfold link
  refine ask_tells clear rfl (fun _ => rfl) fun copy => ?_
  refine ask_tells unfailed_told.passedOver rfl (fun _ => rfl) fun kept => ?_
  refine known_tells unfailed_told fun physical _ => ?_
  refine known_tells unfailed_told fun parts _ => ?_
  refine command_tells unfailed_told.passedOver rfl fun made => ?_
  refine command_tells unfailed_ran.passedOver rfl fun linked => ?_
  refine ask_tells unfailed_ran.passedOver rfl (fun _ => rfl) fun attached => ?_
  refine ask_tells unfailed_told.passedOver rfl (fun _ => rfl) fun gone => ?_
  exact unfailed_told.told _

theorem reconcile_tells (rules : Rules) {obj : String} (clear : PassedOver master past) :
    Tells master (reconcile rules obj master) past := by
  simp only [reconcile, knownChecksum, bind_assoc, pure_bind]
  refine ask_tells clear rfl (fun _ => rfl) fun own => ?_
  refine ask_tells unfailed_told.passedOver rfl (fun _ => rfl) fun kept => ?_
  split
  · split
    · exact link_tells unfailed_told.passedOver
    · refine ask_tells unfailed_told.passedOver rfl (fun _ => rfl) fun marked => ?_
      exact unfailed_told.told _
  · exact unfailed_told.told _

/-! The walk above the master path. -/

/-- An error of the walk tells of the creation that failed, and it passes all else over. -/
def WalkTold (master : String) : Except Error α → List (Exchange interface) → Prop
  | .ok _, past => PassedOver master past
  | .error error, past => ∀ e ∈ past.getLast?, Failed e →
      (∃ coll, e.call = .inl (.makeCollection coll)) ∧ error.status = notCreated

theorem Unfailed.walkTold (h : Unfailed past) (r : Except Error α) : WalkTold master r past := by
  cases r with
  | error e => exact fun e last failed => absurd failed (h e last)
  | ok a => exact h.passedOver

theorem passedOver_append {e : Exchange interface} (h : Failed e → Tolerated master e) :
    PassedOver master (past ++ [e]) := by
  simpa [PassedOver] using h

/-- What is found above the master path is an answer; to find nothing may be a failure that is
passed over. -/
theorem look_tells {path : String} (above : Path.Above path master)
    (clear : PassedOver master past) :
    (onCatalog (Catalog.look path)).Keeps (fun past _ => PassedOver master past)
      (fun found past => PassedOver master past ∧ ∀ st, found = .ok st → Unfailed past) past := by
  refine ⟨clear, ?_⟩
  rintro (e | found)
  · refine ⟨passedOver_append fun _ => above, ?_⟩
    rintro st ⟨⟩
  cases found with
  | true => exact ⟨unfailed_told.passedOver, fun _ _ => unfailed_told⟩
  | false =>
    refine ⟨unfailed_told.passedOver, ?_⟩
    rintro (e | id)
    · refine ⟨passedOver_append fun _ => .inl above, ?_⟩
      rintro st ⟨⟩
    · cases id with
      | none => exact ⟨unfailed_told.passedOver, fun _ _ => unfailed_told⟩
      | some id => exact ⟨unfailed_told.passedOver, fun _ _ => unfailed_told⟩

theorem survey_tells {places : List String} (above : ∀ d ∈ places, Path.Above d master)
    (missing : List String) (clear : PassedOver master past) :
    (onCatalog (Catalog.onCollections (Directory.survey places missing))).Keeps
      (fun past _ => PassedOver master past) (WalkTold master) past := by
  induction places generalizing missing past with
  | nil => exact clear
  | cons d ds ih =>
    rw [Directory.survey, onCollections_ask]
    apply (look_tells (above d List.mem_cons_self) clear).bind
    rintro (e | st) past' ⟨clear, found⟩
    · exact ih (fun d' hd' => above d' (List.mem_cons_of_mem d hd')) (d :: missing) clear
    · exact (found st rfl).walkTold _

theorem create_tells {mode : UInt32} (places : List String) (count : Nat)
    (clear : PassedOver master past) :
    (onCatalog (Catalog.onCollections (Directory.create mode places count))).Keeps
      (fun past _ => PassedOver master past) (WalkTold master) past := by
  induction places generalizing count past with
  | nil => exact clear
  | cons d ds ih =>
    rw [Directory.create, onCollections_ask]
    refine ⟨clear, ?_⟩
    rintro (e | made)
    · intro x last failed
      obtain rfl : ⟨.inl (.makeCollection d), .error e⟩ = x := by simpa using last
      exact ⟨⟨d, rfl⟩, rfl⟩
    · exact ih (count + 1) unfailed_told.passedOver

/-- What making room ends with: an error tells of the creation that failed, and success leaves
nothing but what is passed over. -/
def Roomed (master : String) : Except Error Unit → List (Exchange interface) → Prop
  | .ok _, past => PassedOver master past
  | .error error, past => Told (.error error : Except Error Outcome) past

theorem makeRoom_tells {obj current coll : String} (rules : Rules)
    (hpath : destination obj current coll = .ok master) (clear : PassedOver master past) :
    (makeRoom rules master).run.Keeps (fun past _ => PassedOver master past) (Roomed master)
      past := by
  obtain ⟨parent, leaf, route, split, found⟩ := exists_route_of_destination hpath
  have above : ∀ d ∈ route.reverse, Path.Above d master := fun d hd =>
    Path.above_of_mem_route found split d (List.mem_reverse.mp hd)
  have walk : (onCatalog (Catalog.onCollections (Directory.ensureParent (firstSegment master)
      master rules.directoryMode))).Keeps (fun past _ => PassedOver master past)
      (WalkTold master) past := by
    simp only [Directory.ensureParent, Directory.parentAndName, split, Directory.ensure_eq, found,
      onCatalog, Catalog.onCollections, Dialogue.left, Dialogue.translate_bind]
    apply (survey_tells above [] clear).bind
    rintro (e | missing) past' told
    · exact told
    · exact create_tells missing 0 told
  apply walk.bind
  rintro (e | n) past' told
  · intro x last status negative failed
    obtain ⟨⟨coll, call⟩, lost⟩ := told x last (failed_of_failure failed)
    refine ⟨_, rfl, by rw [call]; rfl, ?_⟩
    rw [call, Error.status, lost]
    rfl
  · exact told

theorem move_tells {obj current coll : String} (rules : Rules)
    (hpath : destination obj current coll = .ok master) (clear : PassedOver master past) :
    Tells master (move rules obj master) past := by
  apply (makeRoom_tells rules hpath clear).attempt_bind
  · exact fun e past' told => told
  · intro u past' clear
    refine ask_tells clear rfl (fun _ => rfl) fun moved => ?_
    exact unfailed_told.told _

theorem object_tells (rules : Rules) {obj current coll : String}
    (hpath : destination obj current coll = .ok master) :
    Tells master (object rules obj current coll) [] := by
  have start : Unfailed [] := fun e last => by simp at last
  unfold object
  rw [hpath]
  refine known_tells start fun path known => ?_
  cases known
  refine ⟨start.passedOver, ?_⟩
  rintro (e | id)
  · cases e with
    | noRows => exact move_tells rules hpath (passedOver_append fun _ => .inr ⟨rfl, rfl⟩)
    | failed status message =>
      intro x last status' negative failed
      obtain rfl : ⟨.inl (.identify master), .error (.failed status message)⟩ = x := by
        simpa using last
      cases failed
      exact ⟨_, rfl, rfl, status_toError negative⟩
  · cases id with
    | none => exact move_tells rules hpath unfailed_told.passedOver
    | some number => exact reconcile_tells rules unfailed_told.passedOver

/-- Against any catalog and any hosts, a call that fails with a negative status either is the last,
and then the result names its step and has its status, only that of a creation is lost; or it is
one of those that are passed over, and more is asked. -/
theorem failure_diagnosed (serve : Server σ interface) (s : σ) (rules : Rules)
    (obj current coll : String) {before after : List (Exchange interface)}
    {e : Exchange interface} {status : Int32} (negative : status < 0)
    (failed : failure? e = some status)
    (asked : (object rules obj current coll).run.exchanges serve s = before ++ e :: after) :
    after = [] ∧ Diagnosed ((object rules obj current coll).run.run serve s).1 e status ∨
      after ≠ [] ∧ ∃ master, destination obj current coll = .ok master ∧ Tolerated master e := by
  cases hpath : destination obj current coll with
  | error lost =>
    rw [object_of_error rules hpath, Dialogue.exchanges] at asked
    simp at asked
  | ok master =>
    obtain ⟨clear, tells⟩ := (object_tells rules hpath).exchanges serve s
    simp only [List.nil_append] at clear tells
    cases after with
    | nil =>
      rw [asked] at tells
      exact .inl ⟨rfl, tells e (by simp) status negative failed⟩
    | cons next rest =>
      have passed := clear (before ++ [e]) next rest (by simp [asked])
      exact .inr ⟨List.cons_ne_nil _ _, master, rfl,
        passed e (by simp) (failed_of_failure failed)⟩

namespace Sample

/-- The merge of `/z/c/x` into `/z/m`, with copies at the paths and a step that is made to fail:
what is exchanged, and the result. -/
def failing (paths : List String) (step : Step) (status : Int32) :
    List (Exchange interface) × Except Error Outcome :=
  let merge := (object .usual "/z/c/x" "/z/c" "/z/m").run
  let start := ((catalog paths).withFailure step status, ())
  (merge.exchanges (world willing) start, (merge.run (world willing) start).1)

end Sample

/-- The unlinking fails after a replica has been registered. -/
theorem unlinking_diagnosed : ∃ before e, e.call = .inl (.remove "/z/c/x" true) ∧
    failure? e = some (-13000) ∧
    (Sample.failing ["/z/c/x", "/z/m/x"] .unlink (-13000)).1 = before ++ [e] ∧
    Diagnosed (Sample.failing ["/z/c/x", "/z/m/x"] .unlink (-13000)).2 e (-13000) := by
  let before := (Sample.failing ["/z/c/x", "/z/m/x"] .unlink (-13000)).1.take 8
  let e : Exchange interface :=
    ⟨.inl (.remove "/z/c/x" true), .error (.failed (-13000) "injected unlink failure")⟩
  have asked : (Sample.failing ["/z/c/x", "/z/m/x"] .unlink (-13000)).1 = before ++ [e] := rfl
  refine ⟨before, e, rfl, rfl, asked, ?_⟩
  rcases failure_diagnosed (world Sample.willing)
    ((Sample.catalog ["/z/c/x", "/z/m/x"]).withFailure .unlink (-13000), ()) .usual
    "/z/c/x" "/z/c" "/z/m" (by decide) (show failure? e = some (-13000) from rfl) asked
    with ⟨-, told⟩ | ⟨more, -⟩
  · exact told
  · exact absurd rfl more

/-- The creation of a collection fails, and its status is not the one reported. -/
theorem creation_status_lost :
    (Sample.failing ["/z/c/x"] .collCreate (-830000)).1.getLast?.map
      (fun e => (e.call, failure? e)) = some (.inl (.makeCollection "/z/m"), some (-830000)) ∧
    (Sample.failing ["/z/c/x"] .collCreate (-830000)).2.mapError
      (fun e => (e.step?, e.status)) = .error (some .collCreate, -1500) := by
  decide +kernel

end DataGrid.Merge
