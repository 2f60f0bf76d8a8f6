import DataGrid.Merge.Object
import DataGrid.Proofs.Catalog.Walk
import DataGrid.Proofs.Dialogue

/-! A merge against a catalog in memory and hosts of any kind: the hosts may see the catalog and
have a state of their own, on which their answers may depend. Each call of the catalog either
succeeds as the catalog says or fails and leaves it as it was; no command changes it. -/
namespace DataGrid.Merge
open Catalog (Memory)
open Dialogue (run_attempt_bind_iff)
variable {τ α β : Type}

/-- Hosts that see the catalog and cannot change it. -/
abbrev Hosts (τ : Type) := Memory → Server τ Remote.interface

def Hosts.serve (hosts : Hosts τ) : Server (Memory × τ) Remote.interface :=
  fun r s => ((hosts s.1 r s.2).1, s.1, (hosts s.1 r s.2).2)

/-- The catalog and the hosts together. -/
def world (hosts : Hosts τ) : Server (Memory × τ) interface :=
  Server.sum (Server.beside Memory.serve) hosts.serve

/-- The attempt, begun in `s`, ends in `s'` with `r`. -/
def Ends (hosts : Hosts τ) (x : Attempt α) (s : Memory × τ) (r : Except Error α)
    (s' : Memory × τ) : Prop :=
  x.run.run (world hosts) s = (r, s')

variable {hosts : Hosts τ} {s s' : Memory × τ} {e : Error}

theorem ends_bind_iff {x : Attempt α} {f : α → Attempt β} {r : Except Error β} :
    Ends hosts (x >>= f) s r s' ↔
      (∃ e, Ends hosts x s (.error e) s' ∧ r = .error e) ∨
        ∃ a mid, Ends hosts x s (.ok a) mid ∧ Ends hosts (f a) mid r s' :=
  run_attempt_bind_iff

theorem ends_pure_iff {a : α} {r : Except Error α} :
    Ends hosts (pure a) s r s' ↔ r = .ok a ∧ s' = s := by
  simp [Ends, eq_comm]

theorem ends_known_iff {k r : Except Error α} : Ends hosts (known k) s r s' ↔ r = k ∧ s' = s := by
  simp [Ends, known, eq_comm]

/-- A call of the catalog succeeds as the catalog says, or fails and changes nothing. -/
theorem ends_ask_iff {step : Step} {target : String} {c : Catalog.Call}
    {r : Except Error c.Result} :
    Ends hosts (ask step target c) s r s' ↔
      (∃ a, s.1.answer c = .ok (a, s'.1) ∧ s'.2 = s.2 ∧ r = .ok a) ∨
        ∃ f, s.1.answer c = .error f ∧ s' = s ∧ r = .error (f.toError step target) := by
  have run : (ask step target c).run.run (world hosts) s =
      (((Memory.serve c s.1).1).mapError (·.toError step target), (Memory.serve c s.1).2, s.2) :=
    rfl
  rw [Ends, run, Memory.serve_eq_settle]
  cases h : s.1.answer c with
  | error f =>
    constructor
    · intro ends
      cases ends
      exact .inr ⟨f, rfl, rfl, rfl⟩
    · rintro (⟨a, ha, -, -⟩ | ⟨f', hf, rfl, rfl⟩)
      · contradiction
      · cases hf
        rfl
  | ok out =>
    obtain ⟨a, after⟩ := out
    constructor
    · intro ends
      cases ends
      exact .inl ⟨a, rfl, rfl, rfl⟩
    · rintro (⟨a', ha, ht, rfl⟩ | ⟨f, hf, -, -⟩)
      · cases ha
        exact Prod.ext rfl (Prod.ext rfl ht.symm)
      · contradiction

theorem ask_done {step : Step} {target : String} {c : Catalog.Call} {a : c.Result}
    (h : Ends hosts (ask step target c) s (.ok a) s') :
    s.1.answer c = .ok (a, s'.1) ∧ s'.2 = s.2 := by
  rcases ends_ask_iff.mp h with ⟨a', ha, hs, hr⟩ | ⟨f, -, -, hr⟩ <;> cases hr
  exact ⟨ha, hs⟩

theorem ask_failed {step : Step} {target : String} {c : Catalog.Call}
    (h : Ends hosts (ask step target c) s (.error e) s') : s' = s ∧ e.step? = some step := by
  rcases ends_ask_iff.mp h with ⟨a, -, -, hr⟩ | ⟨f, -, hs, hr⟩ <;> cases hr
  exact ⟨hs, rfl⟩

/-- A command leaves the catalog as it was. -/
theorem ends_command_iff {step : Step} {q : Remote.Request} {r : Except Error Unit} :
    Ends hosts (command step q) s r s' ↔
      s' = (s.1, (hosts s.1 q s.2).2) ∧
        r = (((hosts s.1 q s.2).1).mapError (·.toError step q)).map fun _ => () := by
  have run : (command step q).run.run (world hosts) s =
      ((((hosts s.1 q s.2).1).mapError (·.toError step q)).map fun _ => (),
        s.1, (hosts s.1 q s.2).2) :=
    rfl
  rw [Ends, run]
  constructor
  · intro ends
    cases ends
    exact ⟨rfl, rfl⟩
  · rintro ⟨rfl, rfl⟩
    rfl

theorem command_failed {step : Step} {q : Remote.Request}
    (h : Ends hosts (command step q) s (.error e) s') : s'.1 = s.1 ∧ e.step? = some step := by
  obtain ⟨rfl, hr⟩ := ends_command_iff.mp h
  rcases ha : (hosts s.1 q s.2).1 with f | out <;> rw [ha] at hr <;> cases hr
  exact ⟨rfl, rfl⟩

/-- What every call of the catalog preserves, an attempt preserves. -/
theorem Ends.preserves {P : Memory → Prop} {x : Attempt α} {r : Except Error α}
    (h : Ends hosts x s r s') (step : ∀ c m, P m → P (Memory.serve c m).2)
    (start : P s.1) : P s'.1 := by
  have answers (c : interface.Call) (s : Memory × τ) (hs : P s.1) : P (world hosts c s).2.1 := by
    cases c with
    | inl c => exact step c s.1 hs
    | inr q => exact hs
  have kept := Dialogue.run_preserves (fun s : Memory × τ => P s.1) answers x.run start
  rw [h] at kept
  exact kept

/-- What the collections are asked in the course of a walk is asked of the catalog alone. -/
theorem run_onCollections (d : Dialogue Directory.interface α) (s : Memory × τ) :
    (onCatalog (Catalog.onCollections d)).run (world hosts) s =
      ((d.run Memory.asDirectory s.1).1, (d.run Memory.asDirectory s.1).2, s.2) := by
  rw [onCatalog, world, Dialogue.run_left, Dialogue.run_beside, Catalog.onCollections,
    Dialogue.run_translate]
  rfl

/-! A small grid: one disk, one file on it, and hosts that carry out every command. -/
namespace Sample

def disk : Resource := ⟨"r", "/v", ⟨"h", "z", .here⟩, "z"⟩

def replica (path : String) : Replica := ⟨path, "/v/f", disk, some "c", 0, .good, "", 0, 0⟩

def catalog (paths : List String) : Memory :=
  paths.foldl (fun m path => (m.withReplica (replica path)).2) {}

def willing : Hosts Unit := fun _ _ t => (.ok {}, t)

end Sample
end DataGrid.Merge
