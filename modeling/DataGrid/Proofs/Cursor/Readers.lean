import DataGrid.Proofs.Catalog.Reachable
import DataGrid.Proofs.Cursor.Effect
import DataGrid.Proofs.Cursor.Plans
import Mathlib.Logic.Function.Basic
import Mathlib.Logic.Relation

/-! Many readers of one catalog in memory. Each owns a cursor and carries out one plan after the
other with it; between any two uses of a cursor the other readers use theirs and the catalog is
seeded, changed, made to fail or repaired. What keeps the readers apart is that every open cursor
waits at an index of its own, under which rows are left behind for it. -/
namespace DataGrid.Cursor
open Query
open Catalog (Memory)
open Catalog.Memory
open Dialogue (Exchange)

/-- An act with the catalog on which it happened. -/
structure Entry where
  catalog : Memory
  act : Act

/-- The owner of a cursor, with what it has done and what it has yet to do. -/
structure Reader where
  cursor : Cursor
  log : List Entry := []
  plan : Dialogue uses Unit := .done ()

/-- One catalog and its readers. -/
structure Shared (ι : Type) where
  catalog : Memory
  readers : ι → Reader

/-- A cursor as it is made, from conditions or from text. -/
inductive Fresh : Cursor → Prop
  | ofConditions (select : List String) (conditions : List Condition) {pageSize : Int32}
      (size : 0 < pageSize) : Fresh (.ofConditions select conditions pageSize)
  | ofText {query : String} {pageSize : Int32} {c : Cursor} (size : 0 < pageSize)
      (read : Cursor.ofText query pageSize = .ok c) : Fresh c

theorem Fresh.made {c : Cursor} (h : Fresh c) : c.stage = .idle ∧ 0 < c.pageSize := by
  cases h with
  | ofConditions select conditions size => exact ⟨rfl, size⟩
  | @ofText query pageSize c size read =>
    rw [Cursor.ofText] at read
    cases parsed : Query.parse query with
    | error e => rw [parsed] at read; cases read
    | ok found => rw [parsed] at read; cases read; exact ⟨rfl, size⟩

/-- What may happen to the catalog besides the readers' queries. -/
inductive Aside (m : Memory) : Memory → Prop
  | collection (coll : String) : Aside m (m.withCollection coll)
  | replica (r : Replica) : Aside m (m.withReplica r).2
  | failing (step : Step) (status : Int32) : Aside m (m.withFailure step status)
  | repaired : Aside m m.withoutFailures
  | call (c : Catalog.Call) : Aside m (serve c m).2

/-- Nothing but queries touches the rows that are left behind. -/
theorem Aside.untouched {m m' : Memory} (h : Aside m m') :
    m'.pending = m.pending ∧ m'.issued = m.issued := by
  cases h with
  | replica r =>
    simp only [withReplica]
    split <;> exact ⟨rfl, rfl⟩
  | call c =>
    have undisturbed := (change_of_serve c m).undisturbed
    exact ⟨undisturbed.pending, undisturbed.issued⟩
  | _ => exact ⟨rfl, rfl⟩

namespace Shared
variable {ι : Type} [DecidableEq ι] {s s' start : Shared ι} {i j : ι} {k : Int}

def stage (s : Shared ι) (i : ι) : Stage := (s.readers i).cursor.stage

/-- A reader takes up a plan. -/
def begin (s : Shared ι) (i : ι) (plan : Dialogue uses Unit) : Shared ι :=
  { s with readers := Function.update s.readers i { s.readers i with plan } }

/-- A reader uses its cursor and goes on with its plan. -/
def act (s : Shared ι) (i : ι) (u : Use)
    (next : Except Error u.Result × Cursor → Dialogue uses Unit) : Shared ι :=
  let r := s.readers i
  let ran := (r.cursor.perform u).run serveQuery s.catalog
  { catalog := ran.2
    readers := Function.update s.readers i
      ⟨ran.1.2, r.log ++ [⟨s.catalog, r.cursor.actOn u s.catalog⟩], next ran.1⟩ }

/-- Something happens beside the queries, a reader that is free begins an errand, or a reader uses
its cursor as its plan has it. -/
inductive Step : Shared ι → Shared ι → Prop
  | aside {s : Shared ι} {m' : Memory} (h : Aside s.catalog m') : Step s { s with catalog := m' }
  | begin {s : Shared ι} {i : ι} (plan : Dialogue uses Unit)
      (free : (s.readers i).plan = .done ())
      (errand : Errand (s.readers i).cursor (carryOut plan (s.readers i).cursor)) :
      Step s (s.begin i plan)
  | act {s : Shared ι} {i : ι} {u : Use}
      {next : Except Error u.Result × Cursor → Dialogue uses Unit}
      (due : (s.readers i).plan = .ask u next) : Step s (s.act i u next)

abbrev Run : Shared ι → Shared ι → Prop := Relation.ReflTransGen Step

/-- Fresh cursors, and a catalog that holds nothing for others. -/
structure Opening (s : Shared ι) : Prop where
  catalog : s.catalog.pending.isEmpty = true
  readers : ∀ i, ∃ c, Fresh c ∧ s.readers i = { cursor := c }

/-- Every open cursor waits at an index of its own, under which rows are left for it. -/
structure Coherent (s : Shared ι) : Prop where
  sized : ∀ i, 0 < (s.readers i).cursor.pageSize
  stocked : s.catalog.Stocked
  held : ∀ i k, s.stage i = .opened k → 0 < k ∧ k ∈ s.catalog.pending
  apart : ∀ i j k, s.stage i = .opened k → s.stage j = .opened k → i = j

omit [DecidableEq ι] in
theorem Opening.coherent (opening : Opening s) : Coherent s := by
  have idle (i : ι) : s.stage i = .idle ∧ 0 < (s.readers i).cursor.pageSize := by
    obtain ⟨c, fresh, made⟩ := opening.readers i
    rw [stage, made]
    exact fresh.made
  have none (k : Int) : k ∉ s.catalog.pending :=
    Std.TreeMap.isEmpty_iff_forall_not_mem.mp opening.catalog k
  refine ⟨fun i => (idle i).2, ⟨fun k hk => absurd hk (none k), fun k rows hk => ?_⟩, ?_, ?_⟩
  · exact absurd ((mem_pending_iff _ k).mpr ⟨rows, hk⟩) (none k)
  · intro i k opened
    rw [(idle i).1] at opened
    contradiction
  · intro i j k opened
    rw [(idle i).1] at opened
    contradiction

/-- A use of a reader's cursor has one of the effects that a use can have. -/
theorem Coherent.effect (h : Coherent s) (i : ι) (u : Use)
    (next : Except Error u.Result × Cursor → Dialogue uses Unit) :
    Effect s.catalog (s.readers i).cursor ((s.readers i).cursor.actOn u s.catalog)
      ((s.act i u next).stage i) (s.act i u next).catalog := by
  have held (k : Int) (opened : s.stage i = .opened k) :
      0 < k ∧ ∃ rows, s.catalog.pending[k]? = some rows := by
    obtain ⟨later, mem⟩ := h.held i k opened
    exact ⟨later, (mem_pending_iff _ k).mp mem⟩
  simpa [act, stage] using effect_of_use (h.sized i) held u

@[simp] theorem catalog_begin (s : Shared ι) (i : ι) (plan : Dialogue uses Unit) :
    (s.begin i plan).catalog = s.catalog := rfl

@[simp] theorem cursor_begin (s : Shared ι) (i j : ι) (plan : Dialogue uses Unit) :
    ((s.begin i plan).readers j).cursor = (s.readers j).cursor := by
  by_cases same : j = i
  · subst same
    simp [begin]
  · simp [begin, same]

@[simp] theorem log_begin (s : Shared ι) (i j : ι) (plan : Dialogue uses Unit) :
    ((s.begin i plan).readers j).log = (s.readers j).log := by
  by_cases same : j = i
  · subst same
    simp [begin]
  · simp [begin, same]

@[simp] theorem stage_begin (s : Shared ι) (i j : ι) (plan : Dialogue uses Unit) :
    (s.begin i plan).stage j = s.stage j := by
  simp [stage]

theorem log_act (s : Shared ι) (i : ι) (u : Use)
    (next : Except Error u.Result × Cursor → Dialogue uses Unit) :
    ((s.act i u next).readers i).log =
      (s.readers i).log ++ [⟨s.catalog, (s.readers i).cursor.actOn u s.catalog⟩] := by
  simp [act]

theorem readers_act_of_ne {u : Use} {next : Except Error u.Result × Cursor → Dialogue uses Unit}
    (other : j ≠ i) : (s.act i u next).readers j = s.readers j := by
  simp [act, other]

theorem stage_act_of_ne {u : Use} {next : Except Error u.Result × Cursor → Dialogue uses Unit}
    (other : j ≠ i) : (s.act i u next).stage j = s.stage j := by
  rw [stage, readers_act_of_ne other, stage]

theorem sameQuery_perform (c : Cursor) (u : Use) (m : Memory) :
    SameQuery c ((c.perform u).run serveQuery m).1.2 := by
  have ends := Dialogue.transcript_run serveQuery (c.perform u) m
  rcases transcript_perform ends with ⟨-, same, -⟩ | ⟨-, answer, same, -⟩
  · rw [same]
    exact .refl c
  · rw [same]
    exact outcome_sameQuery c u answer

theorem sameQuery_act (u : Use) (next : Except Error u.Result × Cursor → Dialogue uses Unit)
    (j : ι) : SameQuery (s.readers j).cursor ((s.act i u next).readers j).cursor := by
  by_cases same : j = i
  · subst same
    simpa [act] using sameQuery_perform (s.readers j).cursor u s.catalog
  · simpa [act, same] using SameQuery.refl _

theorem Coherent.act (h : Coherent s) {u : Use}
    (next : Except Error u.Result × Cursor → Dialogue uses Unit) :
    Coherent (s.act i u next) := by
  have effect := h.effect i u next
  -- Of two readers with the same index the one that acts would have got a fresh one.
  have fresh (j : ι) (k : Int) (other : j ≠ i) (mine : (s.act i u next).stage i = .opened k)
      (theirs : s.stage j = .opened k) : False := by
    rcases effect.opened mine with ⟨before, -⟩ | ⟨rfl, -⟩
    · exact other (h.apart j i k theirs before)
    · have := h.stocked.issued _ (h.held j _ theirs).2
      omega
  refine ⟨fun j => ?_, effect.stocked h.stocked, fun j k opened => ?_, fun j j' k hj hj' => ?_⟩
  · rw [(sameQuery_act u next j).pageSize]
    exact h.sized j
  · by_cases same : j = i
    · subst same
      rcases effect.opened opened with ⟨before, kept⟩ | ⟨rfl, mem⟩
      · rw [kept]
        exact h.held j k before
      · exact ⟨by omega, mem⟩
    · rw [stage_act_of_ne same] at opened
      obtain ⟨later, mem⟩ := h.held j k opened
      have other : s.stage i ≠ .opened k := fun mine => same (h.apart j i k opened mine)
      refine ⟨later, ?_⟩
      rw [mem_pending_iff] at mem ⊢
      rwa [effect.frame other (h.stocked.issued k ((mem_pending_iff _ k).mpr mem))]
  · by_cases same : j = i <;> by_cases same' : j' = i
    · rw [same, same']
    · rw [stage_act_of_ne same'] at hj'
      exact (fresh j' k same' (same ▸ hj) hj').elim
    · rw [stage_act_of_ne same] at hj
      exact (fresh j k same (same' ▸ hj') hj).elim
    · rw [stage_act_of_ne same] at hj
      rw [stage_act_of_ne same'] at hj'
      exact h.apart j j' k hj hj'

theorem Coherent.step (h : Coherent s) (step : Step s s') : Coherent s' := by
  cases step with
  | aside aside =>
    obtain ⟨pending, issued⟩ := aside.untouched
    exact
      { sized := h.sized
        stocked := by
          refine ⟨fun k => ?_, fun k rows => ?_⟩
          · rw [pending, issued]
            exact h.stocked.issued k
          · rw [pending]
            exact h.stocked.filled k rows
        held := by
          rw [pending]
          exact h.held
        apart := h.apart }
  | begin plan free errand =>
    refine ⟨?_, h.stocked, ?_, ?_⟩
    · simpa only [cursor_begin] using h.sized
    · simpa only [stage_begin, catalog_begin] using h.held
    · simpa only [stage_begin] using h.apart
  | act due => exact h.act _

theorem Run.coherent (run : Run start s) (opening : Opening start) : Coherent s := by
  induction run with
  | refl => exact opening.coherent
  | tail _ step ih => exact ih.step step

/-! Errands without interruption. -/

theorem Run.plan {plan : Dialogue uses Unit} (run : Run start s)
    (due : (s.readers i).plan = plan) :
    ∃ s', Run start s' ∧ (s'.readers i).plan = .done () ∧
      s'.catalog = ((carryOut plan (s.readers i).cursor).run serveQuery s.catalog).2 := by
  induction plan generalizing s with
  | done a => exact ⟨s, run, due, rfl⟩
  | ask u next ih =>
    obtain ⟨s', run, done, catalog⟩ := ih (((s.readers i).cursor.perform u).run serveQuery
      s.catalog).1 (run.tail (.act due)) (by simp [act])
    refine ⟨s', run, done, catalog.trans ?_⟩
    rw [carryOut, Dialogue.run_bind]
    simp [act]

/-- A reader that is left alone with an errand leaves the catalog as the errand does. -/
theorem Run.errand {d : Dialogue Query.interface Unit} (run : Run start s)
    (free : (s.readers i).plan = .done ()) (errand : Errand (s.readers i).cursor d) :
    ∃ s', Run start s' ∧ (s'.readers i).plan = .done () ∧
      s'.catalog = (d.run serveQuery s.catalog).2 := by
  obtain ⟨plan, rfl⟩ := planned_of_errand errand
  have taken : ((s.begin i plan).readers i).plan = plan := by simp [begin]
  obtain ⟨s', run, done, catalog⟩ := Run.plan (run.tail (.begin plan free errand)) taken
  exact ⟨s', run, done, by simpa using catalog⟩


/-- A reader that is free uses its cursor once. -/
def use (s : Shared ι) (i : ι) (u : Use) : Shared ι :=
  (s.begin i (.ask u fun _ => .done ())).act i u fun _ => .done ()

theorem Run.use (run : Run start s) (i : ι) (u : Use) (free : (s.readers i).plan = .done ()) :
    Run start (s.use i u) := by
  have errand : Errand (s.readers i).cursor
      (carryOut (.ask u fun _ => .done ()) (s.readers i).cursor) := by
    rw [carryOut_single]
    exact .use u
  exact (run.tail (.begin _ free errand)).tail (.act (by simp [begin]))

theorem Run.aside {m : Memory} (run : Run start s) (aside : Aside s.catalog m) :
    Run start { s with catalog := m } :=
  run.tail (.aside aside)

end Shared

/-! A catalog of two objects and two readers that ask for one name at a time. -/
namespace Sample

def catalog : Memory :=
  ["/z/a", "/z/b"].foldl (fun m path => (m.withReplica (Memory.Sample.replica path)).2) {}

def shared : Shared (Fin 2) := ⟨catalog, fun _ => { cursor := .ofConditions ["DATA_NAME"] [] 1 }⟩

theorem opening : Shared.Opening shared :=
  ⟨rfl, fun _ => ⟨_, .ofConditions _ _ (by decide), rfl⟩⟩

end Sample
end DataGrid.Cursor
