import DataGrid.Proofs.Cursor.Protocol

/-! What an owner does with a cursor. A plan is a tree of uses in which each use is chosen by what
came of those before it. Whatever is done with a cursor, a single use, a drain or a collection, is
the carrying out of a plan: it asks nothing of the catalog but what the uses of the cursor ask. -/
namespace DataGrid.Cursor
open Query
open Dialogue (Exchange Transcript)

/-- The uses of a cursor. Each is answered with its result and the cursor afterwards. -/
abbrev uses : Interface := ⟨Use, fun u => Except Error u.Result × Cursor⟩

variable {α β σ : Type} {c : Cursor} {u : Use}

/-- What is asked of the catalog when a plan is carried out with a cursor. -/
def carryOut : Dialogue uses α → Cursor → Dialogue Query.interface α
  | .done a, _ => .done a
  | .ask u next, c => c.perform u >>= fun out => carryOut (next out) out.2

/-- What an owner can set out to do with its cursor. A drain may have any visitor, so what the
visitor says may depend on anything that happens meanwhile. -/
inductive Errand (c : Cursor) : Dialogue Query.interface Unit → Prop
  | use (u : Use) : Errand c ((fun _ => ()) <$> c.perform u)
  | drain {σ : Type} (visit : Page → σ → Except Error Unit × σ) (budget : Nat) (s : σ) :
      Errand c ((fun _ => ()) <$> c.drain visit budget s)
  | collect (budget : Nat) : Errand c ((fun _ => ()) <$> c.collect budget)

def Planned (c : Cursor) (d : Dialogue Query.interface α) : Prop :=
  ∃ plan : Dialogue uses α, carryOut plan c = d

theorem planned_done (c : Cursor) (a : α) : Planned c (.done a : Dialogue Query.interface α) :=
  ⟨.done a, rfl⟩

/-- A use and then, whatever came of it, something planned. -/
theorem planned_use {f : Except Error u.Result × Cursor → Dialogue Query.interface α}
    (h : ∀ out, Planned out.2 (f out)) : Planned c (c.perform u >>= f) := by
  refine ⟨.ask u fun out => (h out).choose, ?_⟩
  exact congrArg (c.perform u >>= ·) (funext fun out => (h out).choose_spec)

theorem carryOut_map (f : α → β) (plan : Dialogue uses α) (c : Cursor) :
    carryOut (f <$> plan) c = f <$> carryOut plan c := by
  induction plan generalizing c with
  | done a => rfl
  | ask u next ih =>
    change c.perform u >>= (fun out => carryOut (f <$> next out) out.2) =
      f <$> (c.perform u >>= fun out => carryOut (next out) out.2)
    simp only [ih, map_bind]

theorem Planned.map {d : Dialogue Query.interface α} (h : Planned c d) (f : α → β) :
    Planned c (f <$> d) := by
  obtain ⟨plan, rfl⟩ := h
  exact ⟨f <$> plan, carryOut_map f plan c⟩

theorem planned_perform (c : Cursor) (u : Use) : Planned c (c.perform u) := by
  have single : Planned c (c.perform u >>= pure) := planned_use fun out => planned_done _ _
  rwa [bind_pure] at single

theorem planned_letGo (c : Cursor) : Planned c c.letGo := by
  rw [letGo]
  split
  · exact planned_use (u := .release) fun out => planned_done _ _
  · exact planned_done c c

/-- A drain that fails lets the cursor go. -/
theorem planned_failure (e : Error) (c : Cursor) (s : σ) :
    Planned c (do return some (⟨.error e, ← c.letGo, s⟩ : Drained σ)) := by
  have gone := (planned_letGo c).map fun c => some (⟨.error e, c, s⟩ : Drained σ)
  rwa [map_eq_pure_bind] at gone

theorem planned_drainFrom (visit : Page → σ → Except Error Unit × σ) (budget total : Nat)
    (out : Except Error (Option Page) × Cursor) (s : σ) :
    Planned out.2 (drainFrom visit budget total out s) := by
  induction budget generalizing total out s with
  | zero =>
    obtain ⟨e | none | page, c⟩ := out
    · exact planned_failure e c s
    · exact planned_done _ _
    · exact planned_done _ _
  | succ budget ih =>
    obtain ⟨e | none | page, c⟩ := out
    · exact planned_failure e c s
    · exact planned_done _ _
    · simp only [drainFrom]
      split
      · next e s' _ => exact planned_failure e c s'
      · split
        · exact planned_use (u := .next) fun out => ih _ out _
        · exact planned_done _ _

theorem planned_drain (visit : Page → σ → Except Error Unit × σ) (budget : Nat) (c : Cursor)
    (s : σ) : Planned c (c.drain visit budget s) := by
  apply planned_use (u := .first)
  intro out
  split
  · exact planned_done _ _
  · exact planned_drainFrom visit budget 0 _ s

theorem planned_collect (budget : Nat) (c : Cursor) : Planned c (c.collect budget) := by
  have done : c.collect budget =
      (fun d => d.map fun d => (d.result.map fun _ => d.state, d.cursor)) <$>
        c.drain keepRows budget [] := by
    rw [collect, map_eq_pure_bind]
    congr 1
    funext d
    cases d <;> rfl
  rw [done]
  exact (planned_drain keepRows budget c []).map _

theorem carryOut_single (c : Cursor) (u : Use) :
    carryOut (.ask u fun _ => .done ()) c = (fun _ => ()) <$> c.perform u := by
  rw [map_eq_pure_bind]
  rfl

/-- Every errand is the carrying out of a plan. -/
theorem planned_of_errand {d : Dialogue Query.interface Unit} (h : Errand c d) : Planned c d := by
  cases h with
  | use u => exact (planned_perform c u).map _
  | drain visit budget s => exact (planned_drain visit budget c s).map _
  | collect budget => exact (planned_collect budget c).map _

end DataGrid.Cursor
