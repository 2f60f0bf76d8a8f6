import DataGrid.Proofs.Cursor.Readers
import Mathlib.Algebra.BigOperators.Group.Finset.Basic
import Mathlib.Algebra.BigOperators.Group.Finset.Piecewise
import Mathlib.Data.Fintype.Basic

/-! What a catalog holds for its readers. For each list of rows that is left behind there is an
open cursor, or a release that the catalog refused: such a release closes the cursor all the same,
and nobody asks for its rows any more. -/
namespace DataGrid.Cursor
open Dialogue (Exchange)

/-- How often the catalog refused a release of the reader. -/
def Reader.refused (r : Reader) : Nat := refusals (exchanges (r.log.map Entry.act))

theorem refusals_append (sent more : List (Exchange Query.interface)) :
    refusals (sent ++ more) = refusals sent + refusals more :=
  List.countP_append

/-- A sum after one summand has changed. -/
theorem sum_exchange {ι : Type} [Fintype ι] [DecidableEq ι] {f g : ι → Nat} (i : ι)
    (others : ∀ j, j ≠ i → g j = f j) : ∑ j, g j + f i = ∑ j, f j + g i := by
  have rest : ∑ j ∈ Finset.univ.erase i, g j = ∑ j ∈ Finset.univ.erase i, f j :=
    Finset.sum_congr rfl fun j hj => others j (Finset.ne_of_mem_erase hj)
  rw [← Finset.sum_erase_add _ g (Finset.mem_univ i),
    ← Finset.sum_erase_add _ f (Finset.mem_univ i), rest]
  omega

namespace Shared
variable {ι : Type} [Fintype ι] [DecidableEq ι] {s s' start : Shared ι} {i j : ι}

/-- What the catalog holds on account of one reader. -/
def share (s : Shared ι) (i : ι) : Nat := (s.stage i).weight + (s.readers i).refused

def Balanced (s : Shared ι) : Prop := s.catalog.pendingQueries = ∑ i, s.share i

omit [Fintype ι] in
theorem refused_act (s : Shared ι) (i : ι) (u : Use)
    (next : Except Error u.Result × Cursor → Dialogue uses Unit) :
    ((s.act i u next).readers i).refused =
      (s.readers i).refused + refusals ((s.readers i).cursor.actOn u s.catalog).sent := by
  rw [Reader.refused, log_act, List.map_append, List.map_cons, List.map_nil, exchanges_concat,
    refusals_append, Reader.refused]

theorem Balanced.act (balanced : Balanced s) (coherent : Coherent s) (u : Use)
    (next : Except Error u.Result × Cursor → Dialogue uses Unit) :
    Balanced (s.act i u next) := by
  have moved : (s.act i u next).catalog.pending.size + (s.stage i).weight =
      s.catalog.pending.size + ((s.act i u next).stage i).weight +
        refusals ((s.readers i).cursor.actOn u s.catalog).sent :=
    (coherent.effect i u next).balance coherent.stocked fun k opened => (coherent.held i k opened).2
  have others (j : ι) (other : j ≠ i) : (s.act i u next).share j = s.share j := by
    rw [share, stage_act_of_ne other, readers_act_of_ne other, share]
  have sums := sum_exchange i others
  rw [Balanced, Catalog.Memory.pendingQueries] at balanced ⊢
  rw [share, share, refused_act] at sums
  omega

theorem Balanced.step (balanced : Balanced s) (coherent : Coherent s) (step : Step s s') :
    Balanced s' := by
  cases step with
  | aside aside =>
    rw [Balanced, Catalog.Memory.pendingQueries] at *
    rw [aside.untouched.1, balanced]
    rfl
  | begin plan free errand =>
    rw [Balanced, Catalog.Memory.pendingQueries] at *
    rw [catalog_begin, balanced]
    simp only [share, stage_begin, Reader.refused, log_begin]
  | act due => exact balanced.act coherent _ _

omit [DecidableEq ι] in
theorem Opening.balanced (opening : Opening s) : Balanced s := by
  have none (i : ι) : s.share i = 0 := by
    obtain ⟨c, fresh, made⟩ := opening.readers i
    rw [share, stage, made, fresh.made.1]
    rfl
  have empty := opening.catalog
  rw [Std.TreeMap.isEmpty_eq_size_eq_zero, beq_iff_eq] at empty
  simpa [Balanced, none, Catalog.Memory.pendingQueries] using empty

theorem Run.balanced (run : Run start s) (opening : Opening start) : Balanced s := by
  induction run with
  | refl => exact opening.balanced
  | tail run step ih => exact ih.step (Run.coherent run opening) step

end Shared
end DataGrid.Cursor
