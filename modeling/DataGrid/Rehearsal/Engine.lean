import DataGrid.Query.Predicate

/-! A stand-in for the engine that matches patterns. It takes a pattern if the two automata that it
would build for it, one for each direction of reading, are estimated to keep to a bound. The
estimates are those of no particular engine, and nothing is known of patterns close to the bound. -/
namespace DataGrid.Rehearsal

/-- What an automaton for a pattern takes up, in bytes: its frame, each byte of plain text, each
`_` and each `%`. -/
structure Automaton where
  frame : Nat
  byte : Nat
  one : Nat
  run : Nat

namespace Automaton

/-- Reads a value from its first byte. The ten forms that a character can take as bytes share
their last steps. -/
def forwards : Automaton := ⟨192, 32, 424, 464⟩

/-- Reads a value from its last byte. The ten forms share nothing then. -/
def backwards : Automaton := ⟨128, 32, 1000, 1040⟩

def symbolSize (a : Automaton) (c : Char) : Nat :=
  if c = '%' then a.run else if c = '_' then a.one else a.byte * c.utf8Size

def size (a : Automaton) (pattern : List Char) : Nat :=
  pattern.foldl (fun n c => n + a.symbolSize c) a.frame

/-- Ten mebibytes. -/
def maxSize : Nat := 10 * 1024 * 1024

end Automaton

def engine : Predicate.Engine := fun pattern =>
  Automaton.forwards.size pattern.toList ≤ Automaton.maxSize &&
    Automaton.backwards.size pattern.toList ≤ Automaton.maxSize

end DataGrid.Rehearsal
