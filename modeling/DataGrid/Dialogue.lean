/-! Computations that ask. An interface lists the calls that may be made and the type of the
answer to each; a dialogue is a tree that either is done or makes one call and goes on with
the answer. A server answers calls out of a state of its own, so it may answer by its whole
history. `Transcript` relates a dialogue to the calls and answers of one of its runs: what
holds of all transcripts holds against every server. -/
namespace DataGrid

structure Interface where
  Call : Type
  Answer : Call → Type

inductive Dialogue (I : Interface) (α : Type) where
  | done (value : α)
  | ask (call : I.Call) (next : I.Answer call → Dialogue I α)

variable {I J : Interface} {α β σ : Type}

namespace Dialogue

protected def bind (d : Dialogue I α) (f : α → Dialogue I β) : Dialogue I β :=
  match d with
  | .done a => f a
  | .ask call next => .ask call fun answer => (next answer).bind f

instance : Monad (Dialogue I) where
  pure := .done
  bind := Dialogue.bind

/-- A single call. -/
def call (c : I.Call) : Dialogue I (I.Answer c) := .ask c .done

/-- Replaces every call by a dialogue over another interface. -/
def translate (f : (c : I.Call) → Dialogue J (I.Answer c)) : Dialogue I α → Dialogue J α
  | .done a => .done a
  | .ask c next => (f c).bind fun answer => (next answer).translate f

end Dialogue

/-- The calls of either interface. -/
abbrev Interface.sum (I J : Interface) : Interface where
  Call := I.Call ⊕ J.Call
  Answer := fun
    | .inl c => I.Answer c
    | .inr c => J.Answer c

namespace Dialogue

def left (d : Dialogue I α) : Dialogue (I.sum J) α :=
  d.translate fun c => call (I := I.sum J) (.inl c)

def right (d : Dialogue J α) : Dialogue (I.sum J) α :=
  d.translate fun c => call (I := I.sum J) (.inr c)

end Dialogue

/-- Answers every call and moves to a new state. -/
abbrev Server (σ : Type) (I : Interface) := (c : I.Call) → σ → I.Answer c × σ

/-- Two servers that share a state. -/
def Server.sum (s : Server σ I) (t : Server σ J) : Server σ (I.sum J)
  | .inl c => s c
  | .inr c => t c

namespace Dialogue

def run (serve : Server σ I) : Dialogue I α → σ → α × σ
  | .done a, s => (a, s)
  | .ask c next, s =>
    let (answer, s) := serve c s
    (next answer).run serve s

/-- A call with the answer it got. -/
structure Exchange (I : Interface) where
  call : I.Call
  answer : I.Answer call

/-- The dialogue makes these calls in this order, gets these answers and ends with the value. -/
inductive Transcript : Dialogue I α → List (Exchange I) → α → Prop
  | done (a : α) : Transcript (.done a) [] a
  | ask {c : I.Call} {next : I.Answer c → Dialogue I α} (answer : I.Answer c)
      {rest : List (Exchange I)} {a : α} (tail : Transcript (next answer) rest a) :
      Transcript (.ask c next) (⟨c, answer⟩ :: rest) a

/-- The exchanges of a run, in order. -/
def exchanges (serve : Server σ I) : Dialogue I α → σ → List (Exchange I)
  | .done _, _ => []
  | .ask c next, s =>
    let (answer, s) := serve c s
    ⟨c, answer⟩ :: (next answer).exchanges serve s

@[simp] theorem pure_eq (a : α) : (pure a : Dialogue I α) = .done a := rfl

@[simp] theorem done_bind (a : α) (f : α → Dialogue I β) : (Dialogue.done a >>= f) = f a := rfl

@[simp] theorem ask_bind (c : I.Call) (next : I.Answer c → Dialogue I α) (f : α → Dialogue I β) :
    (Dialogue.ask c next >>= f) = .ask c fun answer => next answer >>= f := rfl

@[simp] theorem run_done (serve : Server σ I) (a : α) (s : σ) :
    (Dialogue.done a).run serve s = (a, s) := rfl

@[simp] theorem run_ask (serve : Server σ I) (c : I.Call) (next : I.Answer c → Dialogue I α)
    (s : σ) :
    (Dialogue.ask c next).run serve s = (next (serve c s).1).run serve (serve c s).2 := rfl

theorem run_bind (serve : Server σ I) (d : Dialogue I α) (f : α → Dialogue I β) (s : σ) :
    (d >>= f).run serve s = (f (d.run serve s).1).run serve (d.run serve s).2 := by
  induction d generalizing s with
  | done a => rfl
  | ask c next ih => simp [ih]

instance : LawfulMonad (Dialogue I) := LawfulMonad.mk' (Dialogue I)
  (fun d => by
    induction d with
    | done a => rfl
    | ask c next ih => exact congrArg (Dialogue.ask c) (funext ih))
  (fun _ _ => rfl)
  (fun d f g => by
    induction d with
    | done a => rfl
    | ask c next ih => exact congrArg (Dialogue.ask c) (funext ih))

/-- A translated dialogue runs like the dialogue itself on a server that runs the translations
of its calls. -/
theorem run_translate (serve : Server σ J) (f : (c : I.Call) → Dialogue J (I.Answer c))
    (d : Dialogue I α) (s : σ) :
    (d.translate f).run serve s = d.run (fun c => (f c).run serve) s := by
  induction d generalizing s with
  | done a => rfl
  | ask c next ih =>
    change ((f c) >>= fun answer => (next answer).translate f).run serve s = _
    rw [run_bind, ih, run_ask]

theorem run_left (serve : Server σ I) (other : Server σ J) (d : Dialogue I α) (s : σ) :
    (d.left (J := J)).run (serve.sum other) s = d.run serve s := by
  rw [left, run_translate]
  rfl

theorem run_right (other : Server σ I) (serve : Server σ J) (d : Dialogue J α) (s : σ) :
    (d.right (I := I)).run (other.sum serve) s = d.run serve s := by
  rw [right, run_translate]
  rfl

/-- A transcript of two dialogues in sequence is one of the first, then one of the second. -/
theorem transcript_bind_iff {d : Dialogue I α} {f : α → Dialogue I β} {all : List (Exchange I)}
    {b : β} : Transcript (d >>= f) all b ↔
      ∃ first a rest, all = first ++ rest ∧ Transcript d first a ∧ Transcript (f a) rest b := by
  induction d generalizing all with
  | done a =>
    constructor
    · intro h
      exact ⟨[], a, all, rfl, .done a, h⟩
    · rintro ⟨first, a', rest, rfl, h, hf⟩
      cases h
      exact hf
  | ask c next ih =>
    constructor
    · intro h
      cases h with
      | ask answer tail =>
        obtain ⟨first, a, rest, rfl, h, hf⟩ := (ih answer).mp tail
        exact ⟨_ :: first, a, rest, rfl, .ask answer h, hf⟩
    · rintro ⟨first, a, rest, rfl, h, hf⟩
      cases h with
      | ask answer tail => exact .ask answer ((ih answer).mpr ⟨_, a, rest, rfl, tail, hf⟩)

/-- Every run leaves a transcript. -/
theorem transcript_run (serve : Server σ I) (d : Dialogue I α) (s : σ) :
    Transcript d (d.exchanges serve s) (d.run serve s).1 := by
  induction d generalizing s with
  | done a => exact .done a
  | ask c next ih => exact .ask _ (ih _ _)

end Dialogue
end DataGrid
