import DataGrid.Dialogue

/-! Runs of dialogues. A sequence of two attempts either runs both or stops at the error of the
first, so that a long attempt is taken apart call by call; and what each answer preserves, of one
server or of two, a whole run preserves. -/
namespace DataGrid
variable {I J : Interface} {α β ε σ τ : Type}

/-- The server in one part of a larger state, the other part of which it neither sees nor
changes. -/
def Server.beside (serve : Server σ I) : Server (σ × τ) I :=
  fun c s => ((serve c s.1).1, (serve c s.1).2, s.2)

namespace Dialogue

theorem translate_bind (f : (c : I.Call) → Dialogue J (I.Answer c)) (d : Dialogue I α)
    (g : α → Dialogue I β) :
    (d >>= g).translate f = d.translate f >>= fun a => (g a).translate f := by
  induction d with
  | done a => rfl
  | ask c next ih =>
    change (f c >>= fun answer => (next answer >>= g).translate f) =
      (f c >>= fun answer => (next answer).translate f) >>= fun a => (g a).translate f
    rw [bind_assoc]
    congr 1
    funext answer
    exact ih answer

theorem run_beside (serve : Server σ I) (d : Dialogue I α) (s : σ) (t : τ) :
    d.run serve.beside (s, t) = ((d.run serve s).1, (d.run serve s).2, t) := by
  induction d generalizing s with
  | done a => rfl
  | ask c next ih => exact ih _ _

/-- What every answer preserves, a run preserves. -/
theorem run_preserves {serve : Server σ I} (P : σ → Prop)
    (step : ∀ c s, P s → P (serve c s).2) (d : Dialogue I α) {s : σ} (h : P s) :
    P (d.run serve s).2 := by
  induction d generalizing s with
  | done a => exact h
  | ask c next ih => exact ih _ (step c s h)

/-- Two servers that answer alike from related states, and stay related, cannot be told apart. -/
theorem run_simulates {serve : Server σ I} {serve' : Server τ I} (R : σ → τ → Prop)
    (step : ∀ c s t, R s t → (serve c s).1 = (serve' c t).1 ∧ R (serve c s).2 (serve' c t).2)
    (d : Dialogue I α) {s : σ} {t : τ} (h : R s t) :
    d.exchanges serve s = d.exchanges serve' t ∧ R (d.run serve s).2 (d.run serve' t).2 := by
  induction d generalizing s t with
  | done a => exact ⟨rfl, h⟩
  | ask c next ih =>
    obtain ⟨same, after⟩ := step c s t h
    simp only [exchanges, run_ask, same]
    obtain ⟨rest, related⟩ := ih _ after
    exact ⟨by rw [rest], related⟩

/-! Runs together with what is exchanged meanwhile. -/

/-- From that state the dialogue makes these exchanges and ends with the value in the other. -/
def Runs (serve : Server σ I) (d : Dialogue I α) (s : σ) (all : List (Exchange I)) (a : α)
    (s' : σ) : Prop :=
  d.exchanges serve s = all ∧ d.run serve s = (a, s')

theorem runs_done (serve : Server σ I) (a : α) (s : σ) : Runs serve (.done a) s [] a s := ⟨rfl, rfl⟩

theorem Runs.ask {serve : Server σ I} {c : I.Call} {next : I.Answer c → Dialogue I α}
    {answer : I.Answer c} {s mid s' : σ} {rest : List (Exchange I)} {a : α}
    (served : serve c s = (answer, mid)) (tail : Runs serve (next answer) mid rest a s') :
    Runs serve (.ask c next) s (⟨c, answer⟩ :: rest) a s' := by
  obtain ⟨sent, ends⟩ := tail
  simp only [Runs, exchanges, run_ask, served]
  exact ⟨by rw [sent], ends⟩

theorem Runs.bind {serve : Server σ I} {d : Dialogue I α} {f : α → Dialogue I β} {s mid s' : σ}
    {first rest : List (Exchange I)} {a : α} {b : β} (head : Runs serve d s first a mid)
    (tail : Runs serve (f a) mid rest b s') : Runs serve (d >>= f) s (first ++ rest) b s' := by
  induction d generalizing s first with
  | done x =>
    obtain ⟨rfl, ends⟩ := head
    cases ends
    exact tail
  | ask c next ih =>
    obtain ⟨rfl, ends⟩ := head
    exact Runs.ask rfl (ih _ ⟨rfl, ends⟩)

/-- An attempt that succeeds is gone on from. -/
theorem Runs.attempt {serve : Server σ I} {x : ExceptT ε (Dialogue I) α}
    {f : α → ExceptT ε (Dialogue I) β} {s mid s' : σ} {first rest : List (Exchange I)} {a : α}
    {r : Except ε β} (head : Runs serve x.run s first (.ok a) mid)
    (tail : Runs serve (f a).run mid rest r s') :
    Runs serve (x >>= f).run s (first ++ rest) r s' := by
  rw [ExceptT.run_bind]
  exact head.bind tail

theorem Runs.beside {serve : Server σ I} {d : Dialogue I α} {s s' : σ} {all : List (Exchange I)}
    {a : α} (h : Runs serve d s all a s') (t : τ) : Runs serve.beside d (s, t) all a (s', t) := by
  induction d generalizing s all with
  | done x =>
    obtain ⟨rfl, ends⟩ := h
    cases ends
    exact runs_done _ _ _
  | ask c next ih =>
    obtain ⟨rfl, ends⟩ := h
    exact Runs.ask rfl (ih _ ⟨rfl, ends⟩)

theorem runs_run (serve : Server σ I) (d : Dialogue I α) (s : σ) :
    Runs serve d s (d.exchanges serve s) (d.run serve s).1 (d.run serve s).2 := ⟨rfl, rfl⟩

def Exchange.left (e : Exchange I) : Exchange (I.sum J) := ⟨.inl e.call, e.answer⟩

def Exchange.right (e : Exchange J) : Exchange (I.sum J) := ⟨.inr e.call, e.answer⟩

theorem Runs.left {serve : Server σ I} {d : Dialogue I α} {s s' : σ} {all : List (Exchange I)}
    {a : α} (h : Runs serve d s all a s') (other : Server σ J) :
    Runs (serve.sum other) d.left s (all.map Exchange.left) a s' := by
  induction d generalizing s all with
  | done x =>
    obtain ⟨rfl, ends⟩ := h
    cases ends
    exact runs_done _ _ _
  | ask c next ih =>
    obtain ⟨rfl, ends⟩ := h
    exact Runs.ask rfl (ih _ ⟨rfl, ends⟩)

theorem Runs.right {serve : Server σ J} {d : Dialogue J α} {s s' : σ} {all : List (Exchange J)}
    {a : α} (h : Runs serve d s all a s') (other : Server σ I) :
    Runs (other.sum serve) d.right s (all.map Exchange.right) a s' := by
  induction d generalizing s all with
  | done x =>
    obtain ⟨rfl, ends⟩ := h
    cases ends
    exact runs_done _ _ _
  | ask c next ih =>
    obtain ⟨rfl, ends⟩ := h
    exact Runs.ask rfl (ih _ ⟨rfl, ends⟩)

/-- The server gives these answers to these calls, one after the other, and is left in the
other state. -/
inductive Served (serve : Server σ I) : σ → List (Exchange I) → σ → Prop
  | nil (s : σ) : Served serve s [] s
  | cons {x : Exchange I} {s s' : σ} {rest : List (Exchange I)}
      (answered : (serve x.call s).1 = x.answer) (tail : Served serve (serve x.call s).2 rest s') :
      Served serve s (x :: rest) s'

theorem served_cons_iff {serve : Server σ I} {x : Exchange I} {s s' : σ}
    {rest : List (Exchange I)} : Served serve s (x :: rest) s' ↔
      (serve x.call s).1 = x.answer ∧ Served serve (serve x.call s).2 rest s' := by
  constructor
  · intro h
    cases h with
    | cons answered tail => exact ⟨answered, tail⟩
  · rintro ⟨answered, tail⟩
    exact .cons answered tail

theorem served_nil_iff {serve : Server σ I} {s s' : σ} : Served serve s [] s' ↔ s = s' := by
  constructor
  · intro h
    cases h
    rfl
  · rintro rfl
    exact .nil s

theorem served_append_iff {serve : Server σ I} {s s' : σ} {xs ys : List (Exchange I)} :
    Served serve s (xs ++ ys) s' ↔ ∃ mid, Served serve s xs mid ∧ Served serve mid ys s' := by
  induction xs generalizing s with
  | nil => simp [served_nil_iff]
  | cons x xs ih => simp [served_cons_iff, ih, and_assoc]

/-! Transcripts. -/

theorem transcript_done_iff {a b : α} {all : List (Exchange I)} :
    Transcript (.done a) all b ↔ all = [] ∧ b = a := by
  constructor
  · intro h
    cases h
    exact ⟨rfl, rfl⟩
  · rintro ⟨rfl, rfl⟩
    exact .done b

/-- A run is a transcript that the server serves. -/
theorem runs_iff {serve : Server σ I} {d : Dialogue I α} {s s' : σ} {all : List (Exchange I)}
    {a : α} : Runs serve d s all a s' ↔ Transcript d all a ∧ Served serve s all s' := by
  induction d generalizing s all with
  | done x =>
    simp only [Runs, exchanges, run_done, transcript_done_iff, Prod.mk.injEq]
    constructor
    · rintro ⟨rfl, rfl, rfl⟩
      exact ⟨⟨rfl, rfl⟩, .nil s⟩
    · rintro ⟨⟨rfl, rfl⟩, served⟩
      exact ⟨rfl, rfl, served_nil_iff.mp served⟩
  | ask c next ih =>
    constructor
    · rintro ⟨rfl, ends⟩
      obtain ⟨transcript, served⟩ := (ih (serve c s).1).mp ⟨rfl, ends⟩
      exact ⟨.ask _ transcript, .cons rfl served⟩
    · rintro ⟨transcript, served⟩
      cases transcript with
      | ask answer tail =>
        obtain ⟨answered, served⟩ := served_cons_iff.mp served
        exact Runs.ask (Prod.ext answered rfl) ((ih answer).mpr ⟨tail, served⟩)

/-- A dialogue of a single call ends with what it makes of the answer. -/
theorem transcript_single_iff {c : I.Call} {f : I.Answer c → α} {all : List (Exchange I)} {b : α} :
    Transcript (.ask c fun answer => .done (f answer)) all b ↔
      ∃ answer, all = [⟨c, answer⟩] ∧ b = f answer := by
  constructor
  · intro h
    cases h with
    | ask answer tail =>
      obtain ⟨rfl, rfl⟩ := transcript_done_iff.mp tail
      exact ⟨answer, rfl, rfl⟩
  · rintro ⟨answer, rfl, rfl⟩
    exact .ask answer (.done _)

/-- A run of two attempts in sequence stops with the error of the first or goes through both. -/
theorem run_attempt_bind_iff {serve : Server σ I} {x : ExceptT ε (Dialogue I) α}
    {f : α → ExceptT ε (Dialogue I) β} {s s' : σ} {r : Except ε β} :
    (x >>= f).run.run serve s = (r, s') ↔
      (∃ e, x.run.run serve s = (.error e, s') ∧ r = .error e) ∨
        ∃ a mid, x.run.run serve s = (.ok a, mid) ∧ (f a).run.run serve mid = (r, s') := by
  rw [ExceptT.run_bind, run_bind]
  rcases x.run.run serve s with ⟨e | a, mid⟩
  · constructor
    · intro h
      cases h
      exact .inl ⟨e, rfl, rfl⟩
    · rintro (⟨e', h, rfl⟩ | ⟨a, mid', h, -⟩) <;> cases h
      rfl
  · constructor
    · intro h
      exact .inr ⟨a, mid, rfl, h⟩
    · rintro (⟨e, h, -⟩ | ⟨a', mid', h, hf⟩) <;> cases h
      exact hf

end Dialogue
end DataGrid
