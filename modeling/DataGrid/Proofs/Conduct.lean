import DataGrid.Dialogue

/-! Rules of conduct. A rule says which calls may be made after which exchanges. A dialogue keeps
it if every call that it may come to make is allowed there, whatever was answered before; the
condition is computed along the tree and composes over sequences. Against every server, then,
each exchange of the run is allowed by the exchanges before it. -/
namespace DataGrid.Dialogue
variable {I : Interface} {α β ε σ : Type}

/-- After the exchanges so far all calls keep the rule, and the value at the end meets the
postcondition. -/
def Keeps (rule : List (Exchange I) → I.Call → Prop) (post : α → List (Exchange I) → Prop) :
    Dialogue I α → List (Exchange I) → Prop
  | .done a, past => post a past
  | .ask c next, past =>
    rule past c ∧ ∀ answer, (next answer).Keeps rule post (past ++ [⟨c, answer⟩])

variable {rule : List (Exchange I) → I.Call → Prop} {past : List (Exchange I)}

theorem Keeps.bind {mid : α → List (Exchange I) → Prop} {post : β → List (Exchange I) → Prop}
    {d : Dialogue I α} {f : α → Dialogue I β} (hd : d.Keeps rule mid past)
    (hf : ∀ a past', mid a past' → (f a).Keeps rule post past') :
    (d >>= f).Keeps rule post past := by
  induction d generalizing past with
  | done a => exact hf a past hd
  | ask c next ih =>
    obtain ⟨allowed, rest⟩ := hd
    exact ⟨allowed, fun answer => ih answer (rest answer)⟩

theorem Keeps.mono {post post' : α → List (Exchange I) → Prop} {d : Dialogue I α}
    (hd : d.Keeps rule post past) (imp : ∀ a past', post a past' → post' a past') :
    d.Keeps rule post' past := by
  induction d generalizing past with
  | done a => exact imp a past hd
  | ask c next ih =>
    obtain ⟨allowed, rest⟩ := hd
    exact ⟨allowed, fun answer => ih answer (rest answer)⟩

/-- Of two attempts in sequence the second keeps the rule after each success of the first. -/
theorem Keeps.attempt_bind {post : Except ε β → List (Exchange I) → Prop}
    {mid : Except ε α → List (Exchange I) → Prop} {x : ExceptT ε (Dialogue I) α}
    {f : α → ExceptT ε (Dialogue I) β} (hx : x.run.Keeps rule mid past)
    (herror : ∀ e past', mid (.error e) past' → post (.error e) past')
    (hf : ∀ a past', mid (.ok a) past' → (f a).run.Keeps rule post past') :
    (x >>= f).run.Keeps rule post past := by
  rw [ExceptT.run_bind]
  apply hx.bind
  rintro (e | a) past' hmid
  · exact herror e past' hmid
  · exact hf a past' hmid

/-- Whatever the server answers, each exchange is allowed by those before it, and the end meets
the postcondition. -/
theorem Keeps.exchanges {post : α → List (Exchange I) → Prop} {d : Dialogue I α}
    (h : d.Keeps rule post past) (serve : Server σ I) (s : σ) :
    (∀ before e after, d.exchanges serve s = before ++ e :: after →
      rule (past ++ before) e.call) ∧
    post (d.run serve s).1 (past ++ d.exchanges serve s) := by
  induction d generalizing past s with
  | done a =>
    refine ⟨?_, by simpa [Dialogue.exchanges, Keeps] using h⟩
    intro before e after split
    simp [Dialogue.exchanges] at split
  | ask c next ih =>
    obtain ⟨allowed, rest⟩ := h
    obtain ⟨inside, last⟩ := ih _ (rest (serve c s).1) (serve c s).2
    refine ⟨?_, by simpa [Dialogue.exchanges] using last⟩
    intro before e after split
    cases before with
    | nil =>
      obtain ⟨rfl, -⟩ := List.cons.inj split
      simpa using allowed
    | cons first before =>
      obtain ⟨rfl, tail⟩ := List.cons.inj split
      simpa using inside before e after tail

end DataGrid.Dialogue
