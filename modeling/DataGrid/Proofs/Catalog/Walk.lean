import DataGrid.Proofs.Catalog.Operations
import DataGrid.Proofs.Directory.Scans

/-! The collections of a catalog as directories. A walk down to the parent of a path looks
without changing anything and then opens collections above the path, one after the other; it
may stop early, but nothing else happens to the catalog. -/
namespace DataGrid.Catalog
open Directory (survey create ensure ensureParent)

/-- Collections for which `P` holds may have been opened, and nothing else has happened. -/
structure Memory.Opened (P : String → Prop) (m m' : Memory) : Prop where
  objects : m'.objects = m.objects
  kept : ∀ c ∈ m.collections, c ∈ m'.collections
  fresh : ∀ c ∈ m'.collections, c ∈ m.collections ∨ P c
  undisturbed : m.Undisturbed m'

namespace Memory
variable {P Q : String → Prop} {m m' m'' : Memory} {mode : UInt32}

theorem Opened.refl (P : String → Prop) (m : Memory) : Opened P m m :=
  ⟨rfl, fun _ h => h, fun _ h => .inl h, .refl m⟩

theorem Opened.trans (h : Opened P m m') (h' : Opened P m' m'') : Opened P m m'' where
  objects := h'.objects.trans h.objects
  kept c hc := h'.kept c (h.kept c hc)
  fresh c hc := (h'.fresh c hc).elim (h.fresh c) .inr
  undisturbed := h.undisturbed.trans h'.undisturbed

theorem Opened.mono (h : Opened P m m') (imp : ∀ c, P c → Q c) : Opened Q m m' :=
  ⟨h.objects, h.kept, fun c hc => (h.fresh c hc).imp_right (imp c), h.undisturbed⟩

/-- The catalog as a server of directories. -/
def asDirectory : Server Memory Directory.interface :=
  fun c m => (Catalog.asDirectory c).run serve m

/-- Looking changes nothing. -/
theorem asDirectory_stat_snd (path : String) (m : Memory) :
    (asDirectory (.stat path) m).2 = m := by
  have lookup : (serve (.identify path) m).2 = m := rfl
  have first : (serve (.hasCollection path) m) = (.ok (m.hasCollection path), m) := rfl
  change ((Catalog.look path).run serve m).2 = m
  simp only [Catalog.look, Catalog.ask, Dialogue.ask_bind, Dialogue.run_ask, first]
  cases m.hasCollection path with
  | true => rfl
  | false =>
    simp only [Dialogue.done_bind, Dialogue.run_ask]
    rcases hs : (serve (.identify path) m).1 with e | id
    · simpa [Dialogue.pure_eq] using lookup
    · cases id <;> simpa [Dialogue.pure_eq] using lookup

theorem asDirectory_mkdir (path : String) (m : Memory) :
    asDirectory (.mkdir path mode) m =
      match m.makeCollection path with
      | .ok after => (.ok (), after)
      | .error e => (.error (ioError e), m) := by
  change (Catalog.make path).run serve m = _
  simp only [Catalog.make, Catalog.ask, Dialogue.ask_bind, Dialogue.run_ask, serve_eq_settle,
    answer]
  cases m.makeCollection path <;> rfl

theorem run_survey_snd (places missing : List String) (m : Memory) :
    ((survey places missing).run asDirectory m).2 = m := by
  induction places generalizing missing with
  | nil => rfl
  | cons d ds ih =>
    rw [survey, Dialogue.run_ask, asDirectory_stat_snd]
    cases (asDirectory (.stat d) m).1 with
    | ok st => rfl
    | error e => exact ih _

/-- What a survey finds missing it was asked about. -/
theorem mem_of_run_survey {places missing found : List String}
    (h : ((survey places missing).run asDirectory m).1 = .ok found) :
    ∀ d ∈ found, d ∈ places ∨ d ∈ missing := by
  induction places generalizing missing with
  | nil =>
    cases h
    exact fun d hd => .inr hd
  | cons p ps ih =>
    rw [survey, Dialogue.run_ask, asDirectory_stat_snd] at h
    cases hs : (asDirectory (.stat p) m).1 with
    | ok st =>
      rw [hs] at h
      by_cases dir : st.isDir
      · simp only [dir, if_true, Dialogue.run_done, Except.ok.injEq] at h
        subst h
        exact fun d hd => .inr hd
      · simp [dir] at h
    | error e =>
      rw [hs] at h
      intro d hd
      rcases ih h d hd with hd | hd
      · exact .inl (List.mem_cons_of_mem p hd)
      · rcases List.mem_cons.mp hd with rfl | hd
        · exact .inl List.mem_cons_self
        · exact .inr hd

theorem opened_of_run_create (places : List String) (count : Nat) (m : Memory) :
    Opened (fun c => ∃ d ∈ places, c = Path.trim d) m
      ((create mode places count).run asDirectory m).2 := by
  induction places generalizing count m with
  | nil => exact .refl _ m
  | cons d ds ih =>
    rw [create, Dialogue.run_ask, asDirectory_mkdir]
    cases made : m.makeCollection d with
    | error e => exact .refl _ m
    | ok after =>
      obtain ⟨-, -, -, -, rfl⟩ := makeCollection_eq_ok_iff.mp made
      have step : Opened (fun c => ∃ d' ∈ d :: ds, c = Path.trim d') m
          (m.opened (Path.trim d)) := by
        refine ⟨rfl, ?_, ?_, opened_undisturbed m _⟩
        · intro c hc
          exact (mem_opened m _ c).mpr (.inr hc)
        · intro c hc
          rcases (mem_opened m _ c).mp hc with rfl | hc
          · exact .inr ⟨d, List.mem_cons_self, rfl⟩
          · exact .inl hc
      refine step.trans ((ih (count + 1) _).mono ?_)
      rintro c ⟨d', hd', rfl⟩
      exact ⟨d', List.mem_cons_of_mem d hd', rfl⟩

/-- A walk to the parent of a path opens nothing but collections above the path. -/
theorem opened_of_run_ensureParent (mode : UInt32) (start path : String) (m : Memory) :
    Opened (Path.Above · path) m ((ensureParent start path mode).run asDirectory m).2 := by
  rw [ensureParent, Directory.parentAndName]
  cases hsplit : Path.split? path with
  | none => exact .refl _ m
  | some parts =>
    obtain ⟨parent, leaf⟩ := parts
    simp only [Directory.ensure_eq]
    cases hroute : Directory.route? start parent with
    | none => exact .refl _ m
    | some route =>
      simp only [Dialogue.run_bind, run_survey_snd]
      cases found : ((survey route.reverse []).run asDirectory m).1 with
      | error e => exact .refl _ m
      | ok missing =>
        refine (opened_of_run_create missing 0 m).mono ?_
        rintro c ⟨d, hd, rfl⟩
        rcases mem_of_run_survey found d hd with hd | hd
        · exact (Path.above_of_mem_route hroute hsplit d (List.mem_reverse.mp hd)).trim
        · contradiction

end Memory
end DataGrid.Catalog
