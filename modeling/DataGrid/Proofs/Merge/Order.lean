import DataGrid.Proofs.Merge.Comparison
import DataGrid.Proofs.Merge.Trees

/-! Merges of different objects between two trees, one after the other. None of them touches an
object that another one touches or has in its way, and none finds its first collection or its
destination among the collections that another one opens. So each does what it would have done
alone at the start, and the order of the merges makes no difference. -/
namespace DataGrid.Merge
open Catalog (Memory)
open Catalog.Memory
open DataGrid.Path (Proper Plain place ladder)
variable {τ : Type} {hosts : Hosts τ} {rules : Rules} {current coll p path : String}
  {base root rel : List (List Char)} {m n : Memory} {s s' : Memory × τ}
  {r : Except Error Outcome}

/-! What a single merge does, whether it has a destination or not. -/

theorem object_refused {e : Error} (hpath : destination p current coll = .error e)
    (h : Ends hosts (object rules p current coll) s r s') : r = .error e ∧ s' = s := by
  rw [object, ends_bind_iff] at h
  rcases h with ⟨e', hknown, rfl⟩ | ⟨path, mid, hknown, -⟩
  · obtain ⟨he, same⟩ := ends_known_iff.mp hknown
    rw [hpath] at he
    cases he
    exact ⟨rfl, same⟩
  · obtain ⟨hok, -⟩ := ends_known_iff.mp hknown
    rw [hpath] at hok
    contradiction

theorem untouched_of_ends (h : Ends hosts (object rules p current coll) s r s') {x : String}
    (untouched : ¬ Touches current coll p x) : s'.1.objects[x]? = s.1.objects[x]? := by
  cases hpath : destination p current coll with
  | error e => rw [(object_refused hpath h).2]
  | ok path =>
    apply (object_course hpath h).elsewhere
    · intro same
      exact untouched ⟨path, hpath, .inl same.symm⟩
    · intro same
      exact untouched ⟨path, hpath, .inr same.symm⟩

theorem undisturbed_of_ends (h : Ends hosts (object rules p current coll) s r s') :
    s.1.Undisturbed s'.1 := by
  cases hpath : destination p current coll with
  | error e =>
    rw [(object_refused hpath h).2]
    exact .refl s.1
  | ok path => exact (object_course hpath h).undisturbed

/-- The destination has at least two names. -/
theorem Candidate.split (c : Candidate base root m p path rel)
    (roots : Roots current coll base root) :
    ∃ z rest s, root ++ rel = z :: rest ++ [s] := by
  obtain ⟨z, top, hroot⟩ := List.exists_cons_of_ne_nil roots.root_ne_nil
  obtain ⟨init, s, hrel⟩ := (List.eq_nil_or_concat rel).resolve_left c.below
  exact ⟨z, top ++ init, s, by simp [hroot, hrel]⟩

/-- A collection that lies above the path of the names, but not directly below the root. -/
def OnWay (names : List (List Char)) (c : String) : Prop :=
  ∃ upper tail, names = upper ++ tail ∧ tail ≠ [] ∧ 2 ≤ upper.length ∧ c = place upper

theorem onWay_of_mem_ladder {z s : List Char} {rest rung : List (List Char)}
    (h : rung ∈ ladder [z] rest) : OnWay (z :: rest ++ [s]) (place rung) := by
  obtain ⟨front, back, rfl, some, rfl⟩ := Path.mem_ladder_iff.mp h
  refine ⟨[z] ++ front, back ++ [s], by simp, by simp, ?_, rfl⟩
  have := List.length_pos_iff.mpr some
  simp only [List.length_append, List.length_singleton]
  omega

theorem grown_of_ends (tidy : Tidy s.1) (roots : Roots current coll base root)
    (present : p ∈ s.1.objects) (h : Ends hosts (object rules p current coll) s r s') {d : String}
    (hd : d ∈ s'.1.collections) :
    d ∈ s.1.collections ∨ s.1.failures .collCreate = none ∧
      ∃ path rel, Candidate base root s.1 p path rel ∧ OnWay (root ++ rel) d := by
  cases hpath : destination p current coll with
  | error e =>
    rw [(object_refused hpath h).2] at hd
    exact .inl hd
  | ok path =>
    obtain ⟨rel, c⟩ := roots.candidate tidy.toOrderly present hpath
    obtain ⟨z, rest, last, split⟩ := c.split roots
    have proper := c.proper'
    rw [c.target, split] at hpath
    rw [split] at proper
    apply (object_grown tidy proper hpath h hd).imp_right
    rintro ⟨works, rung, hrung, rfl⟩
    exact ⟨works, path, rel, c, split ▸ onWay_of_mem_ladder hrung⟩

theorem tidy_of_ends (tidy : Tidy s.1) (roots : Roots current coll base root)
    (present : p ∈ s.1.objects) (h : Ends hosts (object rules p current coll) s r s') :
    Tidy s'.1 where
  separate := h.preserves (fun c m => (change_of_serve c m).separate) tidy.separate
  nested := h.preserves (fun c m => (change_of_serve c m).nested) tidy.nested
  objects x hx := by
    by_cases touched : Touches current coll p x
    · obtain ⟨path, hpath, rfl | rfl⟩ := touched
      · exact tidy.objects x present
      · obtain ⟨rel, c⟩ := roots.candidate tidy.toOrderly present hpath
        exact Path.plain_iff.mpr ⟨root ++ rel, by simp [c.below], c.proper', c.target⟩
    · apply tidy.objects x
      rw [mem_objects_iff] at hx ⊢
      rwa [untouched_of_ends h touched] at hx
  collections d hd := by
    rcases grown_of_ends tidy roots present h hd with hd | ⟨-, path, rel, c, onWay⟩
    · exact tidy.collections d hd
    · obtain ⟨upper, tail, split, -, two, rfl⟩ := onWay
      have proper := c.proper'
      rw [split] at proper
      refine Path.plain_iff.mpr ⟨upper, ?_, proper.left, rfl⟩
      rintro rfl
      contradiction

/-! After some merges. -/

/-- The merge of one object on the catalog at the start. -/
def alone (hosts : Hosts τ) (rules : Rules) (current coll : String) (start : Memory × τ)
    (p : String) : Except Error Outcome × Memory × τ :=
  (object rules p current coll).run.run (world hosts) start

/-- The catalog after the merges of `done`: it is made up of what each of them leaves alone, but
for the times of replicas. -/
structure Progress (hosts : Hosts τ) (rules : Rules) (current coll : String)
    (start : Memory × τ) (done : List String) (n : Memory) : Prop where
  tidy : Tidy n
  failures : n.failures = start.1.failures
  untouched : ∀ x, (∀ q ∈ done, ¬ Touches current coll q x) → n.objects[x]? = start.1.objects[x]?
  touched : ∀ q ∈ done, ∀ x, Touches current coll q x →
    n.objects[x]?.map DataObject.timeless =
      (alone hosts rules current coll start q).2.1.objects[x]?.map DataObject.timeless
  collections : ∀ c, c ∈ n.collections ↔ c ∈ start.1.collections ∨
    ∃ q ∈ done, c ∈ (alone hosts rules current coll start q).2.1.collections

variable {start : Memory × τ} {done : List String}

theorem Progress.initial (tidy : Tidy start.1) :
    Progress hosts rules current coll start [] start.1 :=
  ⟨tidy, rfl, fun _ _ => rfl, by simp, by simp⟩

/-- The other merges leave alone what a merge touches. -/
theorem Roots.untouched (roots : Roots current coll base root) (orderly : Orderly m)
    (present : ∀ q ∈ done, q ∈ m.objects) (fresh : p ∉ done) (hp : p ∈ m.objects) {x : String}
    (touches : Touches current coll p x) : ∀ q ∈ done, ¬ Touches current coll q x := by
  intro q hq touches'
  have same := roots.touches_unique orderly hp (present q hq) touches touches'
  exact fresh (same ▸ hq)

section
variable (tidy : Tidy start.1) (roots : Roots current coll base root)
  (h : Progress hosts rules current coll start done n) (present : ∀ q ∈ done, q ∈ start.1.objects)
  (fresh : p ∉ done)
include tidy roots h present

/-- What is new has been opened on the way to a destination. -/
theorem Progress.grown {d : String} (hd : d ∈ n.collections) :
    d ∈ start.1.collections ∨ start.1.failures .collCreate = none ∧
      ∃ q path rel, Candidate base root start.1 q path rel ∧ OnWay (root ++ rel) d := by
  rcases (h.collections d).mp hd with hd | ⟨q, hq, hd⟩
  · exact .inl hd
  · have ends : Ends hosts (object rules q current coll) start
        (alone hosts rules current coll start q).1 (alone hosts rules current coll start q).2 := rfl
    exact (grown_of_ends tidy roots (present q hq) ends hd).imp_right
      fun ⟨works, path, rel, c, onWay⟩ => ⟨works, q, path, rel, c, onWay⟩

include fresh

theorem Progress.compatible (c : Candidate base root start.1 p path rel)
    {z last : List Char} {rest : List (List Char)} (split : root ++ rel = z :: rest ++ [last]) :
    Compatible z rest last p n start.1 where
  tidy := h.tidy
  tidy' := tidy
  failures := h.failures
  creating := congrFun h.failures _
  candidate := by
    have touches : Touches current coll p p := ⟨path, c.destination roots, .inl rfl⟩
    exact h.untouched p (roots.untouched tidy.toOrderly present fresh c.present touches)
  present := by
    have touches : Touches current coll p path := ⟨path, c.destination roots, .inr rfl⟩
    rw [← split, ← c.target]
    exact h.untouched path (roots.untouched tidy.toOrderly present fresh c.present touches)
  rungs := by
    intro rung hrung
    obtain ⟨upper, tail, cut, some, -, same⟩ := onWay_of_mem_ladder (s := last) hrung
    rw [← split] at cut
    rw [same, mem_objects_iff, mem_objects_iff, h.untouched]
    intro q hq ⟨path', hpath', here⟩
    obtain ⟨rel', c'⟩ := roots.candidate tidy.toOrderly (present q hq) hpath'
    rcases here with here | here
    · exact c'.not_over_target c roots cut here.symm
    · exact c'.not_above c tidy cut some here.symm
  wider d hd := (h.collections d).mpr (.inl hd)
  start := by
    intro there
    rcases h.grown tidy roots present there with there | ⟨-, q, path', rel', c', onWay⟩
    · exact there
    · obtain ⟨upper, tail, cut, -, two, same⟩ := onWay
      have proper := c.proper'
      have proper' := c'.proper'
      rw [split] at proper
      rw [cut] at proper'
      have first : Proper [z] := fun s hs => proper s (by simp_all)
      rw [Path.place_inj first proper'.left] at same
      simp [← same] at two
  target := by
    intro there
    rcases h.grown tidy roots present there with there | ⟨-, q, path', rel', c', onWay⟩
    · exact there
    · obtain ⟨upper, tail, cut, some, -, same⟩ := onWay
      rw [← split, ← c.target] at same
      exact absurd same (c.not_above c' tidy cut some)
  same := by
    intro fails d hd
    rcases h.grown tidy roots present hd with hd | ⟨works, -⟩
    · exact hd
    · exact absurd works fails

variable {answer : Remote.Request → Except Remote.Failure Remote.Output}
  (fixed : hosts.AnswerBy answer) (hp : p ∈ start.1.objects)
include fixed hp

/-- The next merge does what it would have done at the start. -/
theorem Progress.agree {t : τ} (ends : Ends hosts (object rules p current coll) (n, t) r s') :
    r = (alone hosts rules current coll start p).1 ∧
      (∀ x, Touches current coll p x → s'.1.objects[x]?.map DataObject.timeless =
        (alone hosts rules current coll start p).2.1.objects[x]?.map DataObject.timeless) ∧
      ∀ c, c ∈ s'.1.collections ↔ c ∈ n.collections ∨
        c ∈ (alone hosts rules current coll start p).2.1.collections := by
  have solo : Ends hosts (object rules p current coll) start
      (alone hosts rules current coll start p).1 (alone hosts rules current coll start p).2 := rfl
  generalize alone hosts rules current coll start p = out at solo ⊢
  cases hpath : destination p current coll with
  | error e =>
    obtain ⟨rfl, rfl⟩ := object_refused hpath ends
    obtain ⟨hr, hs⟩ := object_refused hpath solo
    rw [hr, hs]
    refine ⟨rfl, ?_, ?_⟩
    · rintro x ⟨path, hok, -⟩
      rw [hpath] at hok
      contradiction
    · intro c
      exact (or_iff_left_of_imp fun hc => (h.collections c).mpr (.inl hc)).symm
  | ok path =>
    obtain ⟨rel, c⟩ := roots.candidate tidy.toOrderly hp hpath
    obtain ⟨z, rest, last, split⟩ := c.split roots
    have compatible := h.compatible tidy roots present fresh c split
    have proper := c.proper'
    have target := c.target
    rw [split] at proper target
    subst target
    obtain ⟨same, near⟩ := object_agree fixed proper hpath compatible ends solo
    refine ⟨same, ?_, near.collections⟩
    rintro x ⟨path', hok, rfl | rfl⟩
    · exact near.candidate
    · rw [hpath] at hok
      cases hok
      exact near.present

theorem Progress.step {t : τ} (ends : Ends hosts (object rules p current coll) (n, t) r s') :
    Progress hosts rules current coll start (done ++ [p]) s'.1 := by
  obtain ⟨-, touched, collections⟩ := h.agree tidy roots present fresh fixed hp ends
  have tidy' : Tidy s'.1 := by
    cases hpath : destination p current coll with
    | error e =>
      rw [(object_refused hpath ends).2]
      exact h.tidy
    | ok path =>
      have touches : Touches current coll p p := ⟨path, hpath, .inl rfl⟩
      have still := h.untouched p (roots.untouched tidy.toOrderly present fresh hp touches)
      have here : p ∈ n.objects := by
        rw [mem_objects_iff, still, ← mem_objects_iff]
        exact hp
      exact tidy_of_ends h.tidy roots here ends
  refine ⟨tidy', ?_, ?_, ?_, ?_⟩
  · rw [(undisturbed_of_ends ends).failures, h.failures]
  · intro x untouched
    rw [untouched_of_ends ends (untouched p (by simp))]
    exact h.untouched x fun q hq => untouched q (by simp [hq])
  · intro q hq x touches
    rcases List.mem_append.mp hq with hq | hq
    · have other : ¬ Touches current coll p x := by
        intro touches'
        have same := roots.touches_unique tidy.toOrderly (present q hq) hp touches touches'
        exact fresh (same ▸ hq)
      rw [untouched_of_ends ends other]
      exact h.touched q hq x touches
    · rw [List.mem_singleton.mp hq] at touches ⊢
      exact touched x touches
  · intro c
    rw [collections, h.collections]
    simp only [List.mem_append, List.mem_singleton, or_and_right, exists_or, exists_eq_left,
      or_assoc]

end

section
variable (tidy : Tidy start.1) (roots : Roots current coll base root)
  {answer : Remote.Request → Except Remote.Failure Remote.Output} (fixed : hosts.AnswerBy answer)
include tidy roots fixed

theorem run_results {ps : List String} (h : Progress hosts rules current coll start done n)
    (distinct : (done ++ ps).Nodup) (present : ∀ q ∈ done ++ ps, q ∈ start.1.objects) {t : τ}
    {outcomes : List (String × Except Error Outcome)}
    (run : (results rules current coll ps).run (world hosts) (n, t) = (outcomes, s')) :
    outcomes = ps.map (fun p => (p, (alone hosts rules current coll start p).1)) ∧
      Progress hosts rules current coll start (done ++ ps) s'.1 := by
  induction ps generalizing done n t outcomes with
  | nil =>
    cases run
    rw [List.append_nil]
    exact ⟨rfl, h⟩
  | cons p ps ih =>
    have fresh : p ∉ done := by
      intro hp
      exact (List.nodup_append.mp distinct).2.2 p hp p List.mem_cons_self rfl
    have hp : p ∈ start.1.objects := present p (by simp)
    have before : ∀ q ∈ done, q ∈ start.1.objects := fun q hq => present q (by simp [hq])
    rw [results, Dialogue.run_bind, Dialogue.run_bind] at run
    generalize first : (object rules p current coll).run.run (world hosts) (n, t) = out at run
    obtain ⟨r, mid⟩ := out
    have same := (h.agree tidy roots before fresh fixed hp first).1
    have next := h.step tidy roots before fresh fixed hp first
    have regroup : done ++ p :: ps = done ++ [p] ++ ps := by simp
    rw [regroup] at distinct present ⊢
    generalize tail : (results rules current coll ps).run (world hosts) mid = out at run
    obtain ⟨rest, last⟩ := out
    cases run
    obtain ⟨rfl, progress⟩ := ih next distinct present tail
    exact ⟨by rw [List.map_cons, same], progress⟩

end

/-- What has been done determines the catalog, but for the times of replicas. -/
theorem Progress.agree_of_perm {ps ps' : List String} {n' : Memory}
    (h : Progress hosts rules current coll start ps n)
    (h' : Progress hosts rules current coll start ps' n') (perm : ps.Perm ps') :
    (∀ x : String, n.objects[x]?.map DataObject.timeless = n'.objects[x]?.map DataObject.timeless) ∧
      ∀ c, c ∈ n.collections ↔ c ∈ n'.collections := by
  constructor
  · intro x
    by_cases touched : ∃ q ∈ ps, Touches current coll q x
    · obtain ⟨q, hq, touches⟩ := touched
      rw [h.touched q hq x touches, h'.touched q (perm.mem_iff.mp hq) x touches]
    · rw [h.untouched x fun q hq touches => touched ⟨q, hq, touches⟩]
      rw [h'.untouched x fun q hq touches => touched ⟨q, perm.mem_iff.mpr hq, touches⟩]
  · intro c
    rw [h.collections, h'.collections]
    simp only [perm.mem_iff]

/-- Merges of different objects commute: in any order each of them has the same result, and the
objects, but for the times of replicas, and the collections are the same at the end. -/
theorem merges_commute {answer : Remote.Request → Except Remote.Failure Remote.Output}
    (fixed : hosts.AnswerBy answer) (reachable : Reachable m) (orderly : Orderly m)
    (plain : Plain (Path.trim current)) (plain' : Plain (Path.trim coll))
    (apart : Path.within current coll = false) (apart' : Path.within coll current = false)
    {ps ps' : List String} (distinct : ps.Nodup) (present : ∀ p ∈ ps, p ∈ m.objects)
    (perm : ps.Perm ps') {t : τ} {outcomes outcomes' : List (String × Except Error Outcome)}
    (run : (results rules current coll ps).run (world hosts) (m, t) = (outcomes, s))
    (run' : (results rules current coll ps').run (world hosts) (m, t) = (outcomes', s')) :
    (∃ outcome : String → Except Error Outcome,
      outcomes = ps.map (fun p => (p, outcome p)) ∧
        outcomes' = ps'.map fun p => (p, outcome p)) ∧
      (∀ x : String, s.1.objects[x]?.map DataObject.timeless =
        s'.1.objects[x]?.map DataObject.timeless) ∧
      ∀ c, c ∈ s.1.collections ↔ c ∈ s'.1.collections := by
  have tidy : Tidy m := reachable.tidy orderly
  obtain ⟨base, root, roots⟩ := exists_roots plain plain' apart apart'
  have initial : Progress hosts rules current coll (m, t) [] m := Progress.initial tidy
  obtain ⟨hout, progress⟩ := run_results tidy roots fixed initial distinct present run
  obtain ⟨hout', progress'⟩ := run_results tidy roots fixed initial (perm.nodup distinct)
    (fun q hq => present q (perm.mem_iff.mpr hq)) run'
  exact ⟨⟨_, hout, hout'⟩, progress.agree_of_perm progress' perm⟩

/-- Both objects need a collection that only the first of them finds missing. -/
theorem shared_collection_in_either_order :
    ∃ (outcome : String → Except Error Outcome) (s s' : Memory × Unit),
    (results .usual "/z/c" "/z/m" ["/z/c/a/x", "/z/c/a/y"]).run (world Sample.willing)
      (Sample.catalog ["/z/c/a/x", "/z/c/a/y"], ()) =
        ([("/z/c/a/x", outcome "/z/c/a/x"), ("/z/c/a/y", outcome "/z/c/a/y")], s) ∧
    (results .usual "/z/c" "/z/m" ["/z/c/a/y", "/z/c/a/x"]).run (world Sample.willing)
      (Sample.catalog ["/z/c/a/x", "/z/c/a/y"], ()) =
        ([("/z/c/a/y", outcome "/z/c/a/y"), ("/z/c/a/x", outcome "/z/c/a/x")], s') ∧
    "/z/m/a" ∉ (Sample.catalog ["/z/c/a/x", "/z/c/a/y"]).collections ∧
    "/z/m/a" ∈ s.1.collections ∧ "/z/m/a" ∈ s'.1.collections := by
  have fixed : Sample.willing.AnswerBy fun _ => .ok {} := fun _ _ _ => rfl
  have reachable : Reachable (Sample.catalog ["/z/c/a/x", "/z/c/a/y"]) :=
    .replica _ (.replica _ (.empty _ _))
  have orderly : Orderly (Sample.catalog ["/z/c/a/x", "/z/c/a/y"]) := by decide +kernel
  have present : ∀ p ∈ ["/z/c/a/x", "/z/c/a/y"],
      p ∈ (Sample.catalog ["/z/c/a/x", "/z/c/a/y"]).objects := by decide +kernel
  have run := (Prod.eta ((results .usual "/z/c" "/z/m" ["/z/c/a/x", "/z/c/a/y"]).run
    (world Sample.willing) (Sample.catalog ["/z/c/a/x", "/z/c/a/y"], ()))).symm
  have run' := (Prod.eta ((results .usual "/z/c" "/z/m" ["/z/c/a/y", "/z/c/a/x"]).run
    (world Sample.willing) (Sample.catalog ["/z/c/a/x", "/z/c/a/y"], ()))).symm
  obtain ⟨⟨outcome, same, same'⟩, -, collections⟩ := merges_commute fixed reachable orderly
    (by decide) (by decide) (by decide) (by decide) (by decide) present (.swap _ _ []) run run'
  have missing : "/z/m/a" ∉ (Sample.catalog ["/z/c/a/x", "/z/c/a/y"]).collections := by
    decide +kernel
  have made : "/z/m/a" ∈ ((results .usual "/z/c" "/z/m" ["/z/c/a/x", "/z/c/a/y"]).run
      (world Sample.willing) (Sample.catalog ["/z/c/a/x", "/z/c/a/y"], ())).2.1.collections := by
    decide +kernel
  exact ⟨outcome, _, _, Prod.ext same rfl, Prod.ext same' rfl, missing, made,
    (collections "/z/m/a").mp made⟩

end DataGrid.Merge
