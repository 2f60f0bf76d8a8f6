import DataGrid.Proofs.Catalog.Invariant
import DataGrid.Proofs.Merge.Comparison

/-! The merge of an object that the master collection lacks. If nothing is in the way of its master
path, and the top of that path's tree is there, the walk finds the lowest collection above the
path; all above that one is there, because collections come with all that is above them, and all
below it is made from the top down. Then the parent is a collection, and the object is moved. -/
namespace DataGrid.Catalog.Memory
open DataGrid.Path (Proper place ladder)
open Dialogue (Runs runs_run runs_iff)
open Directory (survey ensure)

variable {m : Memory} {base rest : List (List Char)}

/-- All above a plain collection is there. -/
theorem Layered.on_ladder (h : Layered m) (deep : base ≠ []) (proper : Proper (base ++ rest))
    (there : rest = [] ∨ place (base ++ rest) ∈ m.collections) :
    ∀ rung ∈ ladder base rest, place rung ∈ m.collections := by
  intro rung on
  obtain ⟨front, back, rfl, some, rfl⟩ := Path.mem_ladder_iff.mp on
  have last : place (base ++ front ++ back) ∈ m.collections := by
    rw [List.append_assoc]
    exact there.resolve_left (by simp [some])
  rw [← List.append_assoc] at proper
  by_cases lowest : back = []
  · rwa [lowest, List.append_nil] at last
  · have above := (Path.above_place_iff proper).mpr ⟨_, back, rfl, lowest, rfl⟩
    have filled : place (base ++ front) ≠ "" := by
      rw [Ne, ← String.toList_inj, Path.toList_place]
      simp [deep]
    exact h.above _ last _ above filled (Path.place_ne_root proper.left)

/-- The walk makes all that is missing on a ladder without objects, if its start is there. -/
theorem runs_ensure (mode : UInt32) (layered : Layered m) (looks : m.failures .lookup = none)
    (creates : m.failures .collCreate = none) (deep : base ≠ []) (proper : Proper (base ++ rest))
    (home : place base ∈ m.collections)
    (clear : ∀ rung ∈ ladder base rest, place rung ∉ m.objects) :
    ∃ calls n missing, Runs asDirectory (ensure (place base) (place (base ++ rest)) mode) m calls
        (.ok n) (m.openAll missing) ∧
      calls.filterMap (·.call.wanted?) = missing ∧ missing.Pairwise Path.Above ∧
      ∀ c, c ∈ missing ↔ (∃ rung ∈ ladder base rest, c = place rung) ∧ c ∉ m.collections := by
  have route := Path.route?_place proper.left proper.right
  rcases run_survey_ladder looks proper with
    ⟨front, back, rfl, last, free, found⟩ | ⟨rung, on, there, -⟩
  case inr => exact absurd there (clear rung on)
  rw [← List.append_assoc] at proper
  have known := layered.on_ladder deep proper.left last
  have lowest : place (base ++ front) ∈ m.collections := by
    rcases last with rfl | last
    · rwa [List.append_nil]
    · exact last
  obtain ⟨asked, surveyed⟩ : ∃ asked, Runs asDirectory
      (survey ((ladder base (front ++ back)).map place).reverse []) m asked
      (.ok ((ladder (base ++ front) back).map place)) m :=
    ⟨_, rfl, Prod.ext found (run_survey_snd _ _ m)⟩
  have stats (x) (mem : x ∈ asked) : ∃ path, x.call = .stat path :=
    Directory.stat_of_transcript_survey (runs_iff.mp surveyed).1 mem
  obtain ⟨n, made⟩ := runs_create mode creates (by simp [deep]) proper lowest free 0
  refine ⟨asked ++ ((ladder (base ++ front) back).map place).map (Directory.created mode), n, _,
    ?_, ?_, Path.ladder_descend (base ++ front) back, ?_⟩
  · simp only [Directory.ensure_eq, route]
    exact surveyed.bind made
  · rw [List.filterMap_append, Directory.wanted_of_stat stats, Directory.wanted_of_created,
      List.nil_append]
  · intro c
    rw [Path.ladder_append, List.mem_map]
    constructor
    · rintro ⟨rung, on, rfl⟩
      exact ⟨⟨rung, List.mem_append_right _ on, rfl⟩, (free rung on).1⟩
    · rintro ⟨⟨rung, on, rfl⟩, missing⟩
      rcases List.mem_append.mp on with on | on
      · exact absurd (known rung on) missing
      · exact ⟨rung, on, rfl⟩

end DataGrid.Catalog.Memory

namespace DataGrid.Merge
open Catalog (Memory)
open Catalog.Memory
open DataGrid.Path (Proper place ladder)
open Dialogue (Exchange Runs runs_run)

/-- The collection that a call asks for. -/
def opening? : interface.Call → Option String
  | .inl (.makeCollection coll) => some coll
  | _ => none

/-- The collections that the calls ask for, in order. -/
def openings (calls : List (Exchange interface)) : List String :=
  calls.filterMap (opening? ·.call)

/-- No call is a command on a host. -/
def CatalogOnly (calls : List (Exchange interface)) : Prop := ∀ x ∈ calls, ∃ c, x.call = .inl c

variable {τ α : Type} (hosts : Hosts τ) (rules : Rules) {m m' : Memory} {t : τ}
  {obj current coll master : String}

theorem CatalogOnly.append {xs ys : List (Exchange interface)} (h : CatalogOnly xs)
    (h' : CatalogOnly ys) : CatalogOnly (xs ++ ys) :=
  List.forall_mem_append.mpr ⟨h, h'⟩

theorem openings_append (xs ys : List (Exchange interface)) :
    openings (xs ++ ys) = openings xs ++ openings ys :=
  List.filterMap_append ..

/-- What is asked of the catalog in the world is asked of it alone. -/
theorem runs_onCatalog {d : Dialogue Catalog.interface α}
    {calls : List (Exchange Catalog.interface)} {a : α} (h : Runs serve d m calls a m') (t : τ) :
    Runs (world hosts) (onCatalog d) (m, t) (calls.map Exchange.left) a (m', t) :=
  (h.beside t).left hosts.serve

theorem catalogOnly_left (calls : List (Exchange Catalog.interface)) :
    CatalogOnly (calls.map Exchange.left) := by
  intro x mem
  obtain ⟨y, -, rfl⟩ := List.mem_map.mp mem
  exact ⟨y.call, rfl⟩

/-- A look at a collection makes none, and making one is one call. -/
theorem openings_asDirectory (c : Directory.Call) (m : Memory) :
    openings (((Catalog.asDirectory c).exchanges serve m).map Exchange.left) =
      c.wanted?.toList := by
  cases c with
  | mkdir path mode =>
    change openings (((Catalog.make path).exchanges serve m).map Exchange.left) = [path]
    simp only [Catalog.make, Catalog.ask, Dialogue.ask_bind, Dialogue.done_bind,
      Dialogue.exchanges]
    rcases (serve (.makeCollection path) m).1 with e | u <;> rfl
  | stat path =>
    change openings (((Catalog.look path).exchanges serve m).map Exchange.left) = []
    simp only [Catalog.look, Catalog.ask, Dialogue.ask_bind, Dialogue.done_bind,
      Dialogue.exchanges]
    rcases (serve (.hasCollection path) m).1 with e | there
    · rfl
    cases there with
    | true => rfl
    | false =>
      simp only [Dialogue.exchanges]
      rcases (serve (.identify path) (serve (.hasCollection path) m).2).1 with e | id
      · rfl
      · cases id <;> rfl

/-- A walk on collections asks the catalog for what it makes. -/
theorem runs_onCollections {d : Dialogue Directory.interface α}
    {calls : List (Exchange Directory.interface)} {a : α}
    (h : Runs Memory.asDirectory d m calls a m') (t : τ) :
    ∃ all, Runs (world hosts) (onCatalog (Catalog.onCollections d)) (m, t) all a (m', t) ∧
      CatalogOnly all ∧ openings all = calls.filterMap (·.call.wanted?) := by
  induction d generalizing m calls with
  | done b =>
    obtain ⟨rfl, ends⟩ := h
    cases ends
    exact ⟨[], Dialogue.runs_done _ _ _, by simp [CatalogOnly], rfl⟩
  | ask c next ih =>
    obtain ⟨rfl, ends⟩ := h
    have first := runs_onCatalog hosts (runs_run serve (Catalog.asDirectory c) m) t
    obtain ⟨all, rest, only, opens⟩ := ih _ ⟨rfl, ends⟩
    have whole : onCatalog (Catalog.onCollections (.ask c next)) =
        onCatalog (Catalog.asDirectory c) >>= fun answer =>
          onCatalog (Catalog.onCollections (next answer)) :=
      Dialogue.translate_bind _ _ _
    rw [whole]
    refine ⟨_, first.bind rest, (catalogOnly_left _).append only, ?_⟩
    rw [openings_append, openings_asDirectory, opens]
    cases c <;> rfl

/-- A call that the catalog answers is made, and the attempt goes on with the answer. -/
theorem runs_ask {step : Step} {target : String} {c : Catalog.Call} {a : c.Result}
    (answered : m.answer c = .ok (a, m')) (t : τ) :
    ∃ answer, Runs (world hosts) (ask step target c).run (m, t) [⟨.inl c, answer⟩] (.ok a)
      (m', t) := by
  have served : world hosts (.inl c) (m, t) = (.ok a, m', t) := by
    change ((serve c m).1, (serve c m).2, t) = _
    rw [serve_eq_ok_iff.mpr answered]
  exact ⟨.ok a, Dialogue.Runs.ask served (Dialogue.runs_done _ _ _)⟩

theorem runs_masterExists (works : m.failures .lookup = none) (vacant : m.objects[master]? = none)
    (t : τ) : ∃ answer, Runs (world hosts) (masterExists master).run (m, t)
      [⟨.inl (.identify master), answer⟩] (.ok false) (m, t) := by
  have served : world hosts (.inl (.identify master)) (m, t) = (.ok none, m, t) := by
    have id : m.identify master = .ok none := identify_eq_ok_iff.mpr ⟨works, by rw [vacant]; rfl⟩
    change ((serve (.identify master) m).1, (serve (.identify master) m).2, t) = _
    rw [serve_identify, id]
  exact ⟨_, Dialogue.Runs.ask served (Dialogue.runs_done _ _ _)⟩

section
variable {z s : List Char} {rest : List (List Char)}

/-- With nothing in the way and the top there, room can be made. -/
theorem runs_makeRoom (sound : Sound m) (unhurt : ∀ step, m.failures step = none)
    (proper : Proper (z :: rest ++ [s])) (home : place [z] ∈ m.collections)
    (clear : ∀ rung ∈ ladder [z] rest, place rung ∉ m.objects) (t : τ) :
    ∃ calls missing, Runs (world hosts) (makeRoom rules (place (z :: rest ++ [s]))).run (m, t)
        calls (.ok ()) (m.openAll missing, t) ∧
      CatalogOnly calls ∧ openings calls = missing ∧ missing.Pairwise Path.Above ∧
      ∀ c, c ∈ missing ↔ (∃ rung ∈ ladder [z] rest, c = place rung) ∧ c ∉ m.collections := by
  obtain ⟨walked, n, missing, walk, asked, descend, members⟩ :=
    runs_ensure (rules.directoryMode ||| Directory.traverseBits) sound.toLayered (unhurt .lookup)
      (unhurt .collCreate) (List.cons_ne_nil z []) proper.left home clear
  obtain ⟨calls, run, only, opens⟩ := runs_onCollections hosts walk t
  refine ⟨calls, missing, ?_, only, opens.trans asked, descend, members⟩
  rw [makeRoom, ExceptT.run_mk, ensureParent_place proper, ← List.append_nil calls]
  exact run.bind (Dialogue.runs_done _ _ _)

/-- With room above its master path, the object is moved there. -/
theorem runs_move {o : DataObject} (sound : Sound m) (unhurt : ∀ step, m.failures step = none)
    (proper : Proper (z :: rest ++ [s])) (home : place [z] ∈ m.collections)
    (clear : ∀ rung ∈ ladder [z] rest, place rung ∉ m.objects)
    (candidate : m.objects[obj]? = some o) (vacant : place (z :: rest ++ [s]) ∉ m.objects)
    (free : place (z :: rest ++ [s]) ∉ m.collections) (t : τ) :
    ∃ calls missing, Runs (world hosts) (move rules obj (place (z :: rest ++ [s]))).run (m, t) calls
        (.ok (.moved (place (z :: rest ++ [s]))))
        ((m.openAll missing).rehome obj (place (z :: rest ++ [s])) o, t) ∧
      CatalogOnly calls ∧ openings calls = missing ∧ missing.Pairwise Path.Above ∧
      ∀ c, c ∈ missing ↔ (∃ rung ∈ ladder [z] rest, c = place rung) ∧ c ∉ m.collections := by
  obtain ⟨calls, missing, room, only, opens, descend, members⟩ :=
    runs_makeRoom hosts rules sound unhurt proper home clear t
  have unopened : place (z :: rest ++ [s]) ∉ missing := by
    intro mem
    obtain ⟨rung, on, same⟩ := ((members _).mp mem).1
    have above := ((Path.above_place_concat_iff proper).mpr (.inr ⟨rung, on, same⟩)).2
    exact Path.not_above_self _ above
  have parent : Path.parent (place (z :: rest ++ [s])) = place (z :: rest) := by
    rw [Path.parent_place proper, if_neg (List.cons_ne_nil z rest)]
  have homed : place (z :: rest) ∈ (m.openAll missing).collections := by
    rw [mem_openAll]
    by_cases top : rest = []
    · exact .inl (by rwa [top])
    · by_cases there : place (z :: rest) ∈ m.collections
      · exact .inl there
      · have on : z :: rest ∈ ladder [z] rest :=
          Path.mem_ladder_iff.mpr ⟨rest, [], by simp, top, rfl⟩
        exact .inr ((members _).mpr ⟨⟨_, on, rfl⟩, there⟩)
  have moves : (m.openAll missing).answer (.move obj (place (z :: rest ++ [s]))) =
      .ok ((), (m.openAll missing).rehome obj (place (z :: rest ++ [s])) o) := by
    rw [answer_move_iff, move_eq_ok_iff, (openAll_undisturbed m missing).failures,
      openAll_objects, mem_openAll, parent]
    exact ⟨unhurt .rename, o, candidate, vacant, not_or.mpr ⟨free, unopened⟩, homed, rfl⟩
  obtain ⟨answer, asked⟩ := runs_ask hosts moves t
  refine ⟨calls ++ ([⟨.inl (.move obj (place (z :: rest ++ [s]))), answer⟩] ++ []), missing, ?_, ?_,
    ?_, descend, members⟩
  · exact room.attempt (asked.attempt (Dialogue.runs_done _ _ _))
  · exact only.append (by simp [CatalogOnly])
  · rw [openings_append, opens]
    exact List.append_nil missing

/-- A plain path that is not the top of its own tree has a parent in it. -/
theorem exists_names (plain : Path.Plain master) (lower : firstSegment master ≠ master) :
    ∃ z rest s, Proper (z :: rest ++ [s]) ∧ master = place (z :: rest ++ [s]) ∧
      firstSegment master = place [z] := by
  obtain ⟨names, some, proper, rfl⟩ := Path.plain_iff.mp plain
  cases names with
  | nil => contradiction
  | cons z names =>
    have first := firstSegment_place proper
    rcases List.eq_nil_or_concat names with rfl | ⟨rest, s, rfl⟩
    · exact absurd first lower
    · rw [List.concat_eq_append, ← List.cons_append] at proper first ⊢
      exact ⟨z, rest, s, proper, rfl, first⟩

end

/-- A merge whose master path is vacant comes to a move. -/
theorem runs_object {calls : List (Exchange interface)} {r : Except Error Outcome}
    (hpath : destination obj current coll = .ok master) (works : m.failures .lookup = none)
    (vacant : m.objects[master]? = none)
    (moves : Runs (world hosts) (move rules obj master).run (m, t) calls r (m', t)) :
    ∃ answer, Runs (world hosts) (object rules obj current coll).run (m, t)
      (⟨.inl (.identify master), answer⟩ :: calls) r (m', t) := by
  obtain ⟨answer, looked⟩ := runs_masterExists hosts works vacant t
  have path : Runs (world hosts) (known (.ok master)).run (m, t) [] (.ok master) (m, t) :=
    ⟨rfl, rfl⟩
  unfold object
  rw [hpath]
  exact ⟨answer, path.attempt (looked.attempt moves)⟩

/-- After it has been moved, an object is found under its new path alone. -/
theorem identify_rehomed {o : DataObject} (filed : Filed m) (works : m'.failures .lookup = none)
    (candidate : m.objects[obj]? = some o)
    (objects : ∀ x : String, m'.objects[x]? = if master = x then some (o.renamed master)
      else if obj = x then none else m.objects[x]?) (x : String) :
    m'.identify x = .ok (some o.id) ↔ x = master := by
  rw [identify_eq_ok_iff, objects]
  constructor
  · rintro ⟨-, found⟩
    by_contra other
    rw [if_neg (Ne.symm other)] at found
    split at found
    · contradiction
    · next elsewhere =>
      obtain ⟨p, there, same⟩ := Option.map_eq_some_iff.mp found.symm
      exact elsewhere (filed.distinct obj x o p candidate there same.symm)
  · rintro rfl
    rw [if_pos rfl]
    exact ⟨works, rfl⟩

/-- An object that the master collection lacks is moved there if nothing is in the way. Exactly
what is missing above its master path is made, each collection once and from the top down, and no
host is asked for anything. -/
theorem orphan_moved {o : DataObject} (reachable : Reachable m)
    (unhurt : ∀ step, m.failures step = none)
    (hpath : destination obj current coll = .ok master) (candidate : m.objects[obj]? = some o)
    (plain : Path.Plain master) (vacant : master ∉ m.objects) (free : master ∉ m.collections)
    (root : firstSegment master ∈ m.collections)
    (clear : ∀ x, x ≠ "" → Path.Above x master → x ∉ m.objects) (t : τ) :
    ∃ calls m', Runs (world hosts) (object rules obj current coll).run (m, t) calls
        (.ok (.moved master)) (m', t) ∧
      (∀ x ∈ calls, ∃ c, x.call = .inl c) ∧
      (openings calls).Pairwise Path.Above ∧
      (∀ c, c ∈ openings calls ↔ c ≠ "" ∧ Path.Above c master ∧ c ∉ m.collections) ∧
      (∀ c, c ∈ m'.collections ↔ c ∈ m.collections ∨ c ∈ openings calls) ∧
      m'.changes = m.changes + (openings calls).length + 1 ∧
      (∀ x, m'.identify x = .ok (some o.id) ↔ x = master) ∧
      ∀ x, m'.objects[x]? = if master = x then some (o.renamed master)
        else if obj = x then none else m.objects[x]? := by
  obtain ⟨z, rest, s, proper, rfl, first⟩ :=
    exists_names plain fun same => free (same ▸ root)
  rw [first] at root
  have sound := sound_of_reachable reachable
  have unused : ∀ rung ∈ ladder [z] rest, place rung ∉ m.objects := by
    intro rung on
    obtain ⟨filled, above⟩ := (Path.above_place_concat_iff proper).mpr (.inr ⟨rung, on, rfl⟩)
    exact clear _ filled above
  obtain ⟨moving, missing, moves, only, rfl, descend, members⟩ :=
    runs_move hosts rules sound unhurt proper root unused candidate vacant free t
  have objects := getElem?_rehome (m.openAll (openings moving)) obj (place (z :: rest ++ [s])) o
  have failures : ((m.openAll (openings moving)).rehome obj (place (z :: rest ++ [s])) o).failures =
      m.failures := (openAll_undisturbed m _).failures
  rw [openAll_objects] at objects
  have absent := (not_mem_objects_iff m _).mp vacant
  obtain ⟨answer, run⟩ := runs_object hosts rules hpath (unhurt .lookup) absent moves
  refine ⟨_, _, run, ?_, descend, ?_, ?_, ?_, ?_, ?_⟩
  · exact List.forall_mem_cons.mpr ⟨⟨_, rfl⟩, only⟩
  · intro c
    refine (members c).trans ?_
    rw [← and_assoc, Path.above_place_concat_iff proper]
    constructor
    · rintro ⟨on, missing⟩
      exact ⟨.inr on, missing⟩
    · rintro ⟨rfl | on, missing⟩
      · exact absurd root missing
      · exact ⟨on, missing⟩
  · intro c
    exact mem_openAll
  · exact congrArg (· + 1) (openAll_changes m (openings moving))
  · exact identify_rehomed sound.toFiled (by rw [failures, unhurt]) candidate objects
  · exact objects

/-- Two of the three collections above the master path are missing. -/
theorem orphan_moved_two_levels_down : ∃ calls m',
    Runs (world Sample.willing) (object .usual "/z/h/a/b/x" "/z/h" "/z/m").run
      (Sample.catalog ["/z/h/a/b/x", "/z/m/y"], ()) calls (.ok (.moved "/z/m/a/b/x")) (m', ()) ∧
    openings calls = ["/z/m/a", "/z/m/a/b"] ∧
    m'.changes = (Sample.catalog ["/z/h/a/b/x", "/z/m/y"]).changes + 2 + 1 ∧
    m'.identify "/z/m/a/b/x" = .ok (some (idBase + 1)) := by
  have reachable : Reachable (Sample.catalog ["/z/h/a/b/x", "/z/m/y"]) :=
    .replica _ (.replica _ (.empty _ _))
  have candidate : (Sample.catalog ["/z/h/a/b/x", "/z/m/y"]).objects["/z/h/a/b/x"]? =
    some ⟨idBase + 1, [Sample.replica "/z/h/a/b/x"], []⟩ := rfl
  have path : destination "/z/h/a/b/x" "/z/h" "/z/m" = .ok "/z/m/a/b/x" := rfl
  have clear : ∀ x, x ≠ "" → Path.Above x "/z/m/a/b/x" →
      x ∉ (Sample.catalog ["/z/h/a/b/x", "/z/m/y"]).objects := by
    intro x filled above there
    have named : x = "/z/h/a/b/x" ∨ x = "/z/m/y" := by
      have keys : (Sample.catalog ["/z/h/a/b/x", "/z/m/y"]).objects.keys =
        ["/z/h/a/b/x", "/z/m/y"] := rfl
      simpa [keys] using Std.TreeMap.mem_keys.mpr there
    obtain ⟨rest, split⟩ := above
    rcases named with rfl | rfl <;> simp at split
  obtain ⟨calls, m', run, -, -, -, -, changes, found, -⟩ :=
    orphan_moved Sample.willing .usual reachable (fun _ => rfl) path candidate (by decide)
      (by decide) (by decide +kernel) (by decide +kernel) clear ()
  have opened : openings calls = ["/z/m/a", "/z/m/a/b"] := by
    rw [← run.1]
    decide +kernel
  rw [opened] at changes
  exact ⟨calls, m', run, opened, changes, (found _).mpr rfl⟩

end DataGrid.Merge
