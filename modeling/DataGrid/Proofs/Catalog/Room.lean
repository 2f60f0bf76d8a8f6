import DataGrid.Proofs.Catalog.Reachable
import DataGrid.Proofs.Catalog.Walk
import DataGrid.Proofs.Directory.Walk

/-! The walk on a tidy catalog, from a start to the destination below it. It fails if an object is
in the way, if a collection is missing and creations fail, or if nothing but the start is above
and the start itself is missing; otherwise all rungs are collections at its end. -/
namespace DataGrid.Catalog.Memory
open DataGrid.Path (Proper place ladder)
open Directory (survey create ensure)

def refusal (status : Int32) : Failure :=
  .failed status s!"injected {Step.collCreate.name} failure"

def rootless (coll : String) : Failure :=
  .failed unknownCollection s!"parent collection '{coll}' does not exist"

/-- The failure to make the collection. -/
def notMade (coll : String) (f : Failure) : Error :=
  .fileOperation "mkdir" coll (ioError f).message

/-- The end of the walk from `base` down the rest, on the catalog `m`. -/
inductive Room (base rest : List (List Char)) (m : Memory) : Except Error Unit → Memory → Prop
  | blocked {rung : List (List Char)} (on : rung ∈ ladder base rest)
      (there : place rung ∈ m.objects) : Room base rest m (.error (.notADirectory (place rung))) m
  | refused {front back : List (List Char)} {s : List Char} {status : Int32}
      (clear : ∀ rung ∈ ladder base rest, place rung ∉ m.objects)
      (split : rest = front ++ s :: back)
      (known : ∀ rung ∈ ladder base front, place rung ∈ m.collections)
      (missing : place (base ++ front ++ [s]) ∉ m.collections)
      (fails : m.failures .collCreate = some status) :
      Room base rest m (.error (notMade (place (base ++ front ++ [s])) (refusal status))) m
  | rootless {back : List (List Char)} {s : List Char}
      (clear : ∀ rung ∈ ladder base rest, place rung ∉ m.objects) (split : rest = s :: back)
      (missing : place base ∉ m.collections) (works : m.failures .collCreate = none) :
      Room base rest m (.error (notMade (place (base ++ [s])) (rootless (place base)))) m
  | made {m' : Memory} (clear : ∀ rung ∈ ladder base rest, place rung ∉ m.objects)
      (works : (∀ rung ∈ ladder base rest, place rung ∈ m.collections) ∨
        m.failures .collCreate = none ∧ place base ∈ m.collections)
      (objects : m'.objects = m.objects) (undisturbed : m.Undisturbed m')
      (collections : ∀ c, c ∈ m'.collections ↔
        c ∈ m.collections ∨ ∃ rung ∈ ladder base rest, c = place rung) :
      Room base rest m (.ok ()) m'

variable {m : Memory} {base rest : List (List Char)} {mode : UInt32}

theorem contains_collections_of_not_mem {c : String} (h : c ∉ m.collections) :
    m.collections.contains c = false :=
  Bool.eq_false_iff.mpr fun there => h (Std.TreeSet.contains_iff_mem.mp there)

theorem contains_objects_of_not_mem {x : String} (h : x ∉ m.objects) :
    m.objects.contains x = false :=
  Bool.eq_false_iff.mpr fun there => h (Std.TreeMap.contains_iff_mem.mp there)

/-- If look-ups work, a place is a collection, an object or missing. -/
theorem asDirectory_stat (works : m.failures .lookup = none) {path : String}
    (trimmed : Path.trim path = path) :
    (path ∈ m.collections ∧ (asDirectory (.stat path) m).1 = .ok ⟨true, 0⟩) ∨
    (path ∉ m.collections ∧ path ∈ m.objects ∧ (asDirectory (.stat path) m).1 = .ok ⟨false, 0⟩) ∨
    (path ∉ m.collections ∧ path ∉ m.objects ∧ ∃ e, (asDirectory (.stat path) m).1 = .error e) := by
  have asks : asDirectory (.stat path) m = (Catalog.look path).run serve m := rfl
  have first : serve (.hasCollection path) m = (.ok (m.hasCollection path), m) := rfl
  have known : m.hasCollection path = m.collections.contains path := by
    rw [hasCollection, trimmed]
  have id : m.identify path = .ok (m.objects[path]?.map DataObject.id) :=
    identify_eq_ok_iff.mpr ⟨works, rfl⟩
  rw [asks]
  simp only [look, Catalog.ask, Dialogue.ask_bind, Dialogue.run_ask, first, known]
  by_cases hc : path ∈ m.collections
  · left
    rw [Std.TreeSet.contains_iff_mem.mpr hc]
    exact ⟨hc, rfl⟩
  · right
    simp only [contains_collections_of_not_mem hc, Dialogue.done_bind, Dialogue.run_ask,
      serve_identify, id]
    cases ho : m.objects[path]? with
    | none => exact .inr ⟨hc, (not_mem_objects_iff m path).mpr ho, _, rfl⟩
    | some o => exact .inl ⟨hc, (mem_objects_iff m path).mpr ⟨o, ho⟩, rfl⟩

/-- A survey passes over what is missing, up to a collection, an object or the end. -/
theorem run_survey (works : m.failures .lookup = none) (places missing : List String)
    (trimmed : ∀ d ∈ places, Path.trim d = d) :
    ∃ passed ahead, places = passed ++ ahead ∧
      (∀ d ∈ passed, d ∉ m.collections ∧ d ∉ m.objects) ∧
      ((∀ d ∈ ahead.head?, d ∈ m.collections) ∧
          ((survey places missing).run asDirectory m).1 = .ok (passed.reverse ++ missing) ∨
        ∃ d ∈ ahead.head?, d ∈ m.objects ∧
          ((survey places missing).run asDirectory m).1 = .error (.notADirectory d)) := by
  induction places generalizing missing with
  | nil => exact ⟨[], [], rfl, by simp, .inl ⟨by simp, rfl⟩⟩
  | cons d ds ih =>
    rw [survey, Dialogue.run_ask, asDirectory_stat_snd]
    rcases asDirectory_stat works (trimmed d List.mem_cons_self) with
      ⟨hc, stat⟩ | ⟨hc, ho, stat⟩ | ⟨hc, ho, e, stat⟩
    · rw [stat]
      exact ⟨[], d :: ds, rfl, by simp, .inl ⟨by simpa using hc, rfl⟩⟩
    · rw [stat]
      exact ⟨[], d :: ds, rfl, by simp, .inr ⟨d, by simp, ho, rfl⟩⟩
    · rw [stat]
      obtain ⟨passed, ahead, split, none, result⟩ :=
        ih (d :: missing) fun d' hd' => trimmed d' (List.mem_cons_of_mem d hd')
      refine ⟨d :: passed, ahead, by rw [split]; rfl, ?_, by simpa using result⟩
      intro d' hd'
      rcases List.mem_cons.mp hd' with rfl | hd'
      · exact ⟨hc, ho⟩
      · exact none d' hd'

/-- Making a collection that is missing, below a place that is not the root. -/
theorem makeCollection_place {s : List Char} (deep : base ≠ []) (proper : Proper (base ++ [s]))
    (free : place (base ++ [s]) ∉ m.collections) (vacant : place (base ++ [s]) ∉ m.objects) :
    m.makeCollection (place (base ++ [s])) =
      match m.failures .collCreate with
      | some status => .error (refusal status)
      | none =>
        if place base ∈ m.collections then .ok (m.opened (place (base ++ [s])))
        else .error (rootless (place base)) := by
  have parent : Path.parent (place (base ++ [s])) = place base := by
    rw [Path.parent_place proper, if_neg deep]
  have below : place base ≠ "/" := Path.place_ne_root proper.left
  unfold makeCollection allow
  cases m.failures .collCreate with
  | some status => rfl
  | none =>
    by_cases home : place base ∈ m.collections
    · have home' : m.collections.contains (place base) = true :=
        Std.TreeSet.contains_iff_mem.mpr home
      simp [Path.trim_place proper, parent, contains_collections_of_not_mem free,
        contains_objects_of_not_mem vacant, home, home', opened, Bind.bind, Except.bind, pure,
        Except.pure]
    · simp [Path.trim_place proper, parent, below, contains_collections_of_not_mem free,
        contains_objects_of_not_mem vacant, home, contains_collections_of_not_mem home, rootless,
        Bind.bind, Except.bind]

/-- All of the collections have been opened, one after the other. -/
def openAll (m : Memory) (colls : List String) : Memory := colls.foldl opened m

theorem openAll_objects (m : Memory) (colls : List String) :
    (m.openAll colls).objects = m.objects := by
  induction colls generalizing m with
  | nil => rfl
  | cons coll colls ih => exact ih (m.opened coll)

theorem openAll_undisturbed (m : Memory) (colls : List String) :
    m.Undisturbed (m.openAll colls) := by
  induction colls generalizing m with
  | nil => exact .refl m
  | cons coll colls ih => exact (opened_undisturbed m coll).trans (ih (m.opened coll))

theorem mem_openAll {colls : List String} {c : String} :
    c ∈ (m.openAll colls).collections ↔ c ∈ m.collections ∨ c ∈ colls := by
  induction colls generalizing m with
  | nil => simp [openAll]
  | cons coll colls ih =>
    refine ih.trans ?_
    rw [mem_opened, List.mem_cons, eq_comm, or_right_comm, or_comm]

/-- Each opening is one change. -/
theorem openAll_changes (m : Memory) (colls : List String) :
    (m.openAll colls).changes = m.changes + colls.length := by
  induction colls generalizing m with
  | nil => rfl
  | cons coll colls ih =>
    refine (ih (m.opened coll)).trans ?_
    rw [List.length_cons, Nat.add_comm colls.length, ← Nat.add_assoc]
    rfl

/-- Below a collection that is there, all that is missing is made. -/
theorem runs_create (mode : UInt32) (works : m.failures .collCreate = none)
    (deep : base ≠ []) (proper : Proper (base ++ rest)) (home : place base ∈ m.collections)
    (free : ∀ rung ∈ ladder base rest, place rung ∉ m.collections ∧ place rung ∉ m.objects)
    (count : Nat) :
    ∃ n, Dialogue.Runs asDirectory (create mode ((ladder base rest).map place) count) m
      (((ladder base rest).map place).map (Directory.created mode)) (.ok n)
      (m.openAll ((ladder base rest).map place)) := by
  induction rest generalizing base m count with
  | nil => exact ⟨count, Dialogue.runs_done _ _ _⟩
  | cons s rest ih =>
    have regroup : base ++ s :: rest = base ++ [s] ++ rest := by simp
    rw [regroup] at proper
    obtain ⟨missing, vacant⟩ := free _ List.mem_cons_self
    have made := makeCollection_place deep proper.left missing vacant
    simp only [works, home, if_true] at made
    have rest_free : ∀ rung ∈ ladder (base ++ [s]) rest,
        place rung ∉ (m.opened (place (base ++ [s]))).collections ∧
          place rung ∉ (m.opened (place (base ++ [s]))).objects := by
      intro rung hrung
      obtain ⟨missing, vacant⟩ := free rung (List.mem_cons_of_mem _ hrung)
      refine ⟨?_, vacant⟩
      intro there
      rcases (mem_opened m _ _).mp there with same | there
      · obtain ⟨front, back, rfl, some, rfl⟩ := Path.mem_ladder_iff.mp hrung
        rw [← List.append_assoc] at proper
        rw [Path.place_inj proper.left.left proper.left] at same
        exact some (by simpa using same)
      · exact missing there
    have still : (m.opened (place (base ++ [s]))).failures .collCreate = none := works
    obtain ⟨n, tail⟩ :=
      ih still (by simp) proper ((mem_opened m _ _).mpr (.inl rfl)) rest_free (count + 1)
    have served : asDirectory (.mkdir (place (base ++ [s])) mode) m =
        (.ok (), m.opened (place (base ++ [s]))) := by
      rw [asDirectory_mkdir, made]
    exact ⟨n, Dialogue.Runs.ask served tail⟩

/-- Above a collection all rungs are collections. -/
theorem known_of_last (tidy : Tidy m) (deep : base ≠ []) (proper : Proper (base ++ rest))
    (last : rest = [] ∨ place (base ++ rest) ∈ m.collections) :
    ∀ rung ∈ ladder base rest, place rung ∈ m.collections := by
  intro rung hrung
  obtain ⟨front, back, rfl, some, rfl⟩ := Path.mem_ladder_iff.mp hrung
  have there : place (base ++ (front ++ back)) ∈ m.collections :=
    last.resolve_left (by simp [some])
  rw [← List.append_assoc] at there proper
  exact tidy.collection_above (by simp [deep]) proper there

/-- The walk is over at once if all rungs are collections. -/
theorem Room.of_known (tidy : Tidy m)
    (known : ∀ rung ∈ ladder base rest, place rung ∈ m.collections) :
    Room base rest m (.ok ()) m := by
  have clear : ∀ rung ∈ ladder base rest, place rung ∉ m.objects :=
    fun rung hrung there => tidy.separate _ there (known rung hrung)
  refine .made clear (.inl known) rfl (.refl m) fun c => ?_
  refine (or_iff_left_of_imp ?_).symm
  rintro ⟨rung, hrung, rfl⟩
  exact known rung hrung

theorem run_create_stops {s : List Char} {f : Failure}
    (h : m.makeCollection (place (base ++ [s])) = .error f) (count : Nat) :
    (create mode ((ladder base (s :: rest)).map place) count).run asDirectory m =
      (.error (notMade (place (base ++ [s])) f), m) := by
  rw [ladder, List.map_cons, create, Dialogue.run_ask, asDirectory_mkdir, h]
  rfl

/-- The second half of the walk, when a part of the rungs is known and the others are missing. -/
theorem room_of_run_create (mode : UInt32) (tidy : Tidy m) (deep : base ≠ [])
    {front back : List (List Char)} (proper : Proper (base ++ (front ++ back)))
    (known : ∀ rung ∈ ladder base front, place rung ∈ m.collections)
    (free : ∀ rung ∈ ladder (base ++ front) back,
      place rung ∉ m.collections ∧ place rung ∉ m.objects) :
    ∃ r m', (create mode ((ladder (base ++ front) back).map place) 0).run asDirectory m = (r, m') ∧
      Room base (front ++ back) m (r.map fun _ => ()) m' := by
  have clear : ∀ rung ∈ ladder base (front ++ back), place rung ∉ m.objects := by
    intro rung hrung there
    rw [Path.ladder_append] at hrung
    rcases List.mem_append.mp hrung with hrung | hrung
    · exact tidy.separate _ there (known rung hrung)
    · exact (free rung hrung).2 there
  rw [← List.append_assoc] at proper
  cases back with
  | nil => exact ⟨.ok 0, m, rfl, .of_known tidy (by simpa using known)⟩
  | cons s back =>
    have regroup : base ++ front ++ s :: back = base ++ front ++ [s] ++ back := by simp
    have deeper : base ++ front ≠ [] := by simp [deep]
    obtain ⟨missing, vacant⟩ := free _ List.mem_cons_self
    have made := makeCollection_place deeper (regroup ▸ proper).left missing vacant
    cases fails : m.failures .collCreate with
    | some status =>
      rw [fails] at made
      exact ⟨_, m, run_create_stops made 0, .refused clear rfl known missing fails⟩
    | none =>
      by_cases home : place (base ++ front) ∈ m.collections
      · obtain ⟨n, -, run⟩ := runs_create mode fails deeper proper home free 0
        have start : place base ∈ m.collections := tidy.collection_above deep proper.left home
        refine ⟨.ok n, _, run, .made clear (.inr ⟨fails, start⟩) (openAll_objects _ _)
          (openAll_undisturbed _ _) ?_⟩
        intro c
        rw [mem_openAll, Path.ladder_append]
        simp only [List.mem_append, List.mem_map, @eq_comm _ _ c]
        constructor
        · rintro (hc | ⟨rung, hrung, rfl⟩)
          · exact .inl hc
          · exact .inr ⟨rung, .inr hrung, rfl⟩
        · rintro (hc | ⟨rung, hrung | hrung, rfl⟩)
          · exact .inl hc
          · exact .inl (known rung hrung)
          · exact .inr ⟨rung, hrung, rfl⟩
      · simp only [fails, home, if_false] at made
        cases front with
        | nil =>
          rw [List.append_nil] at made home ⊢
          exact ⟨_, m, run_create_stops made 0, .rootless clear rfl home fails⟩
        | cons t front =>
          have last : base ++ t :: front ∈ ladder base (t :: front) :=
            Path.mem_ladder_iff.mpr ⟨t :: front, [], by simp, by simp, rfl⟩
          exact absurd (known _ last) home

/-- A survey of a ladder cuts it at the lowest collection on it, unless an object is lower. -/
theorem run_survey_ladder (works : m.failures .lookup = none) (proper : Proper (base ++ rest)) :
    (∃ front back, rest = front ++ back ∧ (front = [] ∨ place (base ++ front) ∈ m.collections) ∧
        (∀ rung ∈ ladder (base ++ front) back,
          place rung ∉ m.collections ∧ place rung ∉ m.objects) ∧
        ((survey ((ladder base rest).map place).reverse []).run asDirectory m).1 =
          .ok ((ladder (base ++ front) back).map place)) ∨
      ∃ rung ∈ ladder base rest, place rung ∈ m.objects ∧
        ((survey ((ladder base rest).map place).reverse []).run asDirectory m).1 =
          .error (.notADirectory (place rung)) := by
  have trimmed : ∀ d ∈ ((ladder base rest).map place).reverse, Path.trim d = d := by
    intro d hd
    obtain ⟨rung, hrung, rfl⟩ := List.mem_map.mp (List.mem_reverse.mp hd)
    obtain ⟨front, back, rfl, -, rfl⟩ := Path.mem_ladder_iff.mp hrung
    rw [← List.append_assoc] at proper
    exact Path.trim_place proper.left
  obtain ⟨passed, ahead, split, missing, survey⟩ := run_survey works _ [] trimmed
  rcases survey with ⟨stop, survey⟩ | ⟨d, hd, there, survey⟩
  · have cut : (ladder base rest).map place = ahead.reverse ++ passed.reverse := by
      rw [← List.reverse_append, ← split, List.reverse_reverse]
    obtain ⟨above, below, parts, habove, hbelow⟩ := List.map_eq_append_iff.mp cut
    obtain ⟨front, back, rfl, rfl, rfl⟩ := Path.ladder_split parts
    refine .inl ⟨front, back, rfl, ?_, ?_, by rw [survey, ← hbelow, List.append_nil]⟩
    · rcases List.eq_nil_or_concat front with rfl | ⟨init, s, rfl⟩
      · exact .inl rfl
      · right
        apply stop
        rw [← List.reverse_reverse ahead, ← habove]
        simp [Path.ladder_append, ladder]
    · intro rung hrung
      apply missing
      rw [← List.mem_reverse, ← hbelow]
      exact List.mem_map_of_mem hrung
  · have on : d ∈ (ladder base rest).map place := by
      rw [← List.mem_reverse, split]
      exact List.mem_append_right passed (List.mem_of_mem_head? hd)
    obtain ⟨rung, hrung, rfl⟩ := List.mem_map.mp on
    exact .inr ⟨rung, hrung, there, survey⟩

/-- The walk below a start that is not the root ends in one of the four ways. -/
theorem room_of_run_ensure (mode : UInt32) (tidy : Tidy m)
    (works : m.failures .lookup = none) (deep : base ≠ []) (proper : Proper (base ++ rest)) :
    ∃ r m', (ensure (place base) (place (base ++ rest)) mode).run asDirectory m = (r, m') ∧
      Room base rest m (r.map fun _ => ()) m' := by
  have route := Path.route?_place proper.left proper.right
  rcases run_survey_ladder works proper with
    ⟨front, back, rfl, last, free, survey⟩ | ⟨rung, on, there, survey⟩
  · have known := known_of_last tidy deep (List.append_assoc base front back ▸ proper).left last
    obtain ⟨r, m', run, room⟩ := room_of_run_create mode tidy deep proper known free
    refine ⟨r, m', ?_, room⟩
    simp only [Directory.ensure_eq, route, Dialogue.run_bind, run_survey_snd, survey]
    exact run
  · refine ⟨.error (.notADirectory (place rung)), m, ?_, .blocked on there⟩
    simp only [Directory.ensure_eq, route, Dialogue.run_bind, run_survey_snd, survey]
    rfl

section
variable {m' : Memory} {r : Except Error Unit}

theorem Room.unchanged (room : Room base rest m r m') :
    m'.objects = m.objects ∧ m.Undisturbed m' := by
  cases room with
  | made clear works objects undisturbed collections => exact ⟨objects, undisturbed⟩
  | _ => exact ⟨rfl, .refl m⟩

theorem Room.kept (room : Room base rest m r m') : ∀ c ∈ m.collections, c ∈ m'.collections := by
  intro c hc
  cases room with
  | made clear works objects undisturbed collections => exact (collections c).mpr (.inl hc)
  | _ => exact hc

/-- New collections are rungs, and there are none if creations fail. -/
theorem Room.grown (room : Room base rest m r m') {c : String} (hc : c ∈ m'.collections) :
    c ∈ m.collections ∨
      m.failures .collCreate = none ∧ ∃ rung ∈ ladder base rest, c = place rung := by
  cases room with
  | made clear works objects undisturbed collections =>
    rcases (collections c).mp hc with hc | ⟨rung, hrung, rfl⟩
    · exact .inl hc
    · exact works.imp (fun all => all rung hrung) fun works => ⟨works.1, rung, hrung, rfl⟩
  | _ => exact .inl hc

/-- Once there is room, the destination is a collection, unless it is the start. -/
theorem Room.destination (room : Room base rest m (.ok ()) m') (some : rest ≠ []) :
    place (base ++ rest) ∈ m'.collections := by
  cases room with
  | made clear works objects undisturbed collections =>
    refine (collections _).mpr (.inr ⟨base ++ rest, ?_, rfl⟩)
    exact Path.mem_ladder_iff.mpr ⟨rest, [], by simp, some, rfl⟩

end

/-! The same walk on a catalog with more collections. -/

/-- No object lies above another. -/
theorem object_on_ladder_unique (tidy : Tidy m) (deep : base ≠ []) (proper : Proper (base ++ rest))
    {rung rung' : List (List Char)} (on : rung ∈ ladder base rest) (on' : rung' ∈ ladder base rest)
    (there : place rung ∈ m.objects) (there' : place rung' ∈ m.objects) : rung = rung' := by
  have level {front more back : List (List Char)} (h : Proper (base ++ (front ++ more ++ back)))
      (upper : place (base ++ front) ∈ m.objects)
      (lower : place (base ++ (front ++ more)) ∈ m.objects) : more = [] := by
    rw [← List.append_assoc, ← List.append_assoc] at h
    rw [← List.append_assoc] at lower
    apply Decidable.byContradiction
    intro some
    have coll := tidy.collection_over_object (by simp [deep]) some h.left lower
    exact tidy.separate _ upper coll
  obtain ⟨front, back, rfl, -, rfl⟩ := Path.mem_ladder_iff.mp on
  obtain ⟨front', back', split, -, rfl⟩ := Path.mem_ladder_iff.mp on'
  rcases List.append_eq_append_iff.mp split with ⟨more, rfl, rfl⟩ | ⟨more, rfl, rfl⟩
  · rw [← List.append_assoc front more back'] at proper
    rw [level proper there there', List.append_nil]
  · rw [level proper there' there, List.append_nil]

/-- The first missing rung. -/
theorem first_missing_unique {known : List (List Char) → Prop}
    {front front' back back' : List (List Char)} {s s' : List Char}
    (split : front ++ s :: back = front' ++ s' :: back')
    (hknown : ∀ rung ∈ ladder base front, known rung) (hs : ¬ known (base ++ front ++ [s]))
    (hknown' : ∀ rung ∈ ladder base front', known rung) (hs' : ¬ known (base ++ front' ++ [s'])) :
    front = front' ∧ s = s' := by
  rcases List.append_eq_append_iff.mp split with ⟨more, rfl, tail⟩ | ⟨more, rfl, tail⟩
  · cases more with
    | nil => exact ⟨by simp, (List.cons.inj tail).1⟩
    | cons t more =>
      obtain ⟨rfl, -⟩ := List.cons.inj (tail.trans (List.cons_append ..))
      exact absurd (hknown' _ (Path.mem_ladder_of_split rfl)) hs
  · cases more with
    | nil => exact ⟨by simp, (List.cons.inj tail).1.symm⟩
    | cons t more =>
      obtain ⟨rfl, -⟩ := List.cons.inj (tail.trans (List.cons_append ..))
      exact absurd (hknown _ (Path.mem_ladder_of_split rfl)) hs'

/-- A start that has a rung below it which is a collection is one itself. -/
theorem start_mem (tidy : Tidy m) (deep : base ≠ []) (proper : Proper (base ++ rest))
    (known : ∀ rung ∈ ladder base rest, place rung ∈ m.collections) (some : rest ≠ []) :
    place base ∈ m.collections := by
  refine tidy.collection_above deep proper (known _ ?_)
  exact Path.mem_ladder_iff.mpr ⟨rest, [], by simp, some, rfl⟩

/-! The catalog alone decides how the walk ends. -/

section
variable {m' : Memory} {r : Except Error Unit} {front back : List (List Char)} {s : List Char}
  {rung : List (List Char)} {status : Int32}

theorem Room.refused_of (clear : ∀ rung ∈ ladder base rest, place rung ∉ m.objects)
    (split : rest = front ++ s :: back)
    (known : ∀ rung ∈ ladder base front, place rung ∈ m.collections)
    (missing : place (base ++ front ++ [s]) ∉ m.collections)
    (fails : m.failures .collCreate = some status) (room : Room base rest m r m') :
    r = .error (notMade (place (base ++ front ++ [s])) (refusal status)) ∧ m' = m := by
  cases room with
  | blocked on there => exact absurd there (clear _ on)
  | refused clear' split' known' missing' fails' =>
    obtain ⟨rfl, rfl⟩ := first_missing_unique (split.symm.trans split') known missing known'
      missing'
    cases fails.symm.trans fails'
    exact ⟨rfl, rfl⟩
  | rootless clear' split' missing' works => exact absurd (fails.symm.trans works) (by simp)
  | made clear' works =>
    rcases works with all | ⟨works, -⟩
    · exact absurd (all _ (Path.mem_ladder_of_split split)) missing
    · exact absurd (fails.symm.trans works) (by simp)

variable (tidy : Tidy m) (deep : base ≠ []) (proper : Proper (base ++ rest))
include tidy deep proper

theorem Room.blocked_of (on : rung ∈ ladder base rest) (there : place rung ∈ m.objects)
    (room : Room base rest m r m') : r = .error (.notADirectory (place rung)) ∧ m' = m := by
  cases room with
  | blocked on' there' =>
    rw [object_on_ladder_unique tidy deep proper on on' there there']
    exact ⟨rfl, rfl⟩
  | refused clear => exact absurd there (clear _ on)
  | rootless clear => exact absurd there (clear _ on)
  | made clear => exact absurd there (clear _ on)

variable (clear : ∀ rung ∈ ladder base rest, place rung ∉ m.objects)
include clear

theorem Room.rootless_of (split : rest = s :: back) (missing : place base ∉ m.collections)
    (works : m.failures .collCreate = none) (room : Room base rest m r m') :
    r = .error (notMade (place (base ++ [s])) (Memory.rootless (place base))) ∧ m' = m := by
  cases room with
  | blocked on there => exact absurd there (clear _ on)
  | refused clear' split' known' missing' fails => exact absurd (works.symm.trans fails) (by simp)
  | rootless clear' split' missing' works' =>
    obtain ⟨rfl, rfl⟩ := List.cons.inj (split.symm.trans split')
    exact ⟨rfl, rfl⟩
  | made clear' works' =>
    rcases works' with all | ⟨-, there⟩
    · exact absurd (start_mem tidy deep proper all (by simp [split])) missing
    · exact absurd there missing

theorem Room.made_of
    (works : (∀ rung ∈ ladder base rest, place rung ∈ m.collections) ∨
      m.failures .collCreate = none ∧ place base ∈ m.collections)
    (room : Room base rest m r m') :
    r = .ok () ∧ ∀ c, c ∈ m'.collections ↔
      c ∈ m.collections ∨ ∃ rung ∈ ladder base rest, c = place rung := by
  cases room with
  | blocked on there => exact absurd there (clear _ on)
  | refused clear' split known missing fails =>
    rcases works with all | ⟨works, -⟩
    · exact absurd (all _ (Path.mem_ladder_of_split split)) missing
    · exact absurd (works.symm.trans fails) (by simp)
  | rootless clear' split missing works' =>
    rcases works with all | ⟨-, there⟩
    · exact absurd (start_mem tidy deep proper all (by simp [split])) missing
    · exact absurd there missing
  | made clear' works' objects undisturbed collections => exact ⟨rfl, collections⟩

end

/-- More collections, but none that makes a difference to the walk. -/
structure Wider (base rest : List (List Char)) (n m : Memory) : Prop where
  rungs : ∀ rung ∈ ladder base rest, place rung ∈ n.objects ↔ place rung ∈ m.objects
  creating : n.failures .collCreate = m.failures .collCreate
  wider : ∀ c ∈ m.collections, c ∈ n.collections
  start : place base ∈ n.collections → place base ∈ m.collections
  same : m.failures .collCreate ≠ none → ∀ c ∈ n.collections, c ∈ m.collections

/-- If the walk can go through on the wider catalog, it can on the other. -/
theorem Wider.works {n : Memory} (h : Wider base rest n m) (tidy : Tidy n) (deep : base ≠ [])
    (proper : Proper (base ++ rest))
    (works : (∀ rung ∈ ladder base rest, place rung ∈ n.collections) ∨
      n.failures .collCreate = none ∧ place base ∈ n.collections) :
    (∀ rung ∈ ladder base rest, place rung ∈ m.collections) ∨
      m.failures .collCreate = none ∧ place base ∈ m.collections := by
  by_cases fails : m.failures .collCreate = none
  · by_cases last : rest = []
    · left
      rw [last]
      exact fun rung hrung => absurd hrung List.not_mem_nil
    · right
      rcases works with all | ⟨-, there⟩
      · exact ⟨fails, h.start (start_mem tidy deep proper all last)⟩
      · exact ⟨fails, h.start there⟩
  · left
    rcases works with all | ⟨works, -⟩
    · exact fun rung hrung => h.same fails _ (all rung hrung)
    · exact absurd (h.creating.symm.trans works) fails

/-- Walks on both catalogs end alike, and what the one opens the other opens, if it is missing. -/
theorem Room.agree {n n' m' : Memory} {r r' : Except Error Unit} (h : Wider base rest n m)
    (tidy : Tidy n) (tidy' : Tidy m) (deep : base ≠ []) (proper : Proper (base ++ rest))
    (room : Room base rest n r n') (room' : Room base rest m r' m') :
    r = r' ∧ ∀ c, c ∈ n'.collections ↔ c ∈ n.collections ∨ c ∈ m'.collections := by
  have unchanged (c : String) : c ∈ n.collections ↔ c ∈ n.collections ∨ c ∈ m.collections :=
    (or_iff_left_of_imp (h.wider c)).symm
  have narrow {c : String} (missing : c ∉ n.collections) : c ∉ m.collections :=
    fun there => missing (h.wider c there)
  have vacant (clear : ∀ rung ∈ ladder base rest, place rung ∉ n.objects) :
      ∀ rung ∈ ladder base rest, place rung ∉ m.objects :=
    fun rung hrung there => clear rung hrung ((h.rungs rung hrung).mpr there)
  cases room with
  | blocked on there =>
    obtain ⟨rfl, rfl⟩ := room'.blocked_of tidy' deep proper on ((h.rungs _ on).mp there)
    exact ⟨rfl, unchanged⟩
  | refused clear split known missing fails =>
    rw [h.creating] at fails
    have known' := fun rung hrung => h.same (by simp [fails]) _ (known rung hrung)
    obtain ⟨rfl, rfl⟩ := room'.refused_of (vacant clear) split known' (narrow missing) fails
    exact ⟨rfl, unchanged⟩
  | rootless clear split missing works =>
    rw [h.creating] at works
    obtain ⟨rfl, rfl⟩ := room'.rootless_of tidy' deep proper (vacant clear) split
      (narrow missing) works
    exact ⟨rfl, unchanged⟩
  | made clear works objects undisturbed collections =>
    obtain ⟨rfl, collections'⟩ := room'.made_of tidy' deep proper (vacant clear)
      (h.works tidy deep proper works)
    refine ⟨rfl, fun c => ?_⟩
    rw [collections, collections']
    constructor
    · exact Or.imp_right .inr
    · rintro (hc | hc | hc)
      · exact .inl hc
      · exact .inl (h.wider c hc)
      · exact .inr hc

end DataGrid.Catalog.Memory
