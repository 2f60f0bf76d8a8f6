import DataGrid.Proofs.Catalog.Reachable
import DataGrid.Proofs.Merge.World

/-! Merges between two trees, neither of which is in the other. The destination keeps the names
below the one root and puts them below the other, so different objects have different
destinations, no object of the one tree is a destination, and on a tidy catalog no destination
lies above another. -/
namespace DataGrid.Merge
open Text
open Catalog (Memory)
open Catalog.Memory
open DataGrid.Path (Proper Plain place spell)

/-- The names that spell the current collection and the master collection. -/
structure Roots (current coll : String) (base root : List (List Char)) : Prop where
  current : Path.trim current = place base
  coll : Path.trim coll = place root
  proper : Proper base
  proper' : Proper root
  apart : ¬ base <+: root
  apart' : ¬ root <+: base

variable {current coll p q path path' : String} {base root names rel rel' : List (List Char)}

theorem exists_roots (plain : Plain (Path.trim current)) (plain' : Plain (Path.trim coll))
    (apart : Path.within current coll = false) (apart' : Path.within coll current = false) :
    ∃ base root, Roots current coll base root := by
  obtain ⟨base, -, proper, hcurrent⟩ := Path.plain_iff.mp plain
  obtain ⟨root, -, proper', hcoll⟩ := Path.plain_iff.mp plain'
  refine ⟨base, root, hcurrent, hcoll, proper, proper', ?_, ?_⟩
  · rw [← Path.within_iff hcoll hcurrent proper' proper, apart']
    exact Bool.false_ne_true
  · rw [← Path.within_iff hcurrent hcoll proper proper', apart]
    exact Bool.false_ne_true

theorem relative?_eq_some {path coll more : List Char} (h : relative? path coll = some more) :
    Path.below? coll path = some ('/' :: more) := by
  rw [relative?] at h
  split at h
  · next strip =>
    cases h
    simp [Path.below?, strip]
  · contradiction

/-- The part of a path below a collection has at least one name. -/
theorem relative?_spell {more : List Char} (hb : Proper base) (hn : Proper names) :
    relative? (spell names) (spell base) = some more ↔
      ∃ rel, rel ≠ [] ∧ names = base ++ rel ∧ '/' :: more = spell rel := by
  constructor
  · intro h
    obtain ⟨rel, split, same⟩ := (Path.below?_spell hb hn).mp (relative?_eq_some h)
    refine ⟨rel, ?_, split, same⟩
    intro none
    simp [none] at same
  · rintro ⟨rel, some, rfl, same⟩
    obtain ⟨t, rel, rfl⟩ := List.exists_cons_of_ne_nil some
    obtain ⟨c, cs, rfl⟩ := List.exists_cons_of_ne_nil (hn.right t List.mem_cons_self).1
    rw [Path.spell_cons] at same
    rw [relative?, Path.spell_append, stripLead?_append, Path.spell_cons]
    exact congrArg Option.some (List.cons.inj same).2.symm

theorem not_isEmpty {s : String} (some : names ≠ []) (h : Path.trim s = place names) :
    s.isEmpty = false := by
  apply Bool.eq_false_iff.mpr
  intro none
  rw [String.isEmpty_iff] at none
  subst none
  have chars : [] = spell names := Path.trimChars_of_trim h
  exact some (Path.spell_eq_nil_iff.mp chars.symm)

namespace Roots
variable (roots : Roots current coll base root)
include roots

theorem root_ne_nil : root ≠ [] := by
  intro none
  exact roots.apart' (none ▸ List.nil_prefix)

theorem base_ne_nil : base ≠ [] := by
  intro none
  exact roots.apart (none ▸ List.nil_prefix)

theorem root_head : (Path.trimChars coll.toList).head? = some '/' := by
  rw [Path.trimChars_of_trim roots.coll]
  obtain ⟨t, root, same⟩ := List.exists_cons_of_ne_nil roots.root_ne_nil
  rw [same]
  rfl

/-- The names below the one root go below the other. -/
theorem destination_iff (proper : Proper names) :
    destination (place names) current coll = .ok path ↔
      ∃ rel, rel ≠ [] ∧ names = base ++ rel ∧ path = place (root ++ rel) := by
  have absolute : (spell root).head? = some '/' :=
    Path.trimChars_of_trim roots.coll ▸ roots.root_head
  have spelled {more : List Char} {rel : List (List Char)} (same : '/' :: more = spell rel) :
      String.ofList (spell root ++ '/' :: more) = place (root ++ rel) := by
    rw [same, ← Path.spell_append, place]
  simp only [destination, Path.toList_place, Path.trimChars_of_trim roots.current,
    Path.trimChars_of_trim roots.coll, absolute, if_true]
  constructor
  · intro h
    split at h
    · contradiction
    split at h
    · contradiction
    next more below =>
      cases h
      obtain ⟨rel, some, split, same⟩ := (relative?_spell roots.proper proper).mp below
      exact ⟨rel, some, split, spelled same⟩
  · rintro ⟨rel, some, split, rfl⟩
    obtain ⟨t, tail, cons⟩ := List.exists_cons_of_ne_nil some
    have same : '/' :: (t ++ spell tail) = spell rel := by rw [cons, Path.spell_cons]
    have below := (relative?_spell roots.proper proper).mpr ⟨rel, some, split, same⟩
    have full : ((place names).isEmpty || current.isEmpty || coll.isEmpty) = false := by
      rw [not_isEmpty roots.base_ne_nil roots.current, not_isEmpty roots.root_ne_nil roots.coll,
        not_isEmpty (by simp [split, some]) (Path.trim_place proper)]
      rfl
    rw [full, below]
    exact congrArg Except.ok (spelled same)

/-- No path is in both trees. -/
theorem disjoint {tail tail' : List (List Char)} (h : base ++ tail = root ++ tail') : False := by
  rcases List.append_eq_append_iff.mp h with ⟨more, same, -⟩ | ⟨more, same, -⟩
  · exact roots.apart ⟨more, same.symm⟩
  · exact roots.apart' ⟨more, same.symm⟩

end Roots

/-- An object in the tree of `base`, and its destination below `root`. -/
structure Candidate (base root : List (List Char)) (m : Memory) (p path : String)
    (rel : List (List Char)) : Prop where
  present : p ∈ m.objects
  below : rel ≠ []
  proper : Proper (base ++ rel)
  proper' : Proper (root ++ rel)
  spelled : p = place (base ++ rel)
  target : path = place (root ++ rel)

theorem Roots.candidate {m : Memory} (roots : Roots current coll base root) (orderly : Orderly m)
    (present : p ∈ m.objects) (hpath : destination p current coll = .ok path) :
    ∃ rel, Candidate base root m p path rel := by
  obtain ⟨names, -, proper, rfl⟩ := Path.plain_iff.mp (orderly.objects p present)
  obtain ⟨rel, below, rfl, target⟩ := (roots.destination_iff proper).mp hpath
  exact ⟨rel, present, below, proper, roots.proper'.append proper.right, rfl, target⟩

namespace Candidate
variable {m : Memory} {upper tail : List (List Char)} (c : Candidate base root m p path rel)
  (c' : Candidate base root m q path' rel') (roots : Roots current coll base root)
include c

theorem destination (roots : Roots current coll base root) :
    destination p current coll = .ok path := by
  rw [c.spelled, roots.destination_iff c.proper]
  exact ⟨rel, c.below, rfl, c.target⟩

include c'

theorem eq_of_target (same : path = path') : p = q := by
  rw [c.target, c'.target, Path.place_inj c.proper' c'.proper'] at same
  rw [c.spelled, c'.spelled, List.append_cancel_left same]

/-- No destination lies above another. -/
theorem not_above (tidy : Tidy m) (split : root ++ rel' = upper ++ tail) (some : tail ≠ []) :
    path ≠ place upper := by
  intro same
  have proper := c'.proper'
  rw [split] at proper
  rw [c.target, Path.place_inj c.proper' proper.left] at same
  rw [← same, List.append_assoc, List.append_right_inj] at split
  have lower := c'.present
  rw [c'.spelled, split, ← List.append_assoc] at lower
  have whole := c'.proper
  rw [split, ← List.append_assoc] at whole
  have coll := tidy.collection_over_object (by simp [c.below]) some whole lower
  rw [← c.spelled] at coll
  exact tidy.separate p c.present coll

include roots

/-- No object of the one tree lies above a destination in the other, or is one. -/
theorem not_over_target (split : root ++ rel' = upper ++ tail) : p ≠ place upper := by
  intro same
  have proper := c'.proper'
  rw [split] at proper
  rw [c.spelled, Path.place_inj c.proper proper.left] at same
  rw [← same, List.append_assoc] at split
  exact roots.disjoint split.symm

theorem ne_target : p ≠ path' := by
  have apart := c.not_over_target c' roots (List.append_nil (root ++ rel')).symm
  rw [c'.target]
  exact apart

end Candidate

/-- The paths at which a merge may change objects. -/
def Touches (current coll p x : String) : Prop :=
  ∃ path, destination p current coll = .ok path ∧ (x = p ∨ x = path)

/-- Merges of different objects touch different paths. -/
theorem Roots.touches_unique {m : Memory} {x : String} (roots : Roots current coll base root)
    (orderly : Orderly m) (present : p ∈ m.objects) (present' : q ∈ m.objects)
    (touches : Touches current coll p x) (touches' : Touches current coll q x) : p = q := by
  obtain ⟨path, hpath, here⟩ := touches
  obtain ⟨path', hpath', here'⟩ := touches'
  obtain ⟨rel, c⟩ := roots.candidate orderly present hpath
  obtain ⟨rel', c'⟩ := roots.candidate orderly present' hpath'
  rcases here with rfl | rfl <;> rcases here' with same | same
  · exact same
  · exact absurd same (c.ne_target c' roots)
  · exact absurd same.symm (c'.ne_target c roots)
  · exact c.eq_of_target c' same

end DataGrid.Merge
