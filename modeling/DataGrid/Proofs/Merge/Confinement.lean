import DataGrid.Proofs.Merge.Survival
import DataGrid.Proofs.Merge.Discipline
import DataGrid.Proofs.Resolution

/-! Where the commands of a merge lead. They go to the host of the resource that the catalog gives
for the copy, and the link is made from the file that it gives. The place of the link is spelled by
the vault path and the segments of the master path after its zone, as they are. It is in the vault
if the way that these segments take stays there, and a master path with steps back may leave it. -/
namespace DataGrid.Merge
open Dialogue (Exchange Keeps)
open DataGrid.Path

variable {obj master : String} {past : List (Exchange interface)} {α β σ : Type}

/-- The first answer on where the object lies. -/
def Located (obj : String) (past : List (Exchange interface)) (copy : Replica) : Prop :=
  past.find? (fun e => e.call = .inl (.primary obj)) = some (told (.primary obj) copy)

theorem Located.append {copy : Replica} (h : Located obj past copy) (e : Exchange interface) :
    Located obj (past ++ [e]) copy := by
  rw [Located, List.find?_append, h]
  rfl

theorem located_told (first : ∀ e ∈ past, e.call ≠ .inl (.primary obj)) (copy : Replica) :
    Located obj (past ++ [told (.primary obj) copy]) copy := by
  have none : past.find? (fun e => e.call = .inl (.primary obj)) = none := by
    simpa using first
  rw [Located, List.find?_append, none]
  simp

/-- The rule: a command names the host, the file and the place that follow from what the catalog
has said of the copy. -/
def Directed (obj master : String) (past : List (Exchange interface)) : interface.Call → Prop
  | .inl _ => True
  | .inr q => ∃ copy physical parent leaf, Located obj past copy ∧
      physicalPath copy.resource master = .ok physical ∧
      Directory.parentAndName physical = .ok (parent, leaf) ∧ q.address = copy.resource.address ∧
      (q.command = .mkdir parent true ∨ q.command = .link copy.file physical)

/-- Keeps the rule, with nothing to say of the end. -/
abbrev KeepsDirected (obj master : String) (d : Dialogue interface α)
    (past : List (Exchange interface)) : Prop :=
  d.Keeps (Directed obj master) (fun _ _ => True) past

theorem onCatalog_directed (d : Dialogue Catalog.interface α) :
    KeepsDirected obj master (onCatalog d) past := by
  induction d generalizing past with
  | done a => trivial
  | ask c next ih => exact ⟨trivial, fun answer => ih answer⟩

theorem ask_directed {step : Step} {target : String} {c : Catalog.Call} {f : c.Result → Attempt β}
    (rest : ∀ a, KeepsDirected obj master (f a).run (past ++ [told c a])) :
    KeepsDirected obj master (ask step target c >>= f).run past := by
  refine ⟨trivial, ?_⟩
  rintro (e | a)
  · trivial
  · exact rest a

theorem command_directed {step : Step} {q : Remote.Request} {f : Unit → Attempt β}
    (directed : Directed obj master past (.inr q))
    (rest : ∀ out, KeepsDirected obj master (f ()).run (past ++ [ran q out])) :
    KeepsDirected obj master (command step q >>= f).run past := by
  refine ⟨directed, ?_⟩
  rintro (e | out)
  · trivial
  · exact rest out

theorem known_directed {k : Except Error α} {f : α → Attempt β}
    (rest : ∀ a, k = .ok a → KeepsDirected obj master (f a).run past) :
    KeepsDirected obj master (known k >>= f).run past := by
  cases k with
  | error e => trivial
  | ok a => exact rest a rfl

theorem link_directed (first : ∀ e ∈ past, e.call ≠ .inl (.primary obj)) :
    KeepsDirected obj master (link obj master).run past := by
  unfold link
  refine ask_directed fun copy => ?_
  have located := located_told first copy
  refine ask_directed fun kept => ?_
  replace located := located.append (told (.primary master) kept)
  refine known_directed fun physical laid => known_directed fun ⟨parent, leaf⟩ split => ?_
  refine command_directed ⟨copy, physical, parent, leaf, located, laid, split, rfl, .inl rfl⟩
    fun made => ?_
  replace located := located.append (ran ⟨copy.resource.address, .mkdir parent true⟩ made)
  refine command_directed ⟨copy, physical, parent, leaf, located, laid, split, rfl, .inr rfl⟩
    fun linked => ?_
  exact ask_directed fun done => ask_directed fun gone => trivial

theorem reconcile_directed (rules : Rules) (first : ∀ e ∈ past, e.call ≠ .inl (.primary obj)) :
    KeepsDirected obj master (reconcile rules obj master).run past := by
  simp only [reconcile, knownChecksum, bind_assoc, pure_bind]
  refine ask_directed fun own => ask_directed fun kept => ?_
  split
  · split
    · refine link_directed fun e he => ?_
      simp only [List.mem_append, List.mem_singleton] at he
      rcases he with (he | rfl) | rfl
      · exact first e he
      · simp
      · simp
    · exact ask_directed fun marked => trivial
  · trivial

theorem move_directed (rules : Rules) :
    KeepsDirected obj master (move rules obj master).run past := by
  unfold move
  have room : KeepsDirected obj master (makeRoom rules master).run past := by
    refine (onCatalog_directed _).bind fun answer past' _ => ?_
    cases answer <;> trivial
  exact room.attempt_bind (fun _ _ _ => trivial) fun _ _ _ => ask_directed fun _ => trivial

theorem object_directed (rules : Rules) {current coll : String}
    (hpath : destination obj current coll = .ok master) :
    KeepsDirected obj master (object rules obj current coll).run [] := by
  unfold object
  rw [hpath]
  refine known_directed fun path known => ?_
  cases known
  refine ⟨trivial, fun answer => ?_⟩
  have first : ∀ e ∈ [(⟨.inl (.identify master), answer⟩ : Exchange interface)],
      e.call ≠ .inl (.primary obj) := by
    simp
  rcases answer with (_ | ⟨status, message⟩) | (_ | number)
  · exact move_directed rules
  · trivial
  · exact move_directed rules
  · exact reconcile_directed rules first

theorem physicalPath_eq_ok {resource : Resource} {physical : String}
    (h : physicalPath resource master = .ok physical) :
    ∃ suffix, master.toList = '/' :: (resource.zone.toList ++ '/' :: suffix) ∧
      physical.toList = trimChars resource.vault.toList ++ '/' :: suffix := by
  rw [physicalPath] at h
  split at h
  · next suffix strip =>
    cases h
    refine ⟨suffix, ?_, String.toList_ofList⟩
    simpa using Text.eq_append_of_stripLead? strip
  · contradiction

/-- The path that the command makes. -/
def writtenAt : Remote.Command → String
  | .mkdir path _ => path
  | .link _ dest => dest

/-- A link is made from the file of the copy, and a directory with its parents. The place is in
the vault if the way of the suffix, for a directory without its last segment, stays there. -/
def Leads (copy : Replica) (suffix : List Char) : Remote.Command → Prop
  | .mkdir path parents => parents = true ∧ (covers copy.resource.vault path = true ↔
      Stays (resolved copy.resource.vault.toList) (segments suffix).dropLast)
  | .link source dest => source = copy.file ∧ (covers copy.resource.vault dest = true ↔
      Stays (resolved copy.resource.vault.toList) (segments suffix))

theorem Leads.covers {copy : Replica} {suffix : List Char} {c : Remote.Command}
    (h : Leads copy suffix c) (forward : back ∉ segments suffix) :
    Path.covers copy.resource.vault (writtenAt c) = true := by
  cases c with
  | mkdir path parents =>
    exact h.2.mpr (stays_of_not_mem (fun last => forward (List.dropLast_subset _ last)) _)
  | link source dest => exact h.2.mpr (stays_of_not_mem forward _)

/-- Against any catalog and any hosts, a command goes to the host of the copy's resource, from the
file of the copy to a place that is in the vault exactly if the master path below its zone leads
from the vault to a place in it; without a step back it does. -/
theorem command_in_vault_iff (serve : Server σ interface) (s : σ) (rules : Rules)
    (obj current coll : String) {before after : List (Exchange interface)} {q : Remote.Request}
    {answer : interface.Answer (.inr q)}
    (issued : (object rules obj current coll).run.exchanges serve s =
      before ++ ⟨.inr q, answer⟩ :: after) :
    ∃ master copy suffix, destination obj current coll = .ok master ∧ Located obj before copy ∧
      master.toList = '/' :: (copy.resource.zone.toList ++ '/' :: suffix) ∧
      q.address = copy.resource.address ∧ Leads copy suffix q.command ∧
      (back ∉ segments suffix → covers copy.resource.vault (writtenAt q.command) = true) := by
  cases hpath : destination obj current coll with
  | error e =>
    have silent : (object rules obj current coll).run.exchanges serve s = [] := by
      unfold object
      rw [hpath]
      rfl
    rw [silent] at issued
    simp at issued
  | ok master =>
    obtain ⟨directed, -⟩ := (object_directed rules hpath).exchanges serve s
    obtain ⟨copy, physical, parent, leaf, located, laid, split, host, command⟩ :=
      directed before _ after issued
    obtain ⟨suffix, spelled, below⟩ := physicalPath_eq_ok laid
    have halves : split? physical = some (parent, leaf) := by
      rw [Directory.parentAndName] at split
      split at split
      · next parts same =>
        cases split
        exact same
      · contradiction
    have leads : Leads copy suffix q.command := by
      rcases command with made | linked
      · rw [made]
        exact ⟨rfl, covers_parent_iff_stays below halves⟩
      · rw [linked]
        exact ⟨rfl, covers_iff_stays below⟩
    exact ⟨master, copy, suffix, rfl, located, spelled, host, leads, leads.covers⟩

namespace Sample

/-- What is exchanged when `/z/c/x` is merged into the collection, which has a copy already. -/
def linking (coll : String) : List (Exchange interface) :=
  (object .usual "/z/c/x" "/z/c" coll).run.exchanges (world willing)
    (catalog ["/z/c/x", coll ++ "/x"], ())

end Sample

/-- A step back inside the vault. -/
theorem step_back_stays_in_vault : ∃ before after,
    Sample.linking "/z/h/a/../b" =
      before ++ ⟨.inr ⟨"h", .link "/v/f" "/v/h/a/../b/x"⟩, .ok {}⟩ :: after ∧
    covers Sample.disk.vault "/v/h/a/../b/x" = true := by
  let before := (Sample.linking "/z/h/a/../b").take 6
  let after := (Sample.linking "/z/h/a/../b").drop 7
  have issued : Sample.linking "/z/h/a/../b" =
      before ++ ⟨.inr ⟨"h", .link "/v/f" "/v/h/a/../b/x"⟩, .ok {}⟩ :: after := rfl
  refine ⟨before, after, issued, ?_⟩
  obtain ⟨master, copy, suffix, path, located, spelled, -, leads, -⟩ :=
    command_in_vault_iff _ _ _ _ _ _ issued
  have found : Located "/z/c/x" before (Sample.replica "/z/c/x") := rfl
  have there : destination "/z/c/x" "/z/c" "/z/h/a/../b" = .ok "/z/h/a/../b/x" := rfl
  cases found.symm.trans located
  cases there.symm.trans path
  obtain rfl : suffix = "h/a/../b/x".toList :=
    List.append_cancel_left (show ['/', 'z', '/'] ++ suffix = ['/', 'z', '/'] ++ _ from
      spelled.symm)
  exact leads.2.mpr (by decide)

/-- Where the master path steps back over the vault, the file gets its name outside of it. -/
theorem link_leaves_vault : ∃ before after,
    Sample.linking "/z/../../etc" =
      before ++ ⟨.inr ⟨"h", .link "/v/f" "/v/../../etc/x"⟩, .ok {}⟩ :: after ∧
    Located "/z/c/x" before (Sample.replica "/z/c/x") ∧
    (Sample.replica "/z/c/x").resource.vault = "/v" ∧ normal "/v/../../etc/x" = "/etc/x" ∧
    covers "/v" "/v/../../etc/x" = false :=
  ⟨(Sample.linking "/z/../../etc").take 6, (Sample.linking "/z/../../etc").drop 7, rfl, rfl, rfl,
    rfl, by decide⟩

end DataGrid.Merge
