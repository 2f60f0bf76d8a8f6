import DataGrid.Proofs.Json.Defaults
import DataGrid.Catalog.Replica
import DataGrid.Query.Condition
import DataGrid.Remote
import DataGrid.Vault
import Mathlib.Data.Option.Basic

/-! Everything that is written as JSON is read back as it was. -/
namespace DataGrid
open Json

theorem choice?_locality (l : Locality) : choice? Locality.names (.text l.name) = some l := by
  cases l <;> rfl

theorem choice?_freshness (f : Freshness) : choice? Freshness.names (.text f.name) = some f := by
  cases f <;> rfl

@[simp] theorem Host.ofJson?_toJson (h : Host) : ofJson? h.toJson = some h := by
  rw [toJson, ofJson?, fields?_record (by simp)]
  simp [choice?_locality]

@[simp] theorem Resource.ofJson?_toJson (r : Resource) : ofJson? r.toJson = some r := by
  rw [toJson, ofJson?, fields?_record (by simp)]
  simp

theorem Registry.entries?_toJson (g : Registry) : entries? g.toJson = some g.resources :=
  list?_map fun r _ => r.ofJson?_toJson

@[simp] theorem Replica.ofJson?_toJson (r : Replica) : ofJson? r.toJson = some r := by
  rw [toJson, ofJson?, fields?_record (by simp)]
  simp [choice?_freshness]

@[simp] theorem Condition.ofJson?_toJson (c : Condition) : ofJson? c.toJson = some c := by
  rw [toJson, ofJson?, fields?_record (by simp)]
  simp

theorem list?_texts (ss : List String) : list? text? (.array (ss.map .text)) = some ss :=
  list?_map fun s _ => text?_text s

theorem Query.Request.ofJson?_toJson {r : Query.Request}
    (index : Text.int64Range.contains r.continueIndex = true) : ofJson? r.toJson = some r := by
  have conditions : list? Condition.ofJson? (.array (r.conditions.map Condition.toJson)) =
      some r.conditions := list?_map fun c _ => c.ofJson?_toJson
  rw [toJson, ofJson?, fields?_record (by simp)]
  simp [list?_texts, conditions, integerIn?, index]

theorem Query.Reply.ofJson?_toJson {r : Query.Reply}
    (index : Text.int64Range.contains r.continueIndex = true) : ofJson? r.toJson = some r := by
  have rows : list? (list? text?) (.array (r.rows.map rowJson)) = some r.rows :=
    list?_map fun row _ => list?_texts row
  rw [toJson, ofJson?, fields?_record (by simp)]
  simp [rows, integerIn?, index]

theorem Permission.ofJson?_toJson (p : Permission) : ofJson? p.toJson = some p := by
  cases p <;> rw [toJson, ofJson?, tagged?_record (by simp) (by simp) (by decide)] <;>
    simp [ofFields?, eachOnce_of_nodup]

theorem Remote.Command.ofJson?_toJson (level : Nat) (shallow : level < depthLimit) (c : Command) :
    ofJson? level c.toJson = some c := by
  cases c <;> rw [toJson, ofJson?, tagged?_record (by simp) (by simp) shallow] <;>
    simp [ofFields?, eachOnce_of_nodup, guard]

theorem Remote.Request.ofJson?_toJson (r : Request) : ofJson? r.toJson = some r := by
  rw [toJson, ofJson?, fields?_record (by simp)]
  simp [Command.ofJson?_toJson 1 (by decide)]

theorem Remote.Output.ofJson?_toJson (o : Output) : ofJson? o.toJson = some o := by
  rw [toJson, ofJson?, fields?_record (by simp)]
  simp

theorem taggedChoice?_step (s : Step) : taggedChoice? Step.names (.text s.name) = some s := by
  cases s <;> rfl

theorem Error.ofJson?_toJson (e : Error) : ofJson? e.toJson = some e := by
  cases e <;> rw [toJson, ofJson?, tagged?_record (by simp) (by simp) (by decide)] <;>
    simp [ofFields?, eachOnce_of_nodup, taggedChoice?_step, guard]

/-! As text. -/

@[simp] theorem Host.plain_toJson (h : Host) : h.toJson.plain = true := by
  simp [toJson]

@[simp] theorem Resource.plain_toJson (r : Resource) : r.toJson.plain = true := by
  simp [toJson]

@[simp] theorem Condition.plain_toJson (c : Condition) : c.toJson.plain = true := by
  simp [toJson]

@[simp] theorem Remote.Command.plain_toJson (c : Remote.Command) : c.toJson.plain = true := by
  cases c <;> simp [toJson]

/-- What is written of the value as JSON text is read back as the value. -/
def Faithful {α : Type} (encode : α → Json) (decode : Json → Option α) (a : α) : Prop :=
  (Json.read (encode a).render).bind decode = some a

theorem faithful_of_plain {α : Type} {encode : α → Json} {decode : Json → Option α} {a : α}
    (plain : (encode a).plain = true) (back : decode (encode a) = some a) :
    Faithful encode decode a := by
  rw [Faithful, read_render _ plain]
  exact back

/-- A registry is written as the list of its entries. -/
def Registry.ofJson? (j : Json) : Option Registry := (entries? j).map Registry.mk

/-! Left out fields. -/

/-- A host is local unless it says otherwise. -/
def Host.defaults : Fields := [("locality", .text "local")]

def Replica.defaults : Fields :=
  [("checksum", .null), ("replica_number", .ofInt32 0), ("replica_status", .text "good"),
    ("data_type", .text ""), ("size", .ofUInt64 0), ("modify_time", .ofInt64 0)]

theorem Host.ofJson?_fills {members filled : List (Option String × Json)}
    (fills : Fills defaults members filled) :
    ofJson? (.object filled) = ofJson? (.object members) := by
  rcases fields?_filled (by decide) fills ["name", "zone", "locality"] with
    ⟨none, none'⟩ | ⟨given, whole, before, after, completed⟩
  · rw [ofJson?, ofJson?, none, none']
  · rw [ofJson?, ofJson?, before, after]
    simp only [Option.bind_eq_bind, Option.bind_some,
      completed.required "name" (by decide) (by decide),
      completed.required "zone" (by decide) (by decide),
      completed.withDefault "locality" .here (choice? Locality.names) (by decide)
        (by simp [defaults]; rfl)]

theorem Replica.ofJson?_fills {members filled : List (Option String × Json)}
    (fills : Fills defaults members filled) :
    ofJson? (.object filled) = ofJson? (.object members) := by
  rcases fields?_filled (by decide) fills fieldNames with
    ⟨none, none'⟩ | ⟨given, whole, before, after, completed⟩
  · rw [ofJson?, ofJson?, none, none']
  · rw [ofJson?, ofJson?, before, after]
    simp only [Option.bind_eq_bind, Option.bind_some,
      completed.required "obj_path" (by decide) (by decide),
      completed.required "file_path" (by decide) (by decide),
      completed.required "resource" (by decide) (by decide),
      completed.withDefault "checksum" none (optional? text?) (by decide)
        (by simp [defaults]; rfl),
      completed.withDefault "replica_number" 0 int32? (by decide) (by simp [defaults]),
      completed.withDefault "replica_status" .good (choice? Freshness.names) (by decide)
        (by simp [defaults]; rfl),
      completed.withDefault "data_type" "" text? (by decide) (by simp [defaults]),
      completed.withDefault "size" 0 uint64? (by decide) (by simp [defaults]),
      completed.withDefault "modify_time" 0 int64? (by decide) (by simp [defaults])]

/-- Everything that is written as JSON is read back from its text as it was, and an object that
leaves out fields with defaults is read as if they had been filled in. -/
theorem decode_encode :
    (∀ h : Host, Faithful Host.toJson Host.ofJson? h) ∧
    (∀ r : Resource, Faithful Resource.toJson Resource.ofJson? r) ∧
    (∀ g : Registry, Faithful Registry.toJson Registry.ofJson? g) ∧
    (∀ r : Replica, Faithful Replica.toJson Replica.ofJson? r) ∧
    (∀ c : Condition, Faithful Condition.toJson Condition.ofJson? c) ∧
    (∀ r : Query.Request, Text.int64Range.contains r.continueIndex = true →
      Faithful Query.Request.toJson Query.Request.ofJson? r) ∧
    (∀ r : Query.Reply, Text.int64Range.contains r.continueIndex = true →
      Faithful Query.Reply.toJson Query.Reply.ofJson? r) ∧
    (∀ p : Permission, Faithful Permission.toJson Permission.ofJson? p) ∧
    (∀ c : Remote.Command, Faithful Remote.Command.toJson (Remote.Command.ofJson? 0) c) ∧
    (∀ r : Remote.Request, Faithful Remote.Request.toJson Remote.Request.ofJson? r) ∧
    (∀ o : Remote.Output, Faithful Remote.Output.toJson Remote.Output.ofJson? o) ∧
    (∀ e : Error, Faithful Error.toJson Error.ofJson? e) ∧
    (∀ members filled, Fills Host.defaults members filled →
      Host.ofJson? (.object filled) = Host.ofJson? (.object members)) ∧
    (∀ members filled, Fills Replica.defaults members filled →
      Replica.ofJson? (.object filled) = Replica.ofJson? (.object members)) := by
  refine ⟨fun h => ?_, fun r => ?_, fun g => ?_, fun r => ?_, fun c => ?_, fun r index => ?_,
    fun r index => ?_, fun p => ?_, fun c => ?_, fun r => ?_, fun o => ?_, fun e => ?_,
    fun _ _ => Host.ofJson?_fills, fun _ _ => Replica.ofJson?_fills⟩
  · exact faithful_of_plain h.plain_toJson h.ofJson?_toJson
  · exact faithful_of_plain r.plain_toJson r.ofJson?_toJson
  · refine faithful_of_plain (by simp [Registry.toJson]) ?_
    rw [Registry.ofJson?, Registry.entries?_toJson]
    rfl
  · exact faithful_of_plain (by simp [Replica.toJson]) r.ofJson?_toJson
  · exact faithful_of_plain c.plain_toJson c.ofJson?_toJson
  · exact faithful_of_plain (by simp [Query.Request.toJson]) (r.ofJson?_toJson index)
  · refine faithful_of_plain ?_ (r.ofJson?_toJson index)
    simp [Query.Reply.toJson, Query.Reply.rowJson]
  · exact faithful_of_plain (by cases p <;> simp [Permission.toJson]) p.ofJson?_toJson
  · exact faithful_of_plain c.plain_toJson (c.ofJson?_toJson 0 (by decide))
  · exact faithful_of_plain (by simp [Remote.Request.toJson]) r.ofJson?_toJson
  · exact faithful_of_plain (by simp [Remote.Output.toJson]) o.ofJson?_toJson
  · exact faithful_of_plain (by cases e <;> simp [Error.toJson]) e.ofJson?_toJson

/-- Texts that need escapes and the least index there is; and a host that says between its other
fields that it is local. -/
theorem decode_encode_extremes :
    Faithful Query.Request.toJson Query.Request.ofJson?
      ⟨["\"\\\n\x01é𐍈"], [⟨"DATA_NAME", "= '\t'"⟩], -1, Int64.minValue.toInt⟩ ∧
    Host.ofJson? (.record [("zone", .text "zoneA"), ("locality", .text "local"),
        ("name", .text "icat")]) =
      Host.ofJson? (.record [("name", .text "icat"), ("zone", .text "zoneA")]) := by
  obtain ⟨-, -, -, -, -, request, -, -, -, -, -, -, host, -⟩ := decode_encode
  have filled : Fills Host.defaults
      [(some "name", .text "icat"), (some "zone", .text "zoneA")]
      [(some "zone", .text "zoneA"), (some "locality", .text "local"),
        (some "name", .text "icat")] :=
    ⟨Host.defaults, List.Sublist.refl _, by simp [Host.defaults],
      (List.Perm.swap ..).trans (.cons _ (List.Perm.swap ..))⟩
  exact ⟨request _ (by decide), host _ _ filled⟩

end DataGrid
