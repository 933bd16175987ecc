import Regesta.Proofs.Evaluation.Modes
import Regesta.Proofs.Evaluation.Shape
import Regesta.Proofs.Json.Unambiguity
import Regesta.Proofs.Json.Writing
import Regesta.Proofs.Manifest.Apart
import Regesta.Service

namespace Regesta

namespace Json

/-- JSON that readers do not differ about: there are no numbers in it, whose precision is left to
them, and no object repeats a name. -/
inductive Definite : Json → Prop
  | null : Definite .null
  | boolean {value : Bool} : Definite (.boolean value)
  | string {value : String} : Definite (.string value)
  | array {items : List Json} : (∀ item ∈ items, Definite item) → Definite (.array items)
  | object {members : List (String × Json)} :
    (members.map Prod.fst).Nodup → (∀ member ∈ members, Definite member.2) →
    Definite (.object members)

/-- A reader of JSON texts: it accepts all that the grammar has, and may accept more. -/
structure Reader where
  read : String → Option Json
  accepts : ∀ text json, json.Definite → IsText text json → read text = some json

theorem exists_reader : Nonempty Reader := by
  classical
  let read (text : String) : Option Json :=
    if spelled : ∃ json, IsText text json then some spelled.choose else none
  refine ⟨read, ?_⟩
  intro text json _ spelled
  have some : ∃ json, IsText text json := ⟨json, spelled⟩
  rw [show read text = _ from dif_pos some, text_unique some.choose_spec spelled]

end Json

namespace Value

open Json (IsText Padded)

theorem compact_isText (value : Value) : IsText value.compact value.json := by
  rw [IsText, compact, String.toList_ofList]
  exact .bare (written value).line

theorem pretty_isText (value : Value) : IsText value.pretty value.json := by
  rw [IsText, pretty, String.toList_ofList]
  exact .bare ((written value).page 0)

theorem compact_injective {value other : Value} (same : value.compact = other.compact) :
    value = other := by
  have spelled := compact_isText value
  rw [same] at spelled
  exact json_injective (Json.text_unique spelled (compact_isText other))

theorem list_definite {items : List Value} (each : ∀ item ∈ items, item.json.Definite) :
    (Value.list items).json.Definite := by
  rw [json, jsonItems_eq]
  exact .array (List.forall_mem_map.mpr each)

theorem object_definite {members : Members} (apart : (members.map Prod.fst).Nodup)
    (each : ∀ member ∈ members, member.2.json.Definite) :
    (Value.object members).json.Definite := by
  rw [json, jsonMembers_eq]
  refine .object ?_ (List.forall_mem_map.mpr each)
  rwa [List.map_map]

end Value

section

variable {mode : Mode} {name : String} {attributes : List Xml.ExpandedName}
  {filter : Option FilterRef}

theorem ExtractedAt.definite {place : Xml.Place} {value : Value}
    (extracted : ExtractedAt name attributes filter place value) : value.json.Definite := by
  cases extracted with
  | text _ => exact .string
  | null _ => exact .null

theorem ExtractedAt.all_definite {places : List Xml.Place} {values : List Value}
    (extracted : List.Forall₂ (ExtractedAt name attributes filter) places values) :
    ∀ value ∈ values, value.json.Definite := by
  induction extracted with
  | nil => exact List.forall_mem_nil _
  | cons first _ ih => exact List.forall_mem_cons.mpr ⟨first.definite, ih⟩

mutual
theorem PropertyFits.definite {context : Xml.Place} {property : Property} {value : Value}
    (fits : PropertyFits mode context property value) (apart : property.Apart) :
    value.json.Definite := by
  match fits with
  | .text _ extracted => exact extracted.definite
  | .noText _ => exact .null
  | .texts _ _ extracted => exact Value.list_definite (ExtractedAt.all_definite extracted)
  | .here inside =>
    have inner := apart.nested rfl
    exact Value.object_definite (inside.names ▸ inner.names) (inside.definite inner.inner)
  | .onlyHere inside =>
    have inner := apart.nested rfl
    have object := Value.object_definite (inside.names ▸ inner.names) (inside.definite inner.inner)
    exact Value.list_definite (List.forall_mem_cons.mpr ⟨object, List.forall_mem_nil _⟩)
  | .object _ _ inside =>
    have inner := apart.nested rfl
    exact Value.object_definite (inside.names ▸ inner.names) (inside.definite inner.inner)
  | .noObject .. => exact .null
  | .objects _ _ _ inside => exact Value.list_definite (inside.definite (apart.nested rfl))
  | .templates inside =>
    exact Value.list_definite (inside.definite fun set member => apart.nested member)

theorem SetFits.definite {context : Xml.Place} {properties : List Property} {members : Members}
    (fits : SetFits mode context properties members)
    (apart : ∀ property ∈ properties, property.Apart) :
    ∀ member ∈ members, member.2.json.Definite := by
  match fits with
  | .nil => exact List.forall_mem_nil _
  | .cons first others =>
    obtain ⟨here, later⟩ := List.forall_mem_cons.mp apart
    exact List.forall_mem_cons.mpr ⟨first.definite here, others.definite later⟩

theorem ObjectsFit.definite {properties : List Property} {places : List Xml.Place}
    {values : List Value} (fits : ObjectsFit mode properties places values)
    (apart : SetApart properties) : ∀ value ∈ values, value.json.Definite := by
  match fits with
  | .nil => exact List.forall_mem_nil _
  | .cons first others =>
    have object := Value.object_definite (first.names ▸ apart.names) (first.definite apart.inner)
    exact List.forall_mem_cons.mpr ⟨object, others.definite apart⟩

theorem TemplatesFit.definite {context : Xml.Place} {sets : List (List Property)}
    {values : List Value} (fits : TemplatesFit mode context sets values)
    (apart : ∀ set ∈ sets, SetApart set) : ∀ value ∈ values, value.json.Definite := by
  match fits with
  | .nil => exact List.forall_mem_nil _
  | .cons first others =>
    obtain ⟨here, later⟩ := List.forall_mem_cons.mp apart
    have object := Value.object_definite (first.names ▸ here.names) (first.definite here.inner)
    exact List.forall_mem_cons.mpr ⟨object, others.definite later⟩
end

end

/-- A record that is made of an entity, of a type that some manifest declares. -/
def Record.Made (record : Record) : Prop :=
  ∃ source manifest entity place made, (Manifest.load source).result = .ok manifest ∧
    entity ∈ manifest.entities ∧ (Entity.record entity manifest.mode place).result = .ok made ∧
    record = { made with resource := record.resource }

theorem Record.Made.definite {record : Record} (made : record.Made) :
    (Value.object record.properties).json.Definite := by
  obtain ⟨source, manifest, entity, place, _, loaded, listed, made, same⟩ := made
  have apart := Manifest.load_apart loaded entity listed
  obtain ⟨members, evaluated, rfl⟩ := Entity.record_ok_iff.mp made
  have fits := set_fits entity.properties evaluated
  rw [same]
  exact Value.object_definite (fits.names ▸ apart.names) (fits.definite apart.inner)

namespace Record

theorem toValue_json (record : Record) :
    record.toValue.json =
      .object ([("id", .string record.id), ("entity", .string record.entity)] ++
        record.resource.toList.map (fun resource => ("resource", .string resource)) ++
        [("properties", (Value.object record.properties).json)]) := by
  rw [toValue, Value.json]
  cases record.resource <;> rfl

theorem toValue_injective {record other : Record} (same : record.toValue = other.toValue) :
    record = other := by
  obtain ⟨id, entity, resource, properties⟩ := record
  obtain ⟨id', entity', resource', properties'⟩ := other
  simp only [toValue, Value.object.injEq] at same
  cases resource <;> cases resource' <;> simp_all

theorem toValue_definite {record : Record}
    (definite : (Value.object record.properties).json.Definite) : record.toValue.json.Definite := by
  rw [toValue_json]
  refine .object ?_ ?_
  · cases record.resource <;> simp
  · simp only [List.forall_mem_append, List.forall_mem_map, List.forall_mem_cons]
    exact ⟨⟨⟨.string, .string, by simp⟩, fun _ _ => .string⟩, definite, by simp⟩

/-- The texts of a record spell one JSON value: an object with the parts of the record, from which
its properties are decoded as they are. So all readers make that of them, where no object of the
properties repeats a name, as it is with all records that are made of entities; and different records
have different texts. The text over several lines is what is shown of an entity as a record. -/
theorem texts_read (record : Record) :
    let properties := (Value.object record.properties).json
    let whole : Json :=
      .object ([("id", .string record.id), ("entity", .string record.entity)] ++
        record.resource.toList.map (fun resource => ("resource", .string resource)) ++
        [("properties", properties)])
    properties.value? = some (.object record.properties) ∧
    (∀ found, Json.IsText record.toValue.compact found ↔ found = whole) ∧
    (∀ found, Json.IsText record.toValue.pretty found ↔ found = whole) ∧
    (properties.Definite → ∀ reader : Json.Reader,
      reader.read record.toValue.compact = some whole ∧
      reader.read record.toValue.pretty = some whole) ∧
    (record.Made → properties.Definite) ∧
    (∀ other : Record, other.toValue.compact = record.toValue.compact ↔ other = record) ∧
    ∀ (service : Service) (name id : String), service.render? name id .record =
      (service.get? name id).map (Option.map fun found => found.toValue.pretty) := by
  intro properties whole
  have shape : record.toValue.json = whole := record.toValue_json
  have compact : Json.IsText record.toValue.compact whole := shape ▸ record.toValue.compact_isText
  have pretty : Json.IsText record.toValue.pretty whole := shape ▸ record.toValue.pretty_isText
  refine ⟨Value.value?_json _, ?_, ?_, ?_, Made.definite, ?_, ?_⟩
  · exact fun found => ⟨fun other => Json.text_unique other compact, fun same => same ▸ compact⟩
  · exact fun found => ⟨fun other => Json.text_unique other pretty, fun same => same ▸ pretty⟩
  · intro definite reader
    have whole := shape ▸ toValue_definite definite
    exact ⟨reader.accepts _ _ whole compact, reader.accepts _ _ whole pretty⟩
  · intro other
    constructor
    · exact fun same => toValue_injective (Value.compact_injective same)
    · exact fun same => same ▸ rfl
  · intro service name id
    rw [Service.render?, Service.get?]
    cases service.manifest.entity name with
    | error error => rfl
    | ok entity =>
      simp only [bind, Except.bind]
      cases service.snapshot.find? name id <;> rfl

/-- A quote and a line break in an identifier, and an empty list beside an empty object. -/
theorem texts_read_escaped :
    let record : Record :=
      ⟨"a\"\n", "letters", none, [("n", .list [.null, .list [], .object []]), ("", .text "\x01")]⟩
    (Value.object record.properties).json.Definite ∧
      record.toValue.compact =
        "\x7b\"id\":\"a\\\"\\n\",\"entity\":\"letters\",\"properties\":\x7b\"n\":[null,[],\x7b\x7d]," ++
          "\"\":\"\\u0001\"\x7d\x7d" ∧
      ∃ reader : Json.Reader, reader.read record.toValue.compact =
        some (.object [("id", .string "a\"\n"), ("entity", .string "letters"),
          ("properties", .object [("n", .array [.null, .array [], .object []]),
            ("", .string "\x01")])]) := by
  intro record
  have emptyList : Json.Definite (.array []) := .array (List.forall_mem_nil _)
  have emptyObject : Json.Definite (.object []) := .object .nil (List.forall_mem_nil _)
  have list : Json.Definite (.array [.null, .array [], .object []]) :=
    .array (by simpa using ⟨.null, emptyList, emptyObject⟩)
  have definite : (Value.object record.properties).json.Definite :=
    .object (by decide) (List.forall_mem_cons.mpr
      ⟨list, List.forall_mem_cons.mpr ⟨.string, List.forall_mem_nil _⟩⟩)
  obtain ⟨_, _, _, read, _⟩ := record.texts_read
  obtain ⟨reader⟩ := Json.exists_reader
  exact ⟨definite, by decide, reader, (read definite reader).1⟩

end Record
end Regesta
