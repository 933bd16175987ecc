import Regesta.Proofs.Evaluation.Modes
import Regesta.Proofs.Manifest.Outline
import Regesta.Proofs.Reported

namespace Regesta

open Xml (ExpandedName Place)

def Lacks (attributes : List ExpandedName) (place : Place) : Prop :=
  ∀ entry ∈ place.attributes, entry.name ∉ attributes

/-- The first of some attributes that a node has, in the order in which they are listed, has a value. -/
def FirstPresent (attributes : List ExpandedName) (place : Place) (value : String) : Prop :=
  ∃ before name after, attributes = before ++ name :: after ∧ Lacks before place ∧
    place.attribute? name = some value

/-- What a property with some attributes and a filter takes from a node. -/
inductive Takes (attributes : List ExpandedName) (filter : Option FilterRef) (place : Place) :
    Option String → Prop
  | unknownFilter {name : String} :
    filter = some (.unknown name) → Takes attributes filter place none
  | noAttribute : attributes ≠ [] → Lacks attributes place → Takes attributes filter place none
  | filteredNode {known : Filter} :
    filter = some (.known known) → attributes = [] →
    Takes attributes filter place (some (known.apply place))
  | filteredValue {known : Filter} {value text : String} :
    filter = some (.known known) → FirstPresent attributes place value →
    known.applyText? value = some text → Takes attributes filter place (some text)
  | value {value : String} :
    filter = none → FirstPresent attributes place value →
    Takes attributes filter place (some (Text.normalized value))
  | text :
    filter = none → attributes = [] →
    Takes attributes filter place (some (Text.normalized place.fullText))

namespace Xml.Place

theorem attribute?_eq (place : Place) (name : ExpandedName) :
    place.attribute? name =
      (place.attributes.find? fun entry => entry.name == name).map Attribute.value := by
  unfold attribute? attributes
  cases place.node? <;> rfl

@[simp] theorem attribute?_eq_none_iff {place : Place} {name : ExpandedName} :
    place.attribute? name = none ↔ ∀ entry ∈ place.attributes, entry.name ≠ name := by
  rw [attribute?_eq, Option.map_eq_none_iff, List.find?_eq_none]
  simp only [beq_iff_eq]

end Xml.Place

section

variable {attributes : List ExpandedName} {filter : Option FilterRef} {place : Place}

theorem lacks_iff : Lacks attributes place ↔ ∀ name ∈ attributes, place.attribute? name = none := by
  simp only [Place.attribute?_eq_none_iff]
  constructor
  · rintro lacks name listed entry member rfl
    exact lacks entry member listed
  · intro absent entry member listed
    exact absent entry.name listed entry member rfl

@[simp] theorem firstAttribute?_eq_none_iff :
    firstAttribute? attributes place = none ↔ Lacks attributes place := by
  rw [firstAttribute?, List.findSome?_eq_none_iff, lacks_iff]

@[simp] theorem firstAttribute?_eq_some_iff {value : String} :
    firstAttribute? attributes place = some value ↔ FirstPresent attributes place value := by
  rw [firstAttribute?, List.findSome?_eq_some_iff]
  simp only [FirstPresent, lacks_iff]
  constructor
  · rintro ⟨before, name, after, shape, found, absent⟩
    exact ⟨before, name, after, shape, absent, found⟩
  · rintro ⟨before, name, after, shape, absent, found⟩
    exact ⟨before, name, after, shape, found, absent⟩

theorem FirstPresent.filled {value : String} (present : FirstPresent attributes place value) :
    attributes ≠ [] := by
  obtain ⟨before, name, after, rfl, _⟩ := present
  simp

theorem applyText?_isSome {known : Filter} (textual : known.acceptsText = true) (value : String) :
    ∃ text, known.applyText? value = some text := by
  cases known with
  | truncate => exact ⟨_, rfl⟩
  | tagName => cases textual
  | joinedChildren => cases textual

theorem extract_of_takes {text : Option String} (takes : Takes attributes filter place text)
    (name : String) : (extract name attributes filter place).result = .ok text := by
  unfold extract
  cases takes with
  | unknownFilter unknown =>
    subst unknown
    split
    · rfl
    · split <;> rfl
  | noAttribute filled lacks =>
    rw [if_neg (mt List.isEmpty_iff.mp filled), firstAttribute?_eq_none_iff.mpr lacks]
    rfl
  | filteredNode known empty =>
    subst known
    rw [if_pos (List.isEmpty_iff.mpr empty)]
    rfl
  | filteredValue known present derived =>
    subst known
    rw [if_neg (mt List.isEmpty_iff.mp present.filled), firstAttribute?_eq_some_iff.mpr present,
      ← derived]
    rfl
  | value unfiltered present =>
    subst unfiltered
    rw [if_neg (mt List.isEmpty_iff.mp present.filled), firstAttribute?_eq_some_iff.mpr present]
    rfl
  | text unfiltered empty =>
    subst unfiltered
    rw [if_pos (List.isEmpty_iff.mpr empty)]
    rfl

/-- There is something to be taken, or a reason for null, where only filters for texts stand beside
attributes. -/
theorem exists_takes (attributes : List ExpandedName) (filter : Option FilterRef) (place : Place)
    (textual : ∀ known, filter = some (.known known) → attributes ≠ [] → known.acceptsText = true) :
    ∃ text, Takes attributes filter place text := by
  by_cases empty : attributes = []
  · match filter with
    | none => exact ⟨_, .text rfl empty⟩
    | some (.known known) => exact ⟨_, .filteredNode rfl empty⟩
    | some (.unknown _) => exact ⟨_, .unknownFilter rfl⟩
  cases first : firstAttribute? attributes place with
  | none => exact ⟨_, .noAttribute empty (firstAttribute?_eq_none_iff.mp first)⟩
  | some value =>
    have present := firstAttribute?_eq_some_iff.mp first
    match filter with
    | none => exact ⟨_, .value rfl present⟩
    | some (.known known) =>
      obtain ⟨text, derived⟩ := applyText?_isSome (textual known rfl empty) value
      exact ⟨some text, .filteredValue rfl present derived⟩
    | some (.unknown _) => exact ⟨_, .unknownFilter rfl⟩

theorem takes_none_iff :
    Takes attributes filter place none ↔
      (∃ name, filter = some (.unknown name)) ∨ (attributes ≠ [] ∧ Lacks attributes place) := by
  constructor
  · intro takes
    cases takes with
    | unknownFilter unknown => exact .inl ⟨_, unknown⟩
    | noAttribute filled lacks => exact .inr ⟨filled, lacks⟩
  · rintro (⟨name, unknown⟩ | ⟨filled, lacks⟩)
    · exact .unknownFilter unknown
    · exact .noAttribute filled lacks

end

namespace Property

variable {mode : Mode} {context : Place} {name : String} {paths : List Path}
  {attributes : List ExpandedName} {filter : Option FilterRef}

@[simp] theorem ofText?_eq_null_iff {text : Option String} :
    Value.ofText? text = .null ↔ text = none := by
  cases text <;> simp [Value.ofText?]

theorem evaluate_texts {texts : Place → Option String}
    (extracted : ∀ place, (extract name attributes filter place).result = .ok (texts place)) :
    ((leaf name paths true attributes filter).evaluate mode context).result =
      .ok (.list ((selectAll paths context).map fun place => Value.ofText? (texts place))) := by
  rw [evaluate, if_pos rfl, Reported.map_ok_iff]
  refine ⟨_, Reported.forEach_total fun place _ => extracted place, ?_⟩
  rw [List.map_map]
  rfl

theorem evaluate_text {texts : Place → Option String}
    (extracted : ∀ place, (extract name attributes filter place).result = .ok (texts place)) :
    ((leaf name paths false attributes filter).evaluate mode context).result =
      .ok (Value.ofText? ((selectAll paths context).head?.bind texts)) := by
  rw [evaluate]
  simp only [Bool.false_eq_true, if_false]
  cases (selectAll paths context).head? with
  | none => rfl
  | some place => exact Reported.map_ok_iff.mpr ⟨_, extracted place, rfl⟩

end Property

namespace Manifest

/-- What a leaf of a manifest takes from a node. Nothing is taken where its filter is unknown, or
where it lists attributes and the node has none of them; otherwise a text is, by filter and
attributes. A strict manifest knows all its filters, so that a null in what a leaf evaluates to
tells that a listed attribute is wanting. -/
theorem leaf_takes {descriptor : ManifestDescriptor} {manifest : Manifest}
    (accepted : ofDescriptor descriptor = .ok manifest) {location name : String}
    {paths : List Path} {multiple : Bool} {attributes : List ExpandedName}
    {filter : Option FilterRef}
    (listed : (location, Property.leaf name paths multiple attributes filter) ∈ manifest.outline) :
    (∀ place, ∃ text, (extract name attributes filter place).result = .ok text ∧
      (text = none ↔
        (∃ unknown, filter = some (.unknown unknown)) ∨
          (attributes ≠ [] ∧ Lacks attributes place)) ∧
      ∀ other, Takes attributes filter place other ↔ other = text) ∧
    (manifest.mode = .strict → ∀ context, ∃ value,
      ((Property.leaf name paths multiple attributes filter).evaluate .strict context).result =
        .ok value ∧
      (multiple = true → ∃ values, value = .list values ∧
        List.Forall₂ (fun place entry => entry = .null ↔
          attributes ≠ [] ∧ Lacks attributes place) (selectAll paths context) values) ∧
      (multiple = false → (value = .null ↔ ∀ place, (selectAll paths context).head? = some place →
        attributes ≠ [] ∧ Lacks attributes place))) := by
  obtain ⟨written, checks⟩ := checked_of_mem accepted listed
  have total : ∀ place, ∃ text, Takes attributes filter place text :=
    fun place => exists_takes attributes filter place checks.textual
  choose texts takes using total
  have extracted : ∀ place, (extract name attributes filter place).result = .ok (texts place) :=
    fun place => extract_of_takes (takes place) name
  have only : ∀ place other, Takes attributes filter place other ↔ other = texts place := by
    intro place other
    constructor
    · intro given
      have same := (extract_of_takes given name).symm.trans (extracted place)
      exact Except.ok.inj same
    · rintro rfl
      exact takes place
  have null : ∀ place, texts place = none ↔
      (∃ unknown, filter = some (.unknown unknown)) ∨
        (attributes ≠ [] ∧ Lacks attributes place) := by
    intro place
    rw [← takes_none_iff, only, eq_comm]
  refine ⟨fun place => ⟨texts place, extracted place, null place, only place⟩, ?_⟩
  intro strict context
  have known : ¬ ∃ unknown, filter = some (.unknown unknown) := by
    rintro ⟨unknown, same⟩
    exact checks.strict ((mode_eq accepted).symm.trans strict) unknown same
  simp only [known, false_or] at null
  cases multiple with
  | true =>
    refine ⟨_, Property.evaluate_texts extracted, fun _ => ⟨_, rfl, ?_⟩, by simp⟩
    rw [List.forall₂_map_right_iff, List.forall₂_same]
    intro place _
    rw [Property.ofText?_eq_null_iff, null]
  | false =>
    refine ⟨_, Property.evaluate_text extracted, by simp, fun _ => ?_⟩
    rw [Property.ofText?_eq_null_iff]
    cases (selectAll paths context).head? with
    | none => simp
    | some place => simp [null]

namespace Keyed

def number : ExpandedName := ⟨none, "n"⟩

def key : ExpandedName := ⟨none, "key"⟩

def written : PropertyDescriptor :=
  .mk (some ["."]) true (some ["n", "key"]) (some " truncate_100 ") none

def forms : PropertyDescriptor := .mk none true none none (some (.templates [[("ref", written)]]))

def descriptor : ManifestDescriptor :=
  ⟨"register", [("persons", ⟨"//p", [("forms", forms)], none⟩)], none, [], .strict⟩

def leaf : Property := .leaf "ref" [⟨".", .here⟩] true [number, key] (some (.known .truncate))

def idAttribute : ExpandedName := ⟨some Xml.xmlUri, "id"⟩

def persons : Entity :=
  ⟨"persons", ⟨"//p", .steps true [.anywhere, ⟨.child, .tag "p", []⟩]⟩, idAttribute,
    [.templates "forms" [[leaf]]]⟩

def manifest : Manifest := ⟨"register", [persons], idAttribute, [], .strict⟩

def person (attributes : List Xml.Attribute) : Place :=
  .inside (.document []) 1 (.element ⟨none, "p"⟩ attributes none [])

theorem accepted : ofDescriptor descriptor = .ok manifest := by rfl

theorem listed : ("entities.persons.properties.forms[0].properties.ref", leaf) ∈
    manifest.outline := .tail _ (.head _)

theorem leaf_takes_second :
    ofDescriptor descriptor = .ok manifest ∧
      ("entities.persons.properties.forms[0].properties.ref", leaf) ∈ manifest.outline ∧
      Takes [number, key] (some (.known .truncate)) (person [⟨key, ""⟩]) (some "") ∧
      (leaf.evaluate .strict (person [])).result = .ok (.list [.null]) ∧
      Lacks [number, key] (person []) := by
  obtain ⟨taken, nulls⟩ := leaf_takes accepted listed
  have second : Takes [number, key] (some (.known .truncate)) (person [⟨key, ""⟩]) (some "") := by
    obtain ⟨text, extracted, _, only⟩ := taken (person [⟨key, ""⟩])
    cases extracted
    exact (only _).mpr rfl
  obtain ⟨value, evaluated, entries, _⟩ := nulls rfl (person [])
  obtain ⟨_, rfl, each⟩ := entries rfl
  cases evaluated
  cases each with
  | cons first _ => exact ⟨accepted, listed, second, rfl, (first.mp rfl).2⟩

end Keyed

end Manifest

end Regesta
