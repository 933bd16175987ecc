import Regesta.Proofs.Manifest.Property
import Regesta.Proofs.Manifest.Refusal

namespace Regesta

open Xml (ExpandedName)

mutual
def PropertyDescriptor.outline (location : String) :
    PropertyDescriptor → List (String × PropertyDescriptor)
  | .mk paths multiple attributes filter none =>
    [(location, .mk paths multiple attributes filter none)]
  | .mk paths multiple attributes filter (some (.group set)) =>
    (location, .mk paths multiple attributes filter (some (.group set))) ::
      descriptorOutline location set
  | .mk paths multiple attributes filter (some (.templates sets)) =>
    (location, .mk paths multiple attributes filter (some (.templates sets))) ::
      templateDescriptorOutline location 0 sets

def descriptorOutline (location : String) :
    List (String × PropertyDescriptor) → List (String × PropertyDescriptor)
  | [] => []
  | (name, descriptor) :: rest =>
    descriptor.outline (propertyLocation location name) ++ descriptorOutline location rest

def templateDescriptorOutline (location : String) (index : Nat) :
    List (List (String × PropertyDescriptor)) → List (String × PropertyDescriptor)
  | [] => []
  | set :: rest =>
    descriptorOutline (templateLocation location index) set ++
      templateDescriptorOutline location (index + 1) rest
end

mutual
def Property.outline (location : String) : Property → List (String × Property)
  | .leaf name paths multiple attributes filter =>
    [(location, .leaf name paths multiple attributes filter)]
  | .group name paths multiple properties =>
    (location, .group name paths multiple properties) :: setOutline location properties
  | .templates name sets => (location, .templates name sets) :: templateOutline location 0 sets

def setOutline (location : String) : List Property → List (String × Property)
  | [] => []
  | property :: rest =>
    property.outline (propertyLocation location property.name) ++ setOutline location rest

def templateOutline (location : String) (index : Nat) :
    List (List Property) → List (String × Property)
  | [] => []
  | set :: rest =>
    setOutline (templateLocation location index) set ++ templateOutline location (index + 1) rest
end

def ManifestDescriptor.outline (descriptor : ManifestDescriptor) :
    List (String × PropertyDescriptor) :=
  descriptor.entities.flatMap fun entry =>
    descriptorOutline ("entities." ++ entry.1) entry.2.properties

def Manifest.outline (manifest : Manifest) : List (String × Property) :=
  manifest.entities.flatMap fun entity => setOutline ("entities." ++ entity.name) entity.properties

namespace Rules

variable {rules : Rules} {location name : String} {depth : Nat}

theorem propertySet_cons_ok_iff {descriptor : PropertyDescriptor} {rest : DescriptorSet}
    {properties : List Property} :
    (rules.propertySet location depth ((name, descriptor) :: rest)).result = .ok properties ↔
      ¬ IsBlankText name ∧ ∃ first others,
        (rules.property (propertyLocation location name) name depth descriptor).result = .ok first ∧
        (rules.propertySet location depth rest).result = .ok others ∧
        properties = first :: others := by
  rw [propertySet, IsBlankText]
  simp only [List.isEmpty_iff]
  split
  · next blank => simp [blank]
  · next filled =>
    simp only [Reported.bind_ok_iff, filled, not_false_eq_true, true_and]
    constructor
    · rintro ⟨first, checked, others, followed, same⟩
      exact ⟨first, others, checked, followed, (Except.ok.inj same).symm⟩
    · rintro ⟨first, others, checked, followed, rfl⟩
      exact ⟨first, checked, others, followed, rfl⟩

theorem templateSets_cons_ok_iff {index : Nat} {set : DescriptorSet} {rest : List DescriptorSet}
    {results : List (List Property)} :
    (rules.templateSets location depth index (set :: rest)).result = .ok results ↔
      depth ≤ maximalDepth ∧ ∃ first others,
        (rules.propertySet (templateLocation location index) depth set).result = .ok first ∧
        (rules.templateSets location depth (index + 1) rest).result = .ok others ∧
        results = first :: others := by
  rw [templateSets]
  simp only [Reported.bind_ok_iff]
  constructor
  · rintro ⟨_, deep, first, checked, others, followed, same⟩
    exact ⟨checkDepth_ok_iff.mp deep, first, others, checked, followed, (Except.ok.inj same).symm⟩
  · rintro ⟨deep, first, others, checked, followed, rfl⟩
    exact ⟨(), checkDepth_ok_iff.mpr deep, first, checked, others, followed, rfl⟩

structure Checks (rules : Rules) (written : String × PropertyDescriptor)
    (checked : String × Property) : Prop where
  location : checked.1 = written.1
  unknown : ∀ name, checked.2.filter = some (.unknown name) ↔
    written.2.filter = some name ∧ Filter.ofName? name = none
  strict : rules.mode = .strict → ∀ name, checked.2.filter ≠ some (.unknown name)
  textual : ∀ known, checked.2.filter = some (.known known) → checked.2.attributes ≠ [] →
    known.acceptsText = true

theorem filter_unknown_iff {text : Option String} {filter : Option FilterRef}
    (found : (rules.filter location text).result = .ok filter) (name : String) :
    filter = some (.unknown name) ↔ text = some name ∧ Filter.ofName? name = none := by
  cases text with
  | none =>
    cases found
    simp
  | some given =>
    rw [Rules.filter] at found
    split at found
    · next known looked =>
      cases found
      simp only [Option.some.injEq, reduceCtorEq, false_iff, not_and]
      rintro rfl
      simp [looked]
    · cases found
    · next looked _ =>
      cases found
      simp only [Option.some.injEq, FilterRef.unknown.injEq]
      constructor
      · rintro rfl
        exact ⟨rfl, looked⟩
      · exact And.left

theorem filter_strict {text : Option String} {filter : Option FilterRef}
    (found : (rules.filter location text).result = .ok filter) (strict : rules.mode = .strict)
    (name : String) : filter ≠ some (.unknown name) := by
  intro unknown
  obtain ⟨given, looked⟩ := (filter_unknown_iff found name).mp unknown
  obtain ⟨known, same⟩ := (filter_sound found).1 strict name given
  rw [looked] at same
  cases same

theorem Finishes.checks {pathTexts attributeTexts : Option (List String)} {paths : List Path}
    {multiple : Bool} {attributes : List ExpandedName} {filterText : Option String}
    {filter : Option FilterRef} {nested : Option (Nested (String × PropertyDescriptor))}
    {property : Property} (filterRead : (rules.filter location filterText).result = .ok filter)
    (finishes :
      rules.Finishes location name depth paths multiple attributes filter nested property) :
    rules.Checks (location, .mk pathTexts multiple attributeTexts filterText nested)
      (location, property) := by
  have unknown := filter_unknown_iff filterRead
  cases finishes with
  | leaf _ textual =>
    exact ⟨rfl, unknown, filter_strict filterRead, fun known given => textual known given⟩
  | group _ unfiltered =>
    subst unfiltered
    refine ⟨rfl, unknown, ?_, ?_⟩ <;> simp [Property.filter]
  | templates _ unfiltered =>
    subst unfiltered
    refine ⟨rfl, unknown, ?_, ?_⟩ <;> simp [Property.filter]

theorem property_named {descriptor : PropertyDescriptor} {property : Property}
    (accepted : (rules.property location name depth descriptor).result = .ok property) :
    property.name = name := by
  cases descriptor
  obtain ⟨_, _, _, _, _, _, finishes⟩ := property_ok_iff.mp accepted
  cases finishes <;> rfl

mutual
theorem property_outlined {location name : String} {depth : Nat} {descriptor : PropertyDescriptor}
    {property : Property}
    (accepted : (rules.property location name depth descriptor).result = .ok property) :
    List.Forall₂ rules.Checks (descriptor.outline location) (property.outline location) := by
  match descriptor with
  | .mk pathTexts multiple attributeTexts filterText nested =>
    obtain ⟨paths, attributes, filter, _, _, filterRead, finishes⟩ := property_ok_iff.mp accepted
    have here : rules.Checks (location, .mk pathTexts multiple attributeTexts filterText nested)
        (location, property) := finishes.checks filterRead
    match nested, finishes with
    | none, .leaf _ _ =>
      rw [PropertyDescriptor.outline, Property.outline]
      exact .cons here .nil
    | some (.group set), .group _ _ _ inside =>
      rw [PropertyDescriptor.outline, Property.outline]
      exact .cons here (propertySet_outlined inside)
    | some (.templates sets), .templates _ _ _ _ inside =>
      rw [PropertyDescriptor.outline, Property.outline]
      exact .cons here (templateSets_outlined inside)

theorem propertySet_outlined {location : String} {depth : Nat} {set : DescriptorSet}
    {properties : List Property}
    (accepted : (rules.propertySet location depth set).result = .ok properties) :
    List.Forall₂ rules.Checks (descriptorOutline location set)
      (setOutline location properties) := by
  match set with
  | [] =>
    rw [propertySet] at accepted
    cases accepted
    rw [descriptorOutline, setOutline]
    exact .nil
  | (name, descriptor) :: rest =>
    obtain ⟨_, first, others, checked, followed, rfl⟩ := propertySet_cons_ok_iff.mp accepted
    rw [descriptorOutline, setOutline, property_named checked]
    exact List.rel_append (property_outlined checked) (propertySet_outlined followed)

theorem templateSets_outlined {location : String} {depth index : Nat} {sets : List DescriptorSet}
    {results : List (List Property)}
    (accepted : (rules.templateSets location depth index sets).result = .ok results) :
    List.Forall₂ rules.Checks (templateDescriptorOutline location index sets)
      (templateOutline location index results) := by
  match sets with
  | [] =>
    rw [templateSets] at accepted
    cases accepted
    rw [templateDescriptorOutline, templateOutline]
    exact .nil
  | set :: rest =>
    obtain ⟨_, first, others, checked, followed, rfl⟩ := templateSets_cons_ok_iff.mp accepted
    rw [templateDescriptorOutline, templateOutline]
    exact List.rel_append (propertySet_outlined checked) (templateSets_outlined followed)
end

theorem entities_outlined {standard : ExpandedName}
    {descriptors : List (String × EntityDescriptor)} {entities : List Entity}
    (accepted : (rules.entities standard descriptors).result = .ok entities) :
    List.Forall₂ rules.Checks
      (descriptors.flatMap fun entry =>
        descriptorOutline ("entities." ++ entry.1) entry.2.properties)
      (entities.flatMap fun entity =>
        setOutline ("entities." ++ entity.name) entity.properties) := by
  induction descriptors generalizing entities with
  | nil =>
    cases accepted
    exact .nil
  | cons entry rest ih =>
    obtain ⟨name, descriptor⟩ := entry
    rw [Rules.entities] at accepted
    simp only [Reported.bind_ok_iff] at accepted
    obtain ⟨_, _, first, checked, others, followed, same⟩ := accepted
    cases same
    rw [entity] at checked
    simp only [Reported.bind_ok_iff] at checked
    obtain ⟨_, _, _, _, _, _, properties, inside, same⟩ := checked
    cases same
    exact List.rel_append (propertySet_outlined inside) (ih followed)

end Rules

namespace Manifest

theorem ofDescriptor_ok_iff {descriptor : ManifestDescriptor} {manifest : Manifest} :
    ofDescriptor descriptor = .ok manifest ↔
      ¬ IsBlankText descriptor.collection ∧ descriptor.entities ≠ [] ∧
      ∃ standard entities,
        descriptor.rules.namespaces.name
          (descriptor.defaultIdAttribute.getD standardIdAttribute) = .ok standard ∧
        (descriptor.rules.entities standard descriptor.entities).result = .ok entities ∧
        manifest = ⟨descriptor.collection, entities, standard, descriptor.namespaces,
          descriptor.mode⟩ := by
  unfold ofDescriptor validate
  by_cases blank : IsBlankText descriptor.collection
  · simp [List.isEmpty_iff.mpr blank, blank]
  rw [if_neg (mt List.isEmpty_iff.mp blank)]
  by_cases empty : descriptor.entities = []
  · simp [empty]
  rw [if_neg (mt List.isEmpty_iff.mp empty)]
  simp only [Reported.bind_ok_iff, Reported.ofExcept_result, blank, empty, ne_eq,
    not_false_eq_true, true_and]
  constructor
  · rintro ⟨standard, named, entities, checked, same⟩
    exact ⟨standard, entities, named, checked, (Except.ok.inj same).symm⟩
  · rintro ⟨standard, entities, named, checked, rfl⟩
    exact ⟨standard, named, entities, checked, rfl⟩

variable {descriptor : ManifestDescriptor} {manifest : Manifest}

theorem mode_eq (accepted : ofDescriptor descriptor = .ok manifest) :
    manifest.mode = descriptor.mode := by
  obtain ⟨_, _, _, _, _, _, rfl⟩ := ofDescriptor_ok_iff.mp accepted
  rfl

theorem outlined (accepted : ofDescriptor descriptor = .ok manifest) :
    List.Forall₂ descriptor.rules.Checks descriptor.outline manifest.outline := by
  obtain ⟨_, _, _, _, _, checked, rfl⟩ := ofDescriptor_ok_iff.mp accepted
  exact Rules.entities_outlined checked

theorem checked_of_mem (accepted : ofDescriptor descriptor = .ok manifest)
    {entry : String × Property} (listed : entry ∈ manifest.outline) :
    ∃ written, descriptor.rules.Checks written entry := by
  obtain ⟨index, bound, rfl⟩ := List.mem_iff_getElem.mp listed
  have outlined := outlined accepted
  have inner : index < descriptor.outline.length := by rwa [outlined.length_eq]
  exact ⟨descriptor.outline[index], outlined.get inner bound⟩

end Manifest

end Regesta
