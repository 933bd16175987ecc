import Regesta.Proofs.Manifest.Property
import Regesta.Proofs.Manifest.Refusal

namespace Regesta

namespace Rules

variable {rules : Rules} {location : String}

theorem within_deepen {depth level : Nat} {outer inner set : DescriptorSet} {name : String}
    {descriptor : PropertyDescriptor} (member : (name, descriptor) ∈ outer)
    (nests : descriptor.Nests inner) (within : SetWithin (depth + 1) inner level set) :
    SetWithin depth outer level set := by
  induction within with
  | here => exact .inside .here member nests
  | inside _ deeper further ih => exact .inside ih deeper further

theorem within_cases {depth level : Nat} {outer set : DescriptorSet}
    (within : SetWithin depth outer level set) :
    (level = depth ∧ set = outer) ∨
      ∃ name descriptor inner, (name, descriptor) ∈ outer ∧ descriptor.Nests inner ∧
        SetWithin (depth + 1) inner level set := by
  induction within with
  | here => exact .inl ⟨rfl, rfl⟩
  | inside _ deeper further ih =>
    rcases ih with ⟨rfl, rfl⟩ | ⟨name, descriptor, inner, member, nests, between⟩
    · exact .inr ⟨_, _, _, deeper, further, .here⟩
    · exact .inr ⟨name, descriptor, inner, member, nests, between.inside deeper further⟩

def AllowsBelow (rules : Rules) (depth : Nat) (descriptor : PropertyDescriptor) : Prop :=
  rules.Allows descriptor ∧ ∀ inner, descriptor.Nests inner → rules.Obeyed (depth + 1) inner

theorem obeyed_iff {depth : Nat} {set : DescriptorSet} :
    rules.Obeyed depth set ↔
      depth ≤ maximalDepth ∧ ∀ name descriptor, (name, descriptor) ∈ set →
        ¬ IsBlankText name ∧ rules.AllowsBelow depth descriptor := by
  constructor
  · intro obeyed
    obtain ⟨deep, allows⟩ := obeyed depth set .here
    refine ⟨deep, ?_⟩
    intro name descriptor member
    obtain ⟨filled, own⟩ := allows name descriptor member
    refine ⟨filled, own, ?_⟩
    intro inner nests level other within
    exact obeyed level other (within_deepen member nests within)
  · intro ⟨deep, allows⟩ level other within
    rcases within_cases within with ⟨rfl, rfl⟩ | ⟨name, descriptor, inner, member, nests, between⟩
    · refine ⟨deep, ?_⟩
      intro name descriptor member
      exact ⟨(allows name descriptor member).1, (allows name descriptor member).2.1⟩
    · exact (allows name descriptor member).2.2 inner nests level other between

theorem forall_entry_cons {α : Type} {holds : String → α → Prop} {name : String} {item : α}
    {rest : List (String × α)} :
    (∀ other value, (other, value) ∈ (name, item) :: rest → holds other value) ↔
      holds name item ∧ ∀ other value, (other, value) ∈ rest → holds other value := by
  constructor
  · intro each
    exact ⟨each _ _ List.mem_cons_self,
      fun other value member => each other value (List.mem_cons_of_mem _ member)⟩
  · intro ⟨first, others⟩ other value member
    rcases List.mem_cons.mp member with same | member
    · cases same
      exact first
    · exact others other value member

theorem propertySet_cons {depth : Nat} {name : String} {descriptor : PropertyDescriptor}
    {rest : DescriptorSet} :
    (∃ properties,
        (rules.propertySet location depth ((name, descriptor) :: rest)).result = .ok properties) ↔
      (¬ IsBlankText name ∧
        ∃ property, (rules.property (propertyLocation location name) name depth
          descriptor).result = .ok property) ∧
      ∃ properties, (rules.propertySet location depth rest).result = .ok properties := by
  rw [propertySet]
  simp only [IsBlankText, List.isEmpty_iff]
  split
  · next blank => simp [blank]
  · next filled =>
    simp only [Reported.bind_result, bind_succeeds_iff, filled]
    simp

theorem templateSets_cons {depth index : Nat} {set : DescriptorSet} {rest : List DescriptorSet} :
    (∃ results, (rules.templateSets location depth index (set :: rest)).result = .ok results) ↔
      (depth ≤ maximalDepth ∧
        ∃ properties, (rules.propertySet (templateLocation location index) depth set).result =
          .ok properties) ∧
      ∃ results, (rules.templateSets location depth (index + 1) rest).result = .ok results := by
  rw [templateSets]
  simp only [Reported.bind_result, Reported.ofExcept_result, bind_succeeds_iff]
  constructor
  · intro ⟨_, deep, properties, first, results, others, _⟩
    exact ⟨⟨checkDepth_ok_iff.mp deep, properties, first⟩, results, others⟩
  · intro ⟨⟨deep, properties, first⟩, results, others⟩
    exact ⟨(), checkDepth_ok_iff.mpr deep, properties, first, results, others, _, rfl⟩

mutual
theorem property_accepted (location name : String) (depth : Nat)
    (descriptor : PropertyDescriptor) :
    (∃ property, (rules.property location name depth descriptor).result = .ok property) ↔
      rules.AllowsBelow depth descriptor := by
  rw [property_succeeds_iff, AllowsBelow]
  match descriptor with
  | .mk _ _ _ _ none => simp [PropertyDescriptor.Nests, PropertyDescriptor.nested, NestedSucceeds]
  | .mk _ _ _ _ (some (.group set)) =>
    have inside := propertySet_accepted location (depth + 1) set
    simp only [PropertyDescriptor.Nests, PropertyDescriptor.nested, NestedSucceeds, inside]
    rw [← obeyed_iff]
    simp
  | .mk _ _ _ _ (some (.templates sets)) =>
    have inside := templateSets_accepted location (depth + 1) 0 sets
    simp [PropertyDescriptor.Nests, PropertyDescriptor.nested, NestedSucceeds, inside]

theorem propertySet_accepted (location : String) (depth : Nat) (set : DescriptorSet) :
    (∃ properties, (rules.propertySet location depth set).result = .ok properties) ↔
      ∀ name descriptor, (name, descriptor) ∈ set →
        ¬ IsBlankText name ∧ rules.AllowsBelow depth descriptor := by
  match set with
  | [] => simp [propertySet]
  | (name, descriptor) :: rest =>
    rw [propertySet_cons, property_accepted, propertySet_accepted, forall_entry_cons]

theorem templateSets_accepted (location : String) (depth index : Nat)
    (sets : List DescriptorSet) :
    (∃ results, (rules.templateSets location depth index sets).result = .ok results) ↔
      ∀ set ∈ sets, rules.Obeyed depth set := by
  match sets with
  | [] => simp [templateSets]
  | set :: rest =>
    rw [templateSets_cons, propertySet_accepted, templateSets_accepted, ← obeyed_iff,
      List.forall_mem_cons]
end

theorem obeyed_accepted (location : String) (depth : Nat) (set : DescriptorSet) :
    (checkDepth location depth = .ok () ∧
        ∃ properties, (rules.propertySet location depth set).result = .ok properties) ↔
      rules.Obeyed depth set := by
  rw [checkDepth_ok_iff, propertySet_accepted, obeyed_iff]

theorem isEntityName_iff (name : String) :
    isEntityName name = true ↔
      ∃ c rest, name.toList = c :: rest ∧ c.isAlphanum = true ∧
        ∀ d ∈ rest, d.isAlphanum = true ∨ d = '-' ∨ d = '_' := by
  unfold isEntityName
  cases name.toList with
  | nil => simp
  | cons c rest => simp [List.all_eq_true, or_assoc]

theorem identifier_succeeds_iff (rules : Rules) (standard : Xml.ExpandedName)
    (text : Option String) :
    (∃ name, rules.identifier standard text = .ok name) ↔
      ∀ written, text = some written → rules.Names written := by
  cases text <;> simp [identifier, Names]

theorem entity_succeeds_iff (standard : Xml.ExpandedName) (name : String)
    (descriptor : EntityDescriptor) :
    (checkEntityName name = .ok () ∧
        ∃ entity, (rules.entity standard name descriptor).result = .ok entity) ↔
      rules.AllowsEntity name descriptor := by
  have named : checkEntityName name = .ok () ↔ isEntityName name = true := by
    unfold checkEntityName
    split <;> simp_all
  have identified := identifier_succeeds_iff rules standard descriptor.idAttribute
  rw [named, isEntityName_iff, entity]
  simp only [Reported.bind_result, Reported.ofExcept_result, bind_succeeds_iff]
  constructor
  · rintro ⟨word, root, rootFound, found, idFound, _, deep, properties, inside, _⟩
    exact ⟨word, ⟨root, rootFound⟩, identified.mp ⟨found, idFound⟩,
      (obeyed_accepted _ 1 _).mp ⟨deep, properties, inside⟩⟩
  · rintro ⟨word, ⟨root, rootFound⟩, allowed, obeyed⟩
    obtain ⟨found, idFound⟩ := identified.mpr allowed
    obtain ⟨deep, properties, inside⟩ := (obeyed_accepted ("entities." ++ name) 1 _).mpr obeyed
    exact ⟨word, root, rootFound, found, idFound, (), deep, properties, inside, _, rfl⟩

theorem entities_succeed_iff {standard : Xml.ExpandedName}
    {descriptors : List (String × EntityDescriptor)} :
    (∃ entities, (rules.entities standard descriptors).result = .ok entities) ↔
      ∀ name descriptor, (name, descriptor) ∈ descriptors → rules.AllowsEntity name descriptor := by
  induction descriptors with
  | nil => simp [entities]
  | cons entry rest ih =>
    obtain ⟨name, descriptor⟩ := entry
    rw [forall_entry_cons, ← ih, ← entity_succeeds_iff standard, entities]
    simp only [Reported.bind_result, Reported.ofExcept_result, bind_succeeds_iff]
    constructor
    · rintro ⟨_, word, first, firstFound, others, othersFound, _⟩
      exact ⟨⟨word, first, firstFound⟩, others, othersFound⟩
    · rintro ⟨⟨word, first, firstFound⟩, others, othersFound⟩
      exact ⟨(), word, first, firstFound, others, othersFound, _, rfl⟩

end Rules

namespace Manifest

theorem ofDescriptor_succeeds_iff (descriptor : ManifestDescriptor) :
    (∃ manifest, ofDescriptor descriptor = .ok manifest) ↔ descriptor.Obeys := by
  unfold ofDescriptor validate
  by_cases blank : IsBlankText descriptor.collection
  · rw [if_pos (List.isEmpty_iff.mpr blank)]
    constructor
    · intro ⟨_, refused⟩
      cases refused
    · intro obeys
      exact absurd blank obeys.collection
  rw [if_neg (mt List.isEmpty_iff.mp blank)]
  by_cases empty : descriptor.entities = []
  · rw [if_pos (List.isEmpty_iff.mpr empty)]
    constructor
    · intro ⟨_, refused⟩
      cases refused
    · intro obeys
      exact absurd empty obeys.filled
  rw [if_neg (mt List.isEmpty_iff.mp empty)]
  simp only [Reported.bind_result, Reported.ofExcept_result, bind_succeeds_iff]
  constructor
  · intro ⟨standard, named, entities, found, _⟩
    exact ⟨blank, empty, ⟨standard, named⟩, Rules.entities_succeed_iff.mp ⟨entities, found⟩⟩
  · intro obeys
    obtain ⟨standard, named⟩ := obeys.standard
    obtain ⟨entities, found⟩ := Rules.entities_succeed_iff.mpr obeys.entities
    exact ⟨standard, named, entities, found, _, rfl⟩

/-- A manifest is accepted just when it keeps the rules, and refused as a problem of the manifest
just when it breaks one. -/
theorem ofDescriptor_accepts (descriptor : ManifestDescriptor) :
    ((∃ manifest, ofDescriptor descriptor = .ok manifest) ↔ descriptor.Obeys) ∧
      ((∃ error, ofDescriptor descriptor = .error error ∧ error.isConfiguration = true) ↔
        ¬ descriptor.Obeys) := by
  have accepted := ofDescriptor_succeeds_iff descriptor
  refine ⟨accepted, ?_⟩
  rw [← accepted]
  cases outcome : ofDescriptor descriptor with
  | ok manifest => simp
  | error error =>
    have known := ofDescriptor_configures descriptor error outcome
    simp [known]

end Manifest

end Regesta
