import Regesta.Proofs.Manifest.Decoding
import Regesta.Proofs.Manifest.Outline

namespace Regesta

/-- No set in a property has two properties of one name, however deep it is nested. -/
inductive PropertyDescriptor.Apart : PropertyDescriptor → Prop where
  | intro {descriptor : PropertyDescriptor}
    (names : ∀ set, descriptor.Nests set → (set.map Prod.fst).Nodup)
    (inner : ∀ set, descriptor.Nests set → ∀ entry ∈ set, Apart entry.2) : Apart descriptor

structure DescriptorSet.Apart (set : DescriptorSet) : Prop where
  names : (set.map Prod.fst).Nodup
  inner : ∀ entry ∈ set, entry.2.Apart

def Nested.Apart : Nested (String × PropertyDescriptor) → Prop
  | .group set => DescriptorSet.Apart set
  | .templates sets => ∀ set ∈ sets, DescriptorSet.Apart set

def Property.Nests : Property → List Property → Prop
  | .leaf .., _ => False
  | .group _ _ _ properties, set => set = properties
  | .templates _ sets, set => set ∈ sets

inductive Property.Apart : Property → Prop where
  | intro {property : Property}
    (names : ∀ set, property.Nests set → (set.map name).Nodup)
    (inner : ∀ set, property.Nests set → ∀ other ∈ set, Apart other) : Apart property

structure SetApart (properties : List Property) : Prop where
  names : (properties.map Property.name).Nodup
  inner : ∀ property ∈ properties, property.Apart

theorem PropertyDescriptor.apart_of_nested {paths attributes : Option (List String)}
    {multiple : Bool} {filter : Option String}
    {nested : Option (Nested (String × PropertyDescriptor))}
    (apart : ∀ inner, nested = some inner → inner.Apart) :
    (PropertyDescriptor.mk paths multiple attributes filter nested).Apart := by
  have each : ∀ set, (PropertyDescriptor.mk paths multiple attributes filter nested).Nests set →
      DescriptorSet.Apart set := by
    rintro set (same | ⟨sets, same, member⟩)
    · exact apart _ same
    · exact apart _ same set member
  exact .intro (fun set nests => (each set nests).names) fun set nests => (each set nests).inner

theorem PropertyDescriptor.Apart.nested {descriptor : PropertyDescriptor} {set : DescriptorSet}
    (apart : descriptor.Apart) (nests : descriptor.Nests set) : DescriptorSet.Apart set := by
  cases apart with
  | intro names inner => exact ⟨names set nests, inner set nests⟩

theorem Property.Apart.nested {property : Property} {set : List Property}
    (apart : property.Apart) (nests : property.Nests set) : SetApart set := by
  cases apart with
  | intro names inner => exact ⟨names set nests, inner set nests⟩

theorem Property.apart_of_nested {property : Property}
    (apart : ∀ set, property.Nests set → SetApart set) : property.Apart :=
  .intro (fun set nests => (apart set nests).names) fun set nests => (apart set nests).inner

namespace Decode

open Yaml (Tree)

theorem mem_setEntry {α : Type} {key : String} {value : α} {entries : List (String × α)}
    {entry : String × α} (member : entry ∈ setEntry key value entries) :
    entry = (key, value) ∨ entry ∈ entries := by
  induction entries with
  | nil => exact .inl (List.mem_singleton.mp member)
  | cons first rest ih =>
    rw [setEntry] at member
    split at member
    · exact (List.mem_cons.mp member).imp_right (List.mem_cons_of_mem first)
    · rcases List.mem_cons.mp member with same | later
      · exact .inr (same ▸ List.mem_cons_self)
      · exact (ih later).imp_right (List.mem_cons_of_mem first)

theorem setEntry_nodup {α : Type} {key : String} {value : α} {entries : List (String × α)}
    (apart : (entries.map Prod.fst).Nodup) :
    ((setEntry key value entries).map Prod.fst).Nodup := by
  induction entries with
  | nil => simp [setEntry]
  | cons first rest ih =>
    obtain ⟨fresh, others⟩ := List.nodup_cons.mp apart
    rw [setEntry]
    split
    · next same =>
      rw [beq_iff_eq] at same
      subst same
      exact apart
    · next differ =>
      refine List.nodup_cons.mpr ⟨?_, ih others⟩
      intro present
      obtain ⟨entry, member, same⟩ := List.mem_map.mp present
      rcases mem_setEntry member with rfl | inside
      · exact differ (beq_iff_eq.mpr same.symm)
      · exact fresh (same ▸ List.mem_map_of_mem inside)

theorem setEntry_apart {key : String} {descriptor : PropertyDescriptor} {set : DescriptorSet}
    (apart : DescriptorSet.Apart set) (inner : descriptor.Apart) :
    DescriptorSet.Apart (setEntry key descriptor set) := by
  refine ⟨setEntry_nodup apart.names, ?_⟩
  intro entry member
  rcases mem_setEntry member with rfl | inside
  · exact inner
  · exact apart.inner entry inside

theorem nil_apart : DescriptorSet.Apart [] := ⟨List.nodup_nil, by simp⟩

theorem optional_ok_some {α : Type} {decode : Tree → Decoded α} {tree : Tree} {value : α}
    (decoded : optional decode tree = .ok (some value)) : decode tree = .ok value := by
  obtain ⟨leftOut, _, decoded⟩ := bind_ok_iff.mp decoded
  cases leftOut with
  | true => cases decoded
  | false =>
    obtain ⟨_, found, same⟩ := map_ok_iff.mp decoded
    cases same
    exact found

def FieldsApart (fields : PropertyFields) : Prop :=
  ∀ nested, fields.nested = some (some nested) → nested.Apart

theorem close_apart {fields : PropertyFields} (apart : FieldsApart fields) :
    fields.close.Apart := by
  apply PropertyDescriptor.apart_of_nested
  intro nested found
  exact apart nested (Option.join_eq_some_iff.mp found)

theorem blank_apart : FieldsApart .none := fun _ none => by cases none

mutual
theorem property_apart {descriptor : PropertyDescriptor} (tree : Tree)
    (decoded : property tree = .ok descriptor) : descriptor.Apart := by
  match tree with
  | .mapping _ entries =>
    obtain ⟨fields, worked, rfl⟩ := map_ok_iff.mp decoded
    exact close_apart (propertyFields_apart entries blank_apart worked)
  | .void =>
    cases decoded
    exact close_apart blank_apart
  | .scalar .. =>
    rw [property] at decoded
    split at decoded
    · cases decoded
      exact close_apart blank_apart
    · cases decoded
  | .sequence .. => cases decoded
  | .fault => cases decoded

theorem propertyFields_apart (entries : List MapEntry) {fields last : PropertyFields}
    (apart : FieldsApart fields) (decoded : propertyFields entries fields = .ok last) :
    FieldsApart last := by
  match entries with
  | [] =>
    rw [propertyFields] at decoded
    cases decoded
    exact apart
  | (name, key, value) :: rest =>
    rw [propertyFields_cons] at decoded
    obtain ⟨between, worked, later⟩ := bind_ok_iff.mp decoded
    refine propertyFields_apart rest ?_ later
    obtain ⟨found, _, worked⟩ := bind_ok_iff.mp worked
    cases found with
    | nested =>
      obtain ⟨filled, done, same⟩ := bind_ok_iff.mp worked
      obtain ⟨_, inner, given, rfl⟩ := fill_ok_iff.mp done
      cases same
      intro nested same
      cases same
      exact nested_apart value (under_ok_iff.mp (optional_ok_some given))
    | _ =>
      -- The other fields hold no names that could be repeated.
      obtain ⟨_, _, same⟩ := bind_ok_iff.mp worked
      cases same
      exact apart

theorem nested_apart {inner : Nested (String × PropertyDescriptor)} (tree : Tree)
    (decoded : nested tree = .ok inner) : inner.Apart := by
  match tree with
  | .mapping tag entries =>
    rw [nested] at decoded
    split at decoded
    · cases decoded
    · obtain ⟨set, worked, rfl⟩ := map_ok_iff.mp decoded
      exact properties_apart entries nil_apart worked
  | .sequence tag items =>
    rw [nested] at decoded
    split at decoded
    · cases decoded
    · obtain ⟨sets, worked, rfl⟩ := map_ok_iff.mp decoded
      exact templates_apart items worked
  | .scalar .. =>
    rw [nested] at decoded
    split at decoded <;> cases decoded
  | .void => cases decoded
  | .fault => cases decoded

theorem properties_apart (entries : List MapEntry) {set last : DescriptorSet}
    (apart : DescriptorSet.Apart set) (decoded : properties entries set = .ok last) :
    DescriptorSet.Apart last := by
  match entries with
  | [] =>
    rw [properties] at decoded
    cases decoded
    exact apart
  | (name, key, value) :: rest =>
    rw [properties] at decoded
    simp only [bind_ok_iff, under_ok_iff] at decoded
    obtain ⟨spelling, _, descriptor, found, later⟩ := decoded
    exact properties_apart rest (setEntry_apart apart (property_apart value found)) later

theorem templates_apart (items : List Tree) {index : Nat} {sets : List DescriptorSet}
    (decoded : templates index items = .ok sets) : ∀ set ∈ sets, DescriptorSet.Apart set := by
  match items with
  | [] =>
    rw [templates] at decoded
    cases decoded
    exact List.forall_mem_nil _
  | item :: rest =>
    rw [templates] at decoded
    simp only [bind_ok_iff, under_ok_iff] at decoded
    obtain ⟨first, found, others, later, same⟩ := decoded
    cases same
    exact List.forall_mem_cons.mpr ⟨template_apart item found, templates_apart rest later⟩

theorem template_apart {set : DescriptorSet} (tree : Tree) (decoded : template tree = .ok set) :
    DescriptorSet.Apart set := by
  match tree with
  | .mapping _ entries => exact properties_apart entries nil_apart decoded
  | .void =>
    cases decoded
    exact nil_apart
  | .scalar .. =>
    rw [template] at decoded
    split at decoded
    · cases decoded
      exact nil_apart
    · cases decoded
  | .sequence .. => cases decoded
  | .fault => cases decoded
end

theorem entityFields_apart {entry : MapEntry} {fields next : EntityFields}
    (apart : ∀ set, fields.properties = some set → DescriptorSet.Apart set)
    (decoded : entityFields [entry] fields = .ok next) :
    ∀ set, next.properties = some set → DescriptorSet.Apart set := by
  obtain ⟨name, key, value⟩ := entry
  rw [entityFields] at decoded
  obtain ⟨spelling, _, decoded⟩ := bind_ok_iff.mp decoded
  split at decoded
  case h_3 =>
    obtain ⟨filled, done, same⟩ := bind_ok_iff.mp decoded
    obtain ⟨_, found, given, rfl⟩ := fill_ok_iff.mp done
    cases same
    obtain ⟨entries, _, worked⟩ := bind_ok_iff.mp (under_ok_iff.mp given)
    intro set same
    cases same
    exact properties_apart entries nil_apart worked
  case h_6 => cases decoded
  all_goals
    obtain ⟨_, _, same⟩ := bind_ok_iff.mp decoded
    cases same
    exact apart

theorem entity_apart {tree : Tree} {descriptor : EntityDescriptor}
    (decoded : entity tree = .ok descriptor) : DescriptorSet.Apart descriptor.properties := by
  obtain ⟨entries, _, decoded⟩ := bind_ok_iff.mp decoded
  obtain ⟨fields, worked, decoded⟩ := bind_ok_iff.mp decoded
  have apart := entityFields_accumulates.preserves (fun _ _ _ => entityFields_apart)
    (fun set none => by cases none) worked
  split at decoded
  · cases decoded
  · cases decoded
    cases given : fields.properties with
    | none => exact nil_apart
    | some set => exact apart set given

theorem entities_apart {entry : MapEntry} {set next : List (String × EntityDescriptor)}
    (apart : ∀ entity ∈ set, DescriptorSet.Apart entity.2.properties)
    (decoded : entities [entry] set = .ok next) :
    ∀ entity ∈ next, DescriptorSet.Apart entity.2.properties := by
  obtain ⟨name, key, value⟩ := entry
  rw [entities] at decoded
  simp only [bind_ok_iff, under_ok_iff] at decoded
  obtain ⟨spelling, _, descriptor, found, same⟩ := decoded
  cases same
  intro entity member
  rcases mem_setEntry member with rfl | inside
  · exact entity_apart found
  · exact apart entity inside

theorem manifestFields_apart {entry : MapEntry} {fields next : ManifestFields}
    (apart : ∀ set, fields.entities = some set →
      ∀ entity ∈ set, DescriptorSet.Apart entity.2.properties)
    (decoded : manifestFields [entry] fields = .ok next) :
    ∀ set, next.entities = some set → ∀ entity ∈ set, DescriptorSet.Apart entity.2.properties := by
  obtain ⟨name, key, value⟩ := entry
  rw [manifestFields] at decoded
  obtain ⟨spelling, _, decoded⟩ := bind_ok_iff.mp decoded
  split at decoded
  case h_2 =>
    obtain ⟨filled, done, same⟩ := bind_ok_iff.mp decoded
    obtain ⟨_, found, given, rfl⟩ := fill_ok_iff.mp done
    cases same
    obtain ⟨entries, _, worked⟩ := bind_ok_iff.mp (under_ok_iff.mp given)
    intro set same
    cases same
    exact entities_accumulates.preserves (fun _ _ _ => entities_apart)
      (List.forall_mem_nil _) worked
  all_goals
    obtain ⟨_, _, same⟩ := bind_ok_iff.mp decoded
    cases same
    exact apart

theorem manifest_apart {tree : Tree} {descriptor : ManifestDescriptor}
    (decoded : manifest tree = .ok descriptor) :
    ∀ entity ∈ descriptor.entities, DescriptorSet.Apart entity.2.properties := by
  obtain ⟨entries, _, decoded⟩ := bind_ok_iff.mp decoded
  obtain ⟨fields, worked, decoded⟩ := bind_ok_iff.mp decoded
  have apart := manifestFields_accumulates.preserves (fun _ _ _ => manifestFields_apart)
    (fun set none => by cases none) worked
  split at decoded
  · cases decoded
  · cases decoded
  · next given =>
    cases decoded
    exact apart _ given

end Decode

namespace Rules

variable {rules : Rules}

theorem propertySet_names {location : String} {depth : Nat} {set : DescriptorSet}
    {properties : List Property}
    (accepted : (rules.propertySet location depth set).result = .ok properties) :
    properties.map Property.name = set.map Prod.fst := by
  induction set generalizing properties with
  | nil =>
    rw [propertySet] at accepted
    cases accepted
    rfl
  | cons entry rest ih =>
    obtain ⟨_, first, others, checked, followed, rfl⟩ := propertySet_cons_ok_iff.mp accepted
    rw [List.map_cons, List.map_cons, property_named checked, ih followed]

mutual
theorem property_apart {location name : String} {depth : Nat} {descriptor : PropertyDescriptor}
    {property : Property}
    (accepted : (rules.property location name depth descriptor).result = .ok property)
    (apart : descriptor.Apart) : property.Apart := by
  match descriptor with
  | .mk _ _ _ _ nested =>
    obtain ⟨_, _, _, _, _, _, finishes⟩ := property_ok_iff.mp accepted
    apply Property.apart_of_nested
    match nested, finishes with
    | none, .leaf _ _ => exact fun set nests => nests.elim
    | some (.group set), .group _ _ _ inside =>
      rintro _ rfl
      have inner := apart.nested (.inl rfl)
      exact ⟨propertySet_names inside ▸ inner.names, propertySet_apart inside inner.inner⟩
    | some (.templates sets), .templates _ _ _ _ inside =>
      exact templateSets_apart inside fun set member => apart.nested (.inr ⟨sets, rfl, member⟩)

theorem propertySet_apart {location : String} {depth : Nat} {set : DescriptorSet}
    {properties : List Property}
    (accepted : (rules.propertySet location depth set).result = .ok properties)
    (apart : ∀ entry ∈ set, entry.2.Apart) : ∀ property ∈ properties, property.Apart := by
  match set with
  | [] =>
    rw [propertySet] at accepted
    cases accepted
    exact List.forall_mem_nil _
  | (name, descriptor) :: rest =>
    obtain ⟨_, first, others, checked, followed, rfl⟩ := propertySet_cons_ok_iff.mp accepted
    obtain ⟨here, later⟩ := List.forall_mem_cons.mp apart
    exact List.forall_mem_cons.mpr
      ⟨property_apart checked here, propertySet_apart followed later⟩

theorem templateSets_apart {location : String} {depth index : Nat} {sets : List DescriptorSet}
    {results : List (List Property)}
    (accepted : (rules.templateSets location depth index sets).result = .ok results)
    (apart : ∀ set ∈ sets, DescriptorSet.Apart set) : ∀ set ∈ results, SetApart set := by
  match sets with
  | [] =>
    rw [templateSets] at accepted
    cases accepted
    exact List.forall_mem_nil _
  | set :: rest =>
    obtain ⟨_, first, others, checked, followed, rfl⟩ := templateSets_cons_ok_iff.mp accepted
    obtain ⟨here, later⟩ := List.forall_mem_cons.mp apart
    exact List.forall_mem_cons.mpr
      ⟨⟨propertySet_names checked ▸ here.names, propertySet_apart checked here.inner⟩,
        templateSets_apart followed later⟩
end

theorem entities_apart {standard : Xml.ExpandedName}
    {descriptors : List (String × EntityDescriptor)} {entities : List Entity}
    (accepted : (rules.entities standard descriptors).result = .ok entities)
    (apart : ∀ entity ∈ descriptors, DescriptorSet.Apart entity.2.properties) :
    ∀ entity ∈ entities, SetApart entity.properties := by
  induction descriptors generalizing entities with
  | nil =>
    cases accepted
    exact List.forall_mem_nil _
  | cons entry rest ih =>
    obtain ⟨here, later⟩ := List.forall_mem_cons.mp apart
    rw [Rules.entities] at accepted
    simp only [Reported.bind_ok_iff] at accepted
    obtain ⟨_, _, first, checked, others, followed, same⟩ := accepted
    cases same
    rw [entity] at checked
    simp only [Reported.bind_ok_iff] at checked
    obtain ⟨_, _, _, _, _, _, properties, inside, same⟩ := checked
    cases same
    exact List.forall_mem_cons.mpr
      ⟨⟨propertySet_names inside ▸ here.names, propertySet_apart inside here.inner⟩,
        ih followed later⟩

end Rules

/-- Whatever a manifest is read from, no set in it has two properties of one name. -/
theorem Manifest.load_apart {source : String} {manifest : Manifest}
    (loaded : (load source).result = .ok manifest) :
    ∀ entity ∈ manifest.entities, SetApart entity.properties := by
  obtain ⟨descriptor, decoded, accepted⟩ := Reported.bind_ok_iff.mp loaded
  obtain ⟨_, _, _, entities, _, checked, rfl⟩ := ofDescriptor_ok_iff.mp accepted
  apply Rules.entities_apart checked
  have read : ManifestDescriptor.ofYaml source = .ok descriptor := by
    cases found : ManifestDescriptor.ofYaml source with
    | error fault =>
      rw [found] at decoded
      cases decoded
    | ok other =>
      rw [found] at decoded
      cases decoded
      rfl
  obtain ⟨_, worked, sound⟩ := bind_ok_iff.mp read
  split at sound
  · cases sound
    exact Decode.manifest_apart worked
  · cases sound

end Regesta
