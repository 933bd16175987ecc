import Regesta.Proofs.Manifest.Outline

namespace Regesta

open Xml (ExpandedName)

namespace Filter

def names : Filter → List String
  | truncate => ["truncate_100", "get_substring_100"]
  | tagName => ["tag_name", "get_node_name"]
  | joinedChildren => ["joined_child_text", "get_pers_name"]

def IsRegistered (text : String) : Prop := ∃ filter : Filter, Text.trimmed text ∈ filter.names

theorem mem_names_of_ofName? {text : String} {filter : Filter}
    (found : ofName? text = some filter) : Text.trimmed text ∈ filter.names := by
  unfold ofName? at found
  split at found <;> cases found <;> simp_all [names]

theorem ofName?_eq_none_iff {text : String} : ofName? text = none ↔ ¬ IsRegistered text := by
  constructor
  · rintro unknown ⟨filter, named⟩
    unfold ofName? at unknown
    split at unknown <;> cases unknown
    cases filter <;> simp_all [names]
  · intro unregistered
    cases found : ofName? text with
    | none => rfl
    | some filter => exact absurd ⟨filter, mem_names_of_ofName? found⟩ unregistered

end Filter

/-- The warnings about properties as they are written: one for each whose filter is registered
nowhere, in order. -/
inductive Warned : List (String × PropertyDescriptor) → List Warning → Prop
  | nil : Warned [] []
  | unknown {location name : String} {descriptor : PropertyDescriptor}
    {rest : List (String × PropertyDescriptor)} {warnings : List Warning} :
    descriptor.filter = some name → ¬ Filter.IsRegistered name → Warned rest warnings →
    Warned ((location, descriptor) :: rest) (.undefinedFilter name location :: warnings)
  | other {location : String} {descriptor : PropertyDescriptor}
    {rest : List (String × PropertyDescriptor)} {warnings : List Warning} :
    (∀ name, descriptor.filter = some name → Filter.IsRegistered name) → Warned rest warnings →
    Warned ((location, descriptor) :: rest) warnings

namespace Rules

open Reported (Recounts)

section

variable (rules : Rules)

def filterWarnings (location : String) : Option String → List Warning
  | none => []
  | some name =>
    match Filter.ofName? name, rules.mode with
    | none, .lenient => [.undefinedFilter name location]
    | _, _ => []

def warnings (written : List (String × PropertyDescriptor)) : List Warning :=
  written.flatMap fun entry => rules.filterWarnings entry.1 entry.2.filter

theorem warnings_strict {rules : Rules} (strict : rules.mode = .strict)
    (written : List (String × PropertyDescriptor)) : rules.warnings written = [] := by
  apply List.flatMap_eq_nil_iff.mpr
  intro entry _
  cases entry.2.filter with
  | none => rfl
  | some name =>
    simp only [filterWarnings, strict]
    cases Filter.ofName? name <;> rfl

theorem warned_warnings {rules : Rules} (lenient : rules.mode = .lenient)
    (written : List (String × PropertyDescriptor)) : Warned written (rules.warnings written) := by
  induction written with
  | nil => exact .nil
  | cons entry rest ih =>
    obtain ⟨location, descriptor⟩ := entry
    change Warned _ (rules.filterWarnings location descriptor.filter ++ rules.warnings rest)
    cases given : descriptor.filter with
    | none => exact .other (by simp [given]) ih
    | some name =>
      cases looked : Filter.ofName? name with
      | none =>
        simp only [filterWarnings, looked, lenient]
        exact .unknown given (Filter.ofName?_eq_none_iff.mp looked) ih
      | some known =>
        simp only [filterWarnings, looked]
        refine .other ?_ ih
        intro other same
        obtain rfl := Option.some.inj (given.symm.trans same)
        exact ⟨known, Filter.mem_names_of_ofName? looked⟩

theorem filter_recounts (location : String) (text : Option String) :
    Recounts (rules.filter location text) (rules.filterWarnings location text) := by
  cases text with
  | none => exact .pure _
  | some name =>
    cases looked : Filter.ofName? name with
    | some known =>
      simp only [Rules.filter, filterWarnings, looked]
      exact .pure _
    | none =>
      cases mode : rules.mode with
      | strict =>
        simp only [Rules.filter, filterWarnings, looked, mode]
        exact .fail _ _
      | lenient =>
        simp only [Rules.filter, filterWarnings, looked, mode]
        exact ⟨List.prefix_rfl, fun _ _ => rfl⟩

mutual
theorem property_recounts (location name : String) (depth : Nat)
    (descriptor : PropertyDescriptor) :
    Recounts (rules.property location name depth descriptor)
      (rules.warnings (descriptor.outline location)) := by
  match descriptor with
  | .mk _ _ _ filter none =>
    rw [property_eq, PropertyDescriptor.outline]
    refine .after fun paths => .after fun attributes => ?_
    exact (rules.filter_recounts location filter).bind fun filter => .ofExcept _
  | .mk _ _ _ filter (some (.group set)) =>
    rw [property_eq, PropertyDescriptor.outline]
    refine .after fun paths => .after fun attributes => ?_
    apply (rules.filter_recounts location filter).bind
    intro filter
    exact .after fun _ =>
      (propertySet_recounts location (depth + 1) set).before fun _ => .ofExcept _
  | .mk _ _ _ filter (some (.templates sets)) =>
    rw [property_eq, PropertyDescriptor.outline]
    refine .after fun paths => .after fun attributes => ?_
    apply (rules.filter_recounts location filter).bind
    intro filter
    rw [finish]
    split
    · exact .fail _ _
    · exact (templateSets_recounts location (depth + 1) 0 sets).before fun _ => .ofExcept _

theorem propertySet_recounts (location : String) (depth : Nat) (set : DescriptorSet) :
    Recounts (rules.propertySet location depth set)
      (rules.warnings (descriptorOutline location set)) := by
  match set with
  | [] =>
    rw [propertySet, descriptorOutline]
    exact .pure _
  | (name, descriptor) :: rest =>
    rw [propertySet, descriptorOutline, warnings, List.flatMap_append]
    split
    · exact .fail _ _
    · have first := property_recounts (propertyLocation location name) name depth descriptor
      exact first.bind fun _ => (propertySet_recounts location depth rest).before fun _ => .pure _

theorem templateSets_recounts (location : String) (depth index : Nat) (sets : List DescriptorSet) :
    Recounts (rules.templateSets location depth index sets)
      (rules.warnings (templateDescriptorOutline location index sets)) := by
  match sets with
  | [] =>
    rw [templateSets, templateDescriptorOutline]
    exact .pure _
  | set :: rest =>
    rw [templateSets, templateDescriptorOutline, warnings, List.flatMap_append]
    have first := propertySet_recounts (templateLocation location index) depth set
    exact .after fun _ => first.bind fun _ =>
      (templateSets_recounts location depth (index + 1) rest).before fun _ => .pure _
end

theorem entities_recounts (standard : ExpandedName)
    (descriptors : List (String × EntityDescriptor)) :
    Recounts (rules.entities standard descriptors)
      (rules.warnings (descriptors.flatMap fun entry =>
        descriptorOutline ("entities." ++ entry.1) entry.2.properties)) := by
  induction descriptors with
  | nil => exact .pure _
  | cons entry rest ih =>
    obtain ⟨name, descriptor⟩ := entry
    rw [entities, List.flatMap_cons, warnings, List.flatMap_append]
    have inside := rules.propertySet_recounts ("entities." ++ name) 1 descriptor.properties
    have first : Recounts (rules.entity standard name descriptor) _ :=
      .after fun _ => .after fun _ => .after fun _ => inside.before fun _ => .pure _
    exact .after fun _ => first.bind fun _ => ih.before fun _ => .pure _

end

/-- Work that is done in both modes: it ends well in strict mode just when in lenient mode it does
so without a warning. -/
def Sterner {α : Type} (strict lenient : Reported α) : Prop :=
  ∀ value, strict.result = .ok value ↔ lenient.result = .ok value ∧ lenient.warnings = []

namespace Sterner

variable {α β : Type} {strict lenient : Reported α} {strictNext lenientNext : α → Reported β}

theorem alike (outcome : Except Error α) :
    Sterner (Reported.ofExcept outcome) (Reported.ofExcept outcome) := by
  intro value
  simp

theorem pure (value : α) : Sterner (Pure.pure value) (Pure.pure value) := alike (.ok value)

theorem fail (error : Error) :
    Sterner (Reported.fail error : Reported α) (Reported.fail error) := by
  intro value
  simp

theorem bind (first : Sterner strict lenient)
    (second : ∀ value, Sterner (strictNext value) (lenientNext value)) :
    Sterner (strict >>= strictNext) (lenient >>= lenientNext) := by
  intro result
  simp only [Reported.bind_ok_iff]
  constructor
  · intro ⟨value, done, ended⟩
    obtain ⟨done, quiet⟩ := (first value).mp done
    obtain ⟨ended, quietAfter⟩ := (second value result).mp ended
    refine ⟨⟨value, done, ended⟩, ?_⟩
    rw [Reported.bind_warnings done, quiet, quietAfter, List.append_nil]
  · intro ⟨⟨value, done, ended⟩, quiet⟩
    rw [Reported.bind_warnings done, List.append_eq_nil_iff] at quiet
    exact ⟨value, (first value).mpr ⟨done, quiet.1⟩, (second value result).mpr ⟨ended, quiet.2⟩⟩

end Sterner

section

variable (namespaces : Namespaces)

theorem filter_sterner (location : String) (text : Option String) :
    Sterner ((Rules.mk namespaces .strict).filter location text)
      ((Rules.mk namespaces .lenient).filter location text) := by
  cases text with
  | none => exact .pure none
  | some name =>
    unfold Rules.filter
    cases looked : Filter.ofName? name with
    | some known =>
      simp only [looked]
      exact .pure _
    | none =>
      -- Strict mode refuses what lenient mode warns of.
      intro filter
      simp only [looked, Reported.fail_result, reduceCtorEq, false_iff, not_and]
      exact fun _ => List.cons_ne_nil _ _

mutual
theorem property_sterner (location name : String) (depth : Nat) (descriptor : PropertyDescriptor) :
    Sterner ((Rules.mk namespaces .strict).property location name depth descriptor)
      ((Rules.mk namespaces .lenient).property location name depth descriptor) := by
  match descriptor with
  | .mk paths multiple attributes filter nested =>
    rw [property_eq, property_eq]
    refine .bind (.alike _) fun paths => .bind (.alike _) fun attributes =>
      .bind (filter_sterner namespaces location filter) fun filter => ?_
    match nested with
    | none => exact .alike _
    | some (.group set) =>
      exact .bind (.alike _) fun _ =>
        .bind (propertySet_sterner location (depth + 1) set) fun _ => .alike _
    | some (.templates sets) =>
      rw [finish, finish]
      split
      · exact .fail _
      · exact .bind (templateSets_sterner location (depth + 1) 0 sets) fun _ => .alike _

theorem propertySet_sterner (location : String) (depth : Nat) (set : DescriptorSet) :
    Sterner ((Rules.mk namespaces .strict).propertySet location depth set)
      ((Rules.mk namespaces .lenient).propertySet location depth set) := by
  match set with
  | [] =>
    rw [propertySet, propertySet]
    exact .pure []
  | (name, descriptor) :: rest =>
    rw [propertySet, propertySet]
    split
    · exact .fail _
    · exact .bind (property_sterner _ name depth descriptor) fun first =>
        .bind (propertySet_sterner location depth rest) fun others => .pure (first :: others)

theorem templateSets_sterner (location : String) (depth index : Nat) (sets : List DescriptorSet) :
    Sterner ((Rules.mk namespaces .strict).templateSets location depth index sets)
      ((Rules.mk namespaces .lenient).templateSets location depth index sets) := by
  match sets with
  | [] =>
    rw [templateSets, templateSets]
    exact .pure []
  | set :: rest =>
    rw [templateSets, templateSets]
    exact .bind (.alike _) fun _ => .bind (propertySet_sterner _ depth set) fun first =>
      .bind (templateSets_sterner location depth (index + 1) rest) fun others =>
        .pure (first :: others)
end

theorem entities_sterner (standard : ExpandedName)
    (descriptors : List (String × EntityDescriptor)) :
    Sterner ((Rules.mk namespaces .strict).entities standard descriptors)
      ((Rules.mk namespaces .lenient).entities standard descriptors) := by
  induction descriptors with
  | nil => exact .pure []
  | cons entry rest ih =>
    obtain ⟨name, descriptor⟩ := entry
    rw [entities, entities]
    have inside := propertySet_sterner namespaces ("entities." ++ name) 1 descriptor.properties
    have first : Sterner ((Rules.mk namespaces .strict).entity standard name descriptor)
        ((Rules.mk namespaces .lenient).entity standard name descriptor) :=
      .bind (.alike _) fun root => .bind (.alike _) fun idAttribute => .bind (.alike _) fun _ =>
        .bind inside fun properties => .pure _
    exact .bind (.alike _) fun _ => .bind first fun first =>
      .bind ih fun others => .pure (first :: others)

end

end Rules

namespace Manifest

open Reported (Recounts)

variable (descriptor : ManifestDescriptor)

theorem validate_recounts :
    Recounts (validate descriptor) (descriptor.rules.warnings descriptor.outline) := by
  unfold validate
  split
  · exact .fail _ _
  split
  · exact .fail _ _
  · exact .after fun standard =>
      (descriptor.rules.entities_recounts standard descriptor.entities).before fun _ => .pure _

theorem validate_warnings {descriptor : ManifestDescriptor} {standard : ExpandedName}
    (filled : ¬ IsBlankText descriptor.collection) (declares : descriptor.entities ≠ [])
    (named : descriptor.rules.namespaces.name
      (descriptor.defaultIdAttribute.getD standardIdAttribute) = .ok standard) :
    (validate descriptor).warnings =
      (descriptor.rules.entities standard descriptor.entities).warnings := by
  unfold validate
  rw [if_neg (mt List.isEmpty_iff.mp filled), if_neg (mt List.isEmpty_iff.mp declares),
    Reported.bind_warnings named]
  exact Reported.map_warnings _ _

theorem validate_strict_iff {manifest : Manifest} :
    (validate { descriptor with mode := .strict }).result = .ok manifest ↔
      manifest.mode = .strict ∧
      (validate { descriptor with mode := .lenient }).result =
        .ok { manifest with mode := .lenient } ∧
      (validate { descriptor with mode := .lenient }).warnings = [] := by
  have accepted : ∀ descriptor : ManifestDescriptor, ∀ manifest,
      (validate descriptor).result = .ok manifest ↔ _ := fun _ _ => ofDescriptor_ok_iff
  rw [accepted, accepted]
  constructor
  · intro ⟨filled, declares, standard, entities, named, checked, same⟩
    subst same
    obtain ⟨checked, quiet⟩ := (Rules.entities_sterner _ _ _ entities).mp checked
    refine ⟨rfl, ⟨filled, declares, standard, entities, named, checked, rfl⟩, ?_⟩
    exact (@validate_warnings { descriptor with mode := .lenient } _ filled declares named).trans
      quiet
  · intro ⟨strict, ⟨filled, declares, standard, entities, named, checked, same⟩, quiet⟩
    rw [validate_warnings filled declares named] at quiet
    obtain ⟨collection, found, identifier, namespaces, mode⟩ := manifest
    cases same
    cases strict
    have sterner := (Rules.entities_sterner _ _ _ found).mpr ⟨checked, quiet⟩
    exact ⟨filled, declares, identifier, found, named, sterner, rfl⟩

/-- A manifest is accepted in strict mode just when it is in lenient mode without any warning, and
the two differ in nothing else. What checking it warns of in lenient mode is, for each property whose
filter is registered nowhere and in the order in which they are declared, this filter and the
location; just those properties have a filter that is unknown. Where the manifest is refused, it has
warned of what comes before that. Strict mode warns of nothing. -/
theorem strict_accepts_unwarned :
    ((∃ manifest, (validate { descriptor with mode := .strict }).result = .ok manifest) ↔
      (∃ manifest, (validate { descriptor with mode := .lenient }).result = .ok manifest) ∧
        (validate { descriptor with mode := .lenient }).warnings = []) ∧
    (∀ strict lenient,
      (validate { descriptor with mode := .strict }).result = .ok strict →
      (validate { descriptor with mode := .lenient }).result = .ok lenient →
      strict.mode = .strict ∧ lenient = { strict with mode := .lenient }) ∧
    (∀ manifest, (validate { descriptor with mode := .lenient }).result = .ok manifest →
      Warned descriptor.outline (validate { descriptor with mode := .lenient }).warnings ∧
      List.Forall₂ (fun written checked => checked.1 = written.1 ∧
        ∀ name, checked.2.filter = some (.unknown name) ↔
          written.2.filter = some name ∧ ¬ Filter.IsRegistered name)
        descriptor.outline manifest.outline) ∧
    (∃ later, Warned descriptor.outline
      ((validate { descriptor with mode := .lenient }).warnings ++ later)) ∧
    (validate { descriptor with mode := .strict }).warnings = [] := by
  have lenient := validate_recounts { descriptor with mode := .lenient }
  have foretold := @Rules.warned_warnings ⟨descriptor.namespaces, .lenient⟩ rfl descriptor.outline
  refine ⟨?_, ?_, ?_, ?_, ?_⟩
  · constructor
    · intro ⟨manifest, accepted⟩
      obtain ⟨_, accepted, quiet⟩ := (validate_strict_iff descriptor).mp accepted
      exact ⟨⟨_, accepted⟩, quiet⟩
    · intro ⟨⟨manifest, accepted⟩, quiet⟩
      refine ⟨{ manifest with mode := .strict }, (validate_strict_iff descriptor).mpr ?_⟩
      have mode : manifest.mode = .lenient := mode_eq accepted
      refine ⟨rfl, ?_, quiet⟩
      rw [accepted, ← mode]
  · intro strict lenient acceptedStrict acceptedLenient
    obtain ⟨mode, accepted, _⟩ := (validate_strict_iff descriptor).mp acceptedStrict
    exact ⟨mode, Except.ok.inj (acceptedLenient.symm.trans accepted)⟩
  · intro manifest accepted
    have outlined := outlined accepted
    change List.Forall₂ _ descriptor.outline _ at outlined
    refine ⟨?_, outlined.imp ?_⟩
    · rw [lenient.ends manifest accepted]
      exact foretold
    · intro written checked checks
      refine ⟨checks.location, ?_⟩
      intro name
      rw [checks.unknown, Filter.ofName?_eq_none_iff]
  · obtain ⟨later, whole⟩ := lenient.begins
    exact ⟨later, whole ▸ foretold⟩
  · have strict := (validate_recounts { descriptor with mode := .strict }).begins
    rw [Rules.warnings_strict rfl] at strict
    exact List.prefix_nil.mp strict

namespace Unregistered

def leaf (filter : String) : PropertyDescriptor := .mk (some ["."]) false none (some filter) none

def written : ManifestDescriptor :=
  ⟨"register", [("e", ⟨"//p", [("forms", .mk none true none none
    (some (.templates [[("name", leaf "tag_name")], [("q", leaf " titel ")]])))], none⟩)],
    none, [], .lenient⟩

def manifest : Manifest :=
  ⟨"register",
    [⟨"e", ⟨"//p", .steps true [.anywhere, ⟨.child, .tag "p", []⟩]⟩, ⟨some Xml.xmlUri, "id"⟩,
      [.templates "forms" [[.leaf "name" [⟨".", .here⟩] false [] (some (.known .tagName))],
        [.leaf "q" [⟨".", .here⟩] false [] (some (.unknown " titel "))]]]⟩],
    ⟨some Xml.xmlUri, "id"⟩, [], .lenient⟩

theorem strict_accepts_unwarned_template :
    (validate written).result = .ok manifest ∧
      Warned written.outline
        [.undefinedFilter " titel " "entities.e.properties.forms[1].properties.q"] ∧
      ¬ ∃ manifest, (validate { written with mode := .strict }).result = .ok manifest := by
  have accepted : (validate written).result = .ok manifest := rfl
  have warnings : (validate written).warnings =
      [.undefinedFilter " titel " "entities.e.properties.forms[1].properties.q"] := by rfl
  obtain ⟨strictly, _, warned, _⟩ := strict_accepts_unwarned written
  refine ⟨accepted, warnings ▸ (warned manifest accepted).1, fun strict => ?_⟩
  have quiet : (validate written).warnings = [] := (strictly.mp strict).2
  rw [warnings] at quiet
  cases quiet

end Unregistered

end Manifest

end Regesta
