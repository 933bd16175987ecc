import Regesta.Manifest.Validation
import Regesta.Proofs.Configuration
import Regesta.Proofs.Reported

namespace Regesta

namespace Rules

variable (rules : Rules) (location : String)

theorem paths_configures (texts : Option (List String)) :
    Configures (rules.paths location texts) := by
  unfold Rules.paths
  split
  · exact .ok _
  · exact .error rfl
  · exact .mapM fun text => Path.read_configures rules.namespaces text

theorem attributes_configures (texts : Option (List String)) :
    Configures (rules.attributes texts) :=
  .mapM fun text => rules.namespaces.name_configures text

theorem filter_configures (text : Option String) :
    Configures (rules.filter location text).result := by
  unfold Rules.filter
  split
  · exact .ok _
  · split
    · exact .ok _
    · exact .error rfl
    · exact .ok _

theorem leaf_configures (name : String) (paths : List Path) (multiple : Bool)
    (attributes : List Xml.ExpandedName) (filter : Option FilterRef) :
    Configures (leaf location name paths multiple attributes filter) := by
  unfold leaf
  split
  · exact .error rfl
  · split
    · split
      · exact .error rfl
      · exact .ok _
    · exact .ok _

theorem unmixed_configures (attributes : List Xml.ExpandedName) (filter : Option FilterRef)
    (property : Property) : Configures (unmixed location attributes filter property) := by
  unfold unmixed
  split
  · exact .error rfl
  · exact .ok _

theorem checkDepth_configures (depth : Nat) : Configures (checkDepth location depth) := by
  unfold checkDepth
  split
  · exact .error rfl
  · exact .ok _

mutual
theorem property_configures (location name : String) (depth : Nat)
    (descriptor : PropertyDescriptor) :
    Configures (rules.property location name depth descriptor).result := by
  match descriptor with
  | .mk paths multiple attributes filter nested =>
    rw [property]
    simp only [Reported.bind_result, Reported.ofExcept_result]
    apply Configures.bind (rules.paths_configures location paths)
    intro pathsFound
    apply Configures.bind (rules.attributes_configures attributes)
    intro names
    apply Configures.bind (rules.filter_configures location filter)
    intro known
    match nested with
    | none => exact leaf_configures _ _ _ _ _ _
    | some (.group set) =>
      simp only [Reported.bind_result, Reported.ofExcept_result]
      apply Configures.bind (checkDepth_configures _ _)
      intro _
      exact .bind (propertySet_configures _ _ set) fun _ => unmixed_configures _ _ _ _
    | some (.templates sets) =>
      simp only
      split
      · exact .error rfl
      · rw [Reported.bind_result]
        exact .bind (templateSets_configures _ _ _ sets) fun _ => unmixed_configures _ _ _ _

theorem propertySet_configures (location : String) (depth : Nat)
    (set : List (String × PropertyDescriptor)) :
    Configures (rules.propertySet location depth set).result := by
  match set with
  | [] =>
    rw [propertySet]
    exact .ok _
  | (name, descriptor) :: rest =>
    rw [propertySet]
    split
    · exact .error rfl
    · simp only [Reported.bind_result]
      apply Configures.bind (property_configures _ _ _ descriptor)
      intro first
      exact .bind (propertySet_configures _ _ rest) fun _ => .ok _

theorem templateSets_configures (location : String) (depth index : Nat)
    (sets : List (List (String × PropertyDescriptor))) :
    Configures (rules.templateSets location depth index sets).result := by
  match sets with
  | [] =>
    rw [templateSets]
    exact .ok _
  | set :: rest =>
    rw [templateSets]
    simp only [Reported.bind_result, Reported.ofExcept_result]
    apply Configures.bind (checkDepth_configures _ _)
    intro _
    apply Configures.bind (propertySet_configures _ _ set)
    intro first
    exact .bind (templateSets_configures _ _ _ rest) fun _ => .ok _
end

theorem entity_configures (standard : Xml.ExpandedName) (name : String)
    (descriptor : EntityDescriptor) :
    Configures (rules.entity standard name descriptor).result := by
  have identified : Configures (rules.identifier standard descriptor.idAttribute) := by
    unfold identifier
    split
    · exact rules.namespaces.name_configures _
    · exact .ok _
  rw [entity]
  simp only [Reported.bind_result, Reported.ofExcept_result]
  apply Configures.bind (Path.read_configures _ _)
  intro root
  apply Configures.bind identified
  intro idAttribute
  apply Configures.bind (checkDepth_configures _ _)
  intro _
  exact .bind (rules.propertySet_configures _ _ _) fun _ => .ok _

theorem entities_configures (standard : Xml.ExpandedName)
    (descriptors : List (String × EntityDescriptor)) :
    Configures (rules.entities standard descriptors).result := by
  have named : ∀ name, Configures (checkEntityName name) := by
    intro name
    unfold checkEntityName
    split
    · exact .ok _
    · exact .error rfl
  induction descriptors with
  | nil => exact .ok _
  | cons entry rest ih =>
    rw [entities]
    simp only [Reported.bind_result, Reported.ofExcept_result]
    apply Configures.bind (named _)
    intro _
    apply Configures.bind (rules.entity_configures standard _ _)
    intro first
    exact .bind ih fun _ => .ok _

end Rules

namespace Manifest

theorem ofDescriptor_configures (descriptor : ManifestDescriptor) :
    Configures (ofDescriptor descriptor) := by
  unfold ofDescriptor validate
  split
  · exact .error rfl
  split
  · exact .error rfl
  · simp only [Reported.bind_result, Reported.ofExcept_result]
    apply Configures.bind (Namespaces.name_configures _ _)
    intro standard
    exact .bind (Rules.entities_configures _ _ _) fun _ => .ok _

end Manifest

end Regesta
