import Regesta.Manifest
import Regesta.Manifest.Decode
import Regesta.Path.Reader
import Regesta.Warning

namespace Regesta

open Xml (ExpandedName)

/-- Whether a text is a name for an entity type: ASCII letters and digits, and after the first of
them also hyphens and underscores. -/
def isEntityName (name : String) : Bool :=
  match name.toList with
  | [] => false
  | c :: rest => c.isAlphanum && rest.all fun c => c.isAlphanum || c = '-' || c = '_'

def checkEntityName (name : String) : Except Error Unit :=
  if isEntityName name then .ok ()
  else .error (.invalidManifest ("entities." ++ name) .entityName)

/-- The name of the attribute with the identifier, where the manifest gives none. -/
def standardIdAttribute : String := "\x7b" ++ Xml.xmlUri ++ "\x7did"

structure Rules where
  namespaces : Namespaces
  mode : Mode

def propertyLocation (location name : String) : String := location ++ ".properties." ++ name

def templateLocation (location : String) (index : Nat) : String :=
  location ++ "[" ++ toString index ++ "]"

namespace Rules

variable (rules : Rules)

def paths (location : String) : Option (List String) → Except Error (List Path)
  | none => .ok []
  | some [] => .error (.invalidManifest location .noPath)
  | some paths => paths.mapM (Path.read rules.namespaces)

def attributes (names : Option (List String)) : Except Error (List ExpandedName) :=
  (names.getD []).mapM rules.namespaces.name

def filter (location : String) : Option String → Reported (Option FilterRef)
  | none => pure none
  | some name =>
    match Filter.ofName? name, rules.mode with
    | some filter, _ => pure (some (.known filter))
    | none, .strict => Reported.fail (.unknownFilter name location)
    | none, .lenient => do
      Reported.warn (.undefinedFilter name location)
      pure (some (.unknown name))

def leaf (location name : String) (paths : List Path) (multiple : Bool)
    (attributes : List ExpandedName) (filter : Option FilterRef) : Except Error Property :=
  if paths.isEmpty then .error (.invalidManifest location .noSource)
  else
    match filter with
    | some (.known known) =>
      if !attributes.isEmpty && !known.acceptsText then
        .error (.invalidManifest location (.filterNeedsNode known.name))
      else .ok (.leaf name paths multiple attributes filter)
    | _ => .ok (.leaf name paths multiple attributes filter)

def unmixed (location : String) (attributes : List ExpandedName) (filter : Option FilterRef)
    (property : Property) : Except Error Property :=
  if !attributes.isEmpty || filter.isSome then .error (.invalidManifest location .mixedNested)
  else .ok property

def checkDepth (location : String) (depth : Nat) : Except Error Unit :=
  if maximalDepth < depth then .error (.invalidManifest location .tooDeep) else .ok ()

mutual
def property (location name : String) (depth : Nat) : PropertyDescriptor → Reported Property
  | .mk paths multiple attributes filter nested => do
    let paths ← Reported.ofExcept (rules.paths location paths)
    let attributes ← Reported.ofExcept (rules.attributes attributes)
    let filter ← rules.filter location filter
    match nested with
    | none => Reported.ofExcept (leaf location name paths multiple attributes filter)
    | some (.group properties) => do
      Reported.ofExcept (checkDepth location (depth + 1))
      let properties ← propertySet location (depth + 1) properties
      Reported.ofExcept
        (unmixed location attributes filter (.group name paths multiple properties))
    | some (.templates sets) => do
      if !multiple || !paths.isEmpty then Reported.fail (.invalidManifest location .templates)
      else
        let sets ← templateSets location (depth + 1) 0 sets
        Reported.ofExcept (unmixed location attributes filter (.templates name sets))

def propertySet (location : String) (depth : Nat) :
    List (String × PropertyDescriptor) → Reported (List Property)
  | [] => pure []
  | (name, descriptor) :: rest => do
    let here := propertyLocation location name
    if (Text.trim name.toList).isEmpty then Reported.fail (.invalidManifest here .blankProperty)
    else
      let first ← property here name depth descriptor
      let others ← propertySet location depth rest
      pure (first :: others)

def templateSets (location : String) (depth index : Nat) :
    List (List (String × PropertyDescriptor)) → Reported (List (List Property))
  | [] => pure []
  | set :: rest => do
    let here := templateLocation location index
    Reported.ofExcept (checkDepth here depth)
    let first ← propertySet here depth set
    let others ← templateSets location depth (index + 1) rest
    pure (first :: others)
end

def identifier (standard : ExpandedName) : Option String → Except Error ExpandedName
  | some written => rules.namespaces.name written
  | none => .ok standard

def entity (standard : ExpandedName) (name : String) (descriptor : EntityDescriptor) :
    Reported Entity := do
  let location := "entities." ++ name
  let root ← Reported.ofExcept (Path.read rules.namespaces descriptor.path)
  let idAttribute ← Reported.ofExcept (rules.identifier standard descriptor.idAttribute)
  Reported.ofExcept (checkDepth location 1)
  let properties ← rules.propertySet location 1 descriptor.properties
  pure ⟨name, root, idAttribute, properties⟩

def entities (standard : ExpandedName) :
    List (String × EntityDescriptor) → Reported (List Entity)
  | [] => pure []
  | (name, descriptor) :: rest => do
    Reported.ofExcept (checkEntityName name)
    let first ← rules.entity standard name descriptor
    let others ← entities standard rest
    pure (first :: others)

end Rules

namespace Manifest

/-- The manifest that a descriptor describes, when all rules hold. What is told on the way is told
also when a rule is found broken later on. -/
def validate (descriptor : ManifestDescriptor) : Reported Manifest := do
  if (Text.trim descriptor.collection.toList).isEmpty then
    Reported.fail (.invalidManifest "collection" .blankCollection)
  else if descriptor.entities.isEmpty then
    Reported.fail (.invalidManifest "entities" .noEntities)
  else
    let rules : Rules := ⟨descriptor.namespaces, descriptor.mode⟩
    let standard ← Reported.ofExcept
      (rules.namespaces.name (descriptor.defaultIdAttribute.getD standardIdAttribute))
    let entities ← rules.entities standard descriptor.entities
    pure ⟨descriptor.collection, entities, standard, descriptor.namespaces, descriptor.mode⟩

def ofDescriptor (descriptor : ManifestDescriptor) : Except Error Manifest :=
  (validate descriptor).result

def load (source : String) : Reported Manifest := do
  let descriptor ←
    Reported.ofExcept ((ManifestDescriptor.ofYaml source).mapError .unreadableManifest)
  validate descriptor

def read (source : String) : Except Error Manifest := (load source).result

end Manifest
end Regesta
