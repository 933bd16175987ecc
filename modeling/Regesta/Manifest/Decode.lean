import Regesta.Error
import Regesta.Manifest.Descriptor
import Regesta.Yaml.Meaning
import Regesta.Yaml.Tree

/-!
Decoding manifests from YAML. Some keys have a second spelling; one path or attribute may stand for
a list of one. Entity types and properties refuse keys that they do not know, and no key of theirs
may be given twice; in maps of free keys the last value counts, in the first one's place.
-/
namespace Regesta

open Yaml (Tree Tag Style)

abbrev Decoded := Except ManifestFault

namespace Decode

def fail {α : Type} (cause : FaultCause) : Decoded α := .error (.misfit [] cause)

def under {α : Type} (step : FaultStep) (decoded : Decoded α) : Decoded α :=
  decoded.mapError (ManifestFault.under step)

def stepTo : Option String → FaultStep
  | some name => .key name
  | none => .unnamed

def scalarCause (asked : String) (tag : Option Tag) (style : Style) (text : String) : FaultCause :=
  match Yaml.meaning tag style text with
  | .null => .unfit "unit value" asked
  | .truth value => .unfit ("boolean `" ++ toString value ++ "`") asked
  | .integer | .wideInteger => .unfit ("integer `" ++ text ++ "`") asked
  | .decimal => .unfit ("floating point `" ++ text ++ "`") asked
  | .text => .unfit ("string " ++ Text.quoted text) asked
  | .mismatch kind => .belied text kind

def refuse {α : Type} (asked : String) : Tree → Decoded α
  | .scalar tag style text => fail (scalarCause asked tag style text)
  | .sequence _ _ => fail (.unfit "sequence" asked)
  | .mapping _ _ => fail (.unfit "map" asked)
  | .void | .fault => .error .unreadable

/-- A text: any scalar, however written. -/
def text : Tree → Decoded String
  | .scalar _ _ text => .ok text
  | tree => refuse "a string" tree

/-- A truth value: a plain scalar, or a literal one with the tag of truth values. -/
def truth (tree : Tree) : Decoded Bool :=
  match tree with
  | .scalar tag style text =>
    let bare := style = .plain || (style = .literal && tag = some (.standard "bool"))
    match if bare then Yaml.truth? text else none with
    | some value => .ok value
    | none => refuse "a boolean" tree
  | _ => refuse "a boolean" tree

def isLeftOut : Tree → Decoded Bool
  | .void => .ok true
  | .fault => .error .unreadable
  | .scalar tag .plain text =>
    match tag with
    | none => .ok (text.isEmpty || Yaml.isNullWord text)
    | some tag =>
      if tag ≠ .standard "null" then .ok false
      else if Yaml.isNullWord text then .ok true
      else fail (.belied text "null")
  | _ => .ok false

def optional {α : Type} (decode : Tree → Decoded α) (tree : Tree) : Decoded (Option α) := do
  if ← isLeftOut tree then .ok none else (decode tree).map some

mutual
/-- Reads through a tree as a whole. There may be no fault in it, no tag that its scalar belies, no
tag of the document's own and no number beyond 64 bits. -/
def readThrough : Tree → Decoded Unit
  | .scalar tag style text =>
    if tag.any Tag.isOwn then fail .ownTag
    else
      match Yaml.meaning tag style text with
      | .mismatch _ | .wideInteger => fail (scalarCause "any value" tag style text)
      | _ => .ok ()
  | .sequence tag items => if tag.any Tag.isOwn then fail .ownTag else readItems 0 items
  | .mapping tag entries => if tag.any Tag.isOwn then fail .ownTag else readEntries entries
  | .void => .ok ()
  | .fault => .error .unreadable

def readItems (index : Nat) : List Tree → Decoded Unit
  | [] => .ok ()
  | item :: rest => do
    under (.item index) (readThrough item)
    readItems (index + 1) rest

def readEntries : List (Option String × Tree × Tree) → Decoded Unit
  | [] => .ok ()
  | (name, key, value) :: rest => do
    readThrough key
    under (stepTo name) (readThrough value)
    readEntries rest
end

def properText? : Tree → Option String
  | .scalar tag style text => if Yaml.meaning tag style text = .text then some text else none
  | _ => none

/-- One text or a list of texts, none of which may mean anything else. What is neither counts as a
fault of what holds it. -/
def oneOrMany (step : FaultStep) (tree : Tree) : Decoded (List String) := do
  under step (readThrough tree)
  match properText? tree, tree with
  | some text, _ => .ok [text]
  | none, .sequence _ items =>
    match items.mapM properText? with
    | some texts => .ok texts
    | none => fail .neitherOneNorMany
  | none, _ => fail .neitherOneNorMany

/-- The entries of a mapping; a plain scalar without text counts as one without entries. -/
def entries (tree : Tree) : Decoded (List (Option String × Tree × Tree)) :=
  match tree with
  | .mapping _ entries => .ok entries
  | .void => .ok []
  | .scalar _ .plain "" => .ok []
  | _ => refuse "a map" tree

/-- Writes a value under a key: in place when the key is there, at the end otherwise. -/
def setEntry {α : Type} (key : String) (value : α) : List (String × α) → List (String × α)
  | [] => [(key, value)]
  | entry :: rest =>
    if entry.1 == key then (key, value) :: rest else entry :: setEntry key value rest

def textEntries : List (Option String × Tree × Tree) → List (String × String) →
    Decoded (List (String × String))
  | [], decoded => .ok decoded
  | (name, key, value) :: rest, decoded => do
    let key ← text key
    let value ← under (stepTo name) (text value)
    textEntries rest (setEntry key value decoded)

def modeNamed (name : String) : Decoded Mode :=
  match name with
  | "lenient" => .ok .lenient
  | "strict" => .ok .strict
  | _ => fail (.unknownVariant name)

def mode (tree : Tree) : Decoded Mode :=
  match tree with
  | .scalar tag style text =>
    match tag >>= Tag.name? with
    | none => modeNamed text
    | some name => do
      let mode ← modeNamed name
      if style = .plain && (text.isEmpty || Yaml.isNullWord text) then .ok mode
      else fail (.belied text "null")
  | .sequence tag _ | .mapping tag _ =>
    match tag >>= Tag.name? with
    | none => refuse "a YAML tag starting with '!'" tree
    | some name => do
      let _ ← modeNamed name
      refuse "null" tree
  | _ => .error .unreadable

/-- Fills a field that has a value at most once. -/
def fill {α : Type} (name : String) (present : Option α) (decoded : Decoded α) :
    Decoded (Option α) :=
  if present.isSome then fail (.duplicateField name) else decoded.map some

structure PropertyFields where
  paths : Option (Option (List String))
  multiple : Option Bool
  attributes : Option (Option (List String))
  filter : Option (Option String)
  nested : Option (Option (Nested (String × PropertyDescriptor)))

def PropertyFields.none : PropertyFields := ⟨.none, .none, .none, .none, .none⟩

def PropertyFields.close (fields : PropertyFields) : PropertyDescriptor :=
  .mk fields.paths.join (fields.multiple.getD false) fields.attributes.join fields.filter.join
    fields.nested.join

inductive PropertyKey where
  | paths
  | multiple
  | attributes
  | filter
  | nested

def nestedKind : String := "a map of property descriptors or a list of such maps"

def propertyKey (spelling : String) : Decoded PropertyKey :=
  match spelling with
  | "xpath" | "path" => .ok .paths
  | "multiple" => .ok .multiple
  | "attrib" | "attribute_names" => .ok .attributes
  | "filter" => .ok .filter
  | "properties" | "sub_properties" => .ok .nested
  | _ => fail (.unknownField spelling)

mutual
def property : Tree → Decoded PropertyDescriptor
  | .mapping _ entries => (propertyFields entries .none).map PropertyFields.close
  | .void => .ok PropertyFields.none.close
  | .scalar tag style text =>
    if style = .plain && text.isEmpty then .ok PropertyFields.none.close
    else refuse "a map" (.scalar tag style text)
  | tree => refuse "a map" tree

def propertyFields : List (Option String × Tree × Tree) → PropertyFields → Decoded PropertyFields
  | [], fields => .ok fields
  | (name, key, value) :: rest, fields => do
    let step := stepTo name
    match ← text key >>= propertyKey with
    | .paths =>
      let paths ← fill "xpath" fields.paths (optional (oneOrMany step) value)
      propertyFields rest { fields with paths }
    | .multiple =>
      let multiple ← fill "multiple" fields.multiple (under step (truth value))
      propertyFields rest { fields with multiple }
    | .attributes =>
      let attributes ← fill "attrib" fields.attributes (optional (oneOrMany step) value)
      propertyFields rest { fields with attributes }
    | .filter =>
      let filter ← fill "filter" fields.filter (optional (fun tree => under step (text tree)) value)
      propertyFields rest { fields with filter }
    | .nested =>
      if fields.nested.isSome then fail (.duplicateField "properties")
      else if ← isLeftOut value then propertyFields rest { fields with nested := some none }
      else
        let nested ← under step (nested value)
        propertyFields rest { fields with nested := some (some nested) }

def nested : Tree → Decoded (Nested (String × PropertyDescriptor))
  | .mapping tag entries =>
    if tag.any Tag.isOwn then fail (.unfit "tagged value" nestedKind)
    else (properties entries []).map .group
  | .sequence tag items =>
    if tag.any Tag.isOwn then fail (.unfit "tagged value" nestedKind)
    else (templates 0 items).map .templates
  | .scalar tag style text =>
    if tag.any Tag.isOwn then fail (.unfit "tagged value" nestedKind)
    else refuse nestedKind (.scalar tag style text)
  | tree => refuse nestedKind tree

def properties : List (Option String × Tree × Tree) → List (String × PropertyDescriptor) →
    Decoded (List (String × PropertyDescriptor))
  | [], decoded => .ok decoded
  | (name, key, value) :: rest, decoded => do
    let key ← text key
    let value ← under (stepTo name) (property value)
    properties rest (setEntry key value decoded)

def templates (index : Nat) : List Tree → Decoded (List (List (String × PropertyDescriptor)))
  | [] => .ok []
  | item :: rest => do
    let first ← under (.item index) (template item)
    let others ← templates (index + 1) rest
    .ok (first :: others)

def template : Tree → Decoded (List (String × PropertyDescriptor))
  | .mapping _ entries => properties entries []
  | .void => .ok []
  | .scalar tag style text =>
    if style = .plain && text.isEmpty then .ok [] else refuse "a map" (.scalar tag style text)
  | tree => refuse "a map" tree
end

structure EntityFields where
  path : Option String
  properties : Option (List (String × PropertyDescriptor))
  idAttribute : Option (Option String)

def entityFields : List (Option String × Tree × Tree) → EntityFields → Decoded EntityFields
  | [], fields => .ok fields
  | (name, key, value) :: rest, fields => do
    let step := stepTo name
    match ← text key with
    | "xpath" | "path" =>
      let path ← fill "xpath" fields.path (under step (text value))
      entityFields rest { fields with path }
    | "properties" =>
      let properties ←
        fill "properties" fields.properties (under step (entries value >>= (properties · [])))
      entityFields rest { fields with properties }
    | "id_attribute" | "id_attrib" =>
      let idAttribute ←
        fill "id_attribute" fields.idAttribute
          (optional (fun tree => under step (text tree)) value)
      entityFields rest { fields with idAttribute }
    | spelling => fail (.unknownField spelling)

def entity (tree : Tree) : Decoded EntityDescriptor := do
  let fields ← entityFields (← entries tree) ⟨none, none, none⟩
  match fields.path with
  | none => fail (.missingField "xpath")
  | some path => .ok ⟨path, fields.properties.getD [], fields.idAttribute.join⟩

def entities : List (Option String × Tree × Tree) → List (String × EntityDescriptor) →
    Decoded (List (String × EntityDescriptor))
  | [], decoded => .ok decoded
  | (name, key, value) :: rest, decoded => do
    let key ← text key
    let value ← under (stepTo name) (entity value)
    entities rest (setEntry key value decoded)

structure ManifestFields where
  collection : Option String
  entities : Option (List (String × EntityDescriptor))
  defaultIdAttribute : Option (Option String)
  namespaces : Option (List (String × String))
  mode : Option Mode

def isManifestKey (spelling : String) : Bool :=
  ["collection", "entities", "default_id_attribute", "namespaces", "mode"].contains spelling

/-- A value that nobody looks at; it must still be there. -/
def ignored : Tree → Decoded Unit
  | .fault => .error .unreadable
  | _ => .ok ()

def manifestFields : List (Option String × Tree × Tree) → ManifestFields → Decoded ManifestFields
  | [], fields => .ok fields
  | (name, key, value) :: rest, fields => do
    let step := stepTo name
    match ← text key with
    | "collection" =>
      let collection ← fill "collection" fields.collection (under step (text value))
      manifestFields rest { fields with collection }
    | "entities" =>
      let entities ←
        fill "entities" fields.entities (under step (entries value >>= (entities · [])))
      manifestFields rest { fields with entities }
    | "default_id_attribute" =>
      let defaultIdAttribute ←
        fill "default_id_attribute" fields.defaultIdAttribute
          (optional (fun tree => under step (text tree)) value)
      manifestFields rest { fields with defaultIdAttribute }
    | "namespaces" =>
      let namespaces ←
        fill "namespaces" fields.namespaces (under step (entries value >>= (textEntries · [])))
      manifestFields rest { fields with namespaces }
    | "mode" =>
      let mode ← fill "mode" fields.mode (under step (mode value))
      manifestFields rest { fields with mode }
    | _ => do
      ignored value
      manifestFields rest fields

def manifest (tree : Tree) : Decoded ManifestDescriptor := do
  let fields ← manifestFields (← entries tree) ⟨none, none, none, none, none⟩
  match fields.collection, fields.entities with
  | none, _ => fail (.missingField "collection")
  | _, none => fail (.missingField "entities")
  | some collection, some entities =>
    .ok ⟨collection, entities, fields.defaultIdAttribute.join, fields.namespaces.getD [],
      fields.mode.getD .lenient⟩

end Decode

/-- The manifest that a YAML text writes; the text may hold nothing else. -/
def ManifestDescriptor.ofYaml (source : String) : Except ManifestFault ManifestDescriptor := do
  let document := Yaml.read source
  let descriptor ← Decode.manifest (document.tree Decode.isManifestKey)
  if document.sound then .ok descriptor else .error .unreadable

end Regesta
