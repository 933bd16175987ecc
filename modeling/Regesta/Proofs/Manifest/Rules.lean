import Regesta.Manifest.Validation

namespace Regesta

abbrev DescriptorSet := List (String × PropertyDescriptor)

namespace PropertyDescriptor

def paths : PropertyDescriptor → Option (List String)
  | mk paths .. => paths

def multiple : PropertyDescriptor → Bool
  | mk _ multiple .. => multiple

def attributes : PropertyDescriptor → Option (List String)
  | mk _ _ attributes .. => attributes

def filter : PropertyDescriptor → Option String
  | mk _ _ _ filter _ => filter

def nested : PropertyDescriptor → Option (Nested (String × PropertyDescriptor))
  | mk _ _ _ _ nested => nested

/-- A set stands directly inside a property: as its one set, or as one of its templates. -/
def Nests (descriptor : PropertyDescriptor) (inner : DescriptorSet) : Prop :=
  descriptor.nested = some (.group inner) ∨
    ∃ sets, descriptor.nested = some (.templates sets) ∧ inner ∈ sets

end PropertyDescriptor

inductive SetWithin (depth : Nat) (set : DescriptorSet) : Nat → DescriptorSet → Prop
  | here : SetWithin depth set depth set
  | inside {level : Nat} {outer inner : DescriptorSet} {name : String}
    {descriptor : PropertyDescriptor} :
    SetWithin depth set level outer → (name, descriptor) ∈ outer → descriptor.Nests inner →
    SetWithin depth set (level + 1) inner

def IsBlankText (text : String) : Prop := Text.trim text.toList = []

namespace Rules

variable (rules : Rules)

def Compiles (text : String) : Prop := ∃ path, Path.read rules.namespaces text = .ok path

def Names (text : String) : Prop := ∃ name, rules.namespaces.name text = .ok name

/-- The rules that a property keeps by itself, whatever is in its properties. -/
structure Allows (descriptor : PropertyDescriptor) : Prop where
  paths : ∀ texts, descriptor.paths = some texts →
    texts ≠ [] ∧ ∀ text ∈ texts, rules.Compiles text
  attributes : ∀ texts, descriptor.attributes = some texts → ∀ text ∈ texts, rules.Names text
  filter : rules.mode = .strict → ∀ name, descriptor.filter = some name →
    ∃ known, Filter.ofName? name = some known
  source : descriptor.nested = none → descriptor.paths ≠ none
  unmixed : descriptor.nested ≠ none →
    (descriptor.attributes = none ∨ descriptor.attributes = some []) ∧ descriptor.filter = none
  templates : ∀ sets, descriptor.nested = some (.templates sets) →
    descriptor.multiple = true ∧ descriptor.paths = none
  textual : ∀ name known texts, descriptor.filter = some name →
    Filter.ofName? name = some known → descriptor.attributes = some texts → texts ≠ [] →
    known.acceptsText = true

def AllowsSet (set : DescriptorSet) : Prop :=
  ∀ name descriptor, (name, descriptor) ∈ set → ¬ IsBlankText name ∧ rules.Allows descriptor

/-- Every set within this one, at whatever depth, is as the rules ask and not too deep. -/
def Obeyed (depth : Nat) (set : DescriptorSet) : Prop :=
  ∀ level inner, SetWithin depth set level inner → level ≤ maximalDepth ∧ rules.AllowsSet inner

structure AllowsEntity (name : String) (descriptor : EntityDescriptor) : Prop where
  named : ∃ c rest, name.toList = c :: rest ∧ c.isAlphanum = true ∧
    ∀ d ∈ rest, d.isAlphanum = true ∨ d = '-' ∨ d = '_'
  path : rules.Compiles descriptor.path
  idAttribute : ∀ text, descriptor.idAttribute = some text → rules.Names text
  properties : rules.Obeyed 1 descriptor.properties

end Rules

namespace ManifestDescriptor

def rules (descriptor : ManifestDescriptor) : Rules := ⟨descriptor.namespaces, descriptor.mode⟩

structure Obeys (descriptor : ManifestDescriptor) : Prop where
  collection : ¬ IsBlankText descriptor.collection
  filled : descriptor.entities ≠ []
  standard : descriptor.rules.Names (descriptor.defaultIdAttribute.getD standardIdAttribute)
  entities : ∀ name entity, (name, entity) ∈ descriptor.entities →
    descriptor.rules.AllowsEntity name entity

end ManifestDescriptor

end Regesta
