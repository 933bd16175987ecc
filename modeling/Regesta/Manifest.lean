import Regesta.Filter
import Regesta.Manifest.Descriptor
import Regesta.Namespace
import Regesta.Path

namespace Regesta

open Xml (ExpandedName)

inductive FilterRef where
  | known (filter : Filter)
  /-- A filter that nobody knows; the property is null. -/
  | unknown (name : String)
  deriving DecidableEq, Repr

inductive Property where
  | leaf (name : String) (paths : List Path) (multiple : Bool) (attributes : List ExpandedName)
      (filter : Option FilterRef)
  /-- An object, or a list of objects, for the selected nodes; without paths for the node itself. -/
  | group (name : String) (paths : List Path) (multiple : Bool) (properties : List Property)
  /-- A list of objects for the node at hand, one for each set. -/
  | templates (name : String) (sets : List (List Property))

namespace Property

def name : Property → String
  | leaf name .. | group name .. | templates name _ => name

def paths : Property → List Path
  | leaf _ paths .. | group _ paths .. => paths
  | templates .. => []

def multiple : Property → Bool
  | leaf _ _ multiple .. | group _ _ multiple _ => multiple
  | templates .. => true

def attributes : Property → List ExpandedName
  | leaf _ _ _ attributes _ => attributes
  | _ => []

def filter : Property → Option FilterRef
  | leaf _ _ _ _ filter => filter
  | _ => none

end Property

structure Entity where
  name : String
  root : Path
  idAttribute : ExpandedName
  properties : List Property

structure Manifest where
  collection : String
  entities : List Entity
  defaultIdAttribute : ExpandedName
  namespaces : Namespaces
  mode : Mode

def Manifest.entity (manifest : Manifest) (name : String) : Except Error Entity :=
  match manifest.entities.find? fun entity => entity.name == name with
  | some entity => .ok entity
  | none => .error (.unknownEntity name)

end Regesta
