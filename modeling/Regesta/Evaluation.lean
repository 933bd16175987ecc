import Regesta.Manifest
import Regesta.Path.Selection
import Regesta.Value
import Regesta.Warning

namespace Regesta

open Xml (ExpandedName Place)

def firstAttribute? (attributes : List ExpandedName) (place : Place) : Option String :=
  attributes.findSome? place.attribute?

def filtered (property : String) (derive : Filter → Option String) :
    FilterRef → Reported (Option String)
  | .known filter => pure (derive filter)
  | .unknown filter => do
    Reported.warn (.unknownFilter filter property)
    pure none

/-- The text of a property at a node: that of the first listed attribute, or of the node itself when
no attribute is listed. A filter takes it as it is; without one its blanks are normalized. -/
def extract (property : String) (attributes : List ExpandedName) (filter : Option FilterRef)
    (place : Place) : Reported (Option String) :=
  if attributes.isEmpty then
    match filter with
    | some filter => filtered property (fun known => some (known.apply place)) filter
    | none => pure (some (Text.normalized place.fullText))
  else
    match firstAttribute? attributes place with
    | none => pure none
    | some value =>
      match filter with
      | some filter => filtered property (fun known => known.applyText? value) filter
      | none => pure (some (Text.normalized value))

/-- The nodes that paths select: path by path, and in document order for each. -/
def selectAll (paths : List Path) (context : Place) : List Place :=
  paths.flatMap fun path => path.select context

def joinPaths (paths : List Path) : String := " | ".intercalate (paths.map Path.source)

/-- The value of a single group whose paths select nothing. -/
def nothingSelected (mode : Mode) (property : String) (paths : List Path) : Reported Value :=
  match mode with
  | .lenient => pure .null
  | .strict => Reported.fail (.noMatch (joinPaths paths) property)

mutual
def Property.evaluate (mode : Mode) (context : Place) : Property → Reported Value
  | .leaf name paths multiple attributes filter =>
    if multiple then do
      let texts ← Reported.forEach (selectAll paths context) (extract name attributes filter)
      pure (.list (texts.map Value.ofText?))
    else
      match (selectAll paths context).head? with
      | none => pure .null
      | some place => do
        let text ← extract name attributes filter place
        pure (Value.ofText? text)
  | .group name paths multiple properties =>
    if paths.isEmpty then do
      let members ← evaluateSet mode context properties
      pure (if multiple then .list [.object members] else .object members)
    else if multiple then do
      let objects ←
        Reported.forEach (selectAll paths context) fun place =>
          evaluateSet mode place properties
      pure (.list (objects.map Value.object))
    else
      match (selectAll paths context).head? with
      | none => nothingSelected mode name paths
      | some place => do
        let members ← evaluateSet mode place properties
        pure (.object members)
  | .templates _ sets => do
    let objects ← evaluateSets mode context sets
    pure (.list objects)

def evaluateSet (mode : Mode) (context : Place) : List Property → Reported Members
  | [] => pure []
  | property :: rest => do
    let value ← property.evaluate mode context
    let others ← evaluateSet mode context rest
    pure ((property.name, value) :: others)

def evaluateSets (mode : Mode) (context : Place) : List (List Property) → Reported (List Value)
  | [] => pure []
  | set :: rest => do
    let members ← evaluateSet mode context set
    let others ← evaluateSets mode context rest
    pure (.object members :: others)
end

end Regesta
