import Regesta.Evaluation

namespace Regesta

open Xml (Document Place)

structure Record where
  /-- Empty when the entity has no identifier. -/
  id : String
  entity : String
  resource : Option String
  properties : Members

namespace Record

def isAddressable (record : Record) : Bool := !record.id.isEmpty

def get? (record : Record) (path : String) : Option Value :=
  match Text.splitFirst ['.'] path.toList with
  | none => Members.get? record.properties path
  | some (name, rest) =>
    (Members.get? record.properties (String.ofList name)).bind fun value =>
      value.get? (String.ofList rest)

def toValue (record : Record) : Value :=
  .object
    ([("id", .text record.id), ("entity", .text record.entity)] ++
      record.resource.toList.map (fun resource => ("resource", .text resource)) ++
      [("properties", .object record.properties)])

end Record

namespace Entity

def id? (entity : Entity) (place : Place) : Option String :=
  ((place.attribute? entity.idAttribute).map Text.trimmed).filter fun id => !id.isEmpty

def places (entity : Entity) (document : Document) : List Place := entity.root.select document.root

/-- The record of an entity. One without an identifier is told of, and has an empty one. -/
def record (entity : Entity) (mode : Mode) (place : Place) : Reported Record := do
  let id ←
    match entity.id? place with
    | some id => pure id
    | none => do
      Reported.warn (.missingId entity.name entity.idAttribute.render)
      pure ""
  let properties ← evaluateSet mode place entity.properties
  pure ⟨id, entity.name, none, properties⟩

def recordOrSkip (entity : Entity) (mode : Mode) (place : Place) : List Warning × Option Record :=
  let reported := entity.record mode place
  match reported.result with
  | .ok record => (reported.warnings, some record)
  | .error _ => (reported.warnings ++ [.failedRecord entity.name], none)

def records (entity : Entity) (mode : Mode) (document : Document) : List Warning × List Record :=
  let outcomes := (entity.places document).map (entity.recordOrSkip mode)
  (outcomes.flatMap Prod.fst, outcomes.filterMap Prod.snd)

end Entity
end Regesta
