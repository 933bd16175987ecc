namespace Regesta

/-- What to do where a single grouped property selects nothing. -/
inductive Mode where
  | lenient
  /-- The record fails; and no filter may be unknown. -/
  | strict
  deriving DecidableEq, Repr

/-- Properties of a property: one set, or a list of sets that each make an object. -/
inductive Nested (α : Type) where
  | group (properties : List α)
  | templates (sets : List (List α))

inductive PropertyDescriptor where
  | mk (paths : Option (List String)) (multiple : Bool) (attributes : Option (List String))
      (filter : Option String) (nested : Option (Nested (String × PropertyDescriptor)))

structure EntityDescriptor where
  path : String
  properties : List (String × PropertyDescriptor)
  idAttribute : Option String

structure ManifestDescriptor where
  collection : String
  entities : List (String × EntityDescriptor)
  defaultIdAttribute : Option String
  namespaces : List (String × String)
  mode : Mode

end Regesta
