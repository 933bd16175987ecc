import Regesta.Error

namespace Regesta

inductive Warning where
  | undefinedFilter (filter location : String)
  | unknownFilter (filter property : String)
  | missingId (entity idAttribute : String)
  | failedRecord (entity : String)
  | unreadableDocument
  | illFormedDocument
  deriving DecidableEq, Repr

def Warning.message : Warning → String
  | undefinedFilter filter location =>
    "Filter is undefined, property will be empty | filter=" ++ filter ++ " | property=" ++ location
  | unknownFilter filter property =>
    "Filter is undefined, returning null | filter=" ++ filter ++ " | property=" ++ property
  | missingId entity idAttribute =>
    "Entity has no identifier and will not be individually addressable | entity=" ++ entity ++
      " | attribute=" ++ idAttribute
  | failedRecord entity => "Failed to materialize entity, skipping | entity=" ++ entity
  | unreadableDocument => "Failed to read document, skipping"
  | illFormedDocument => "Skipping unparseable document"

structure Reported (α : Type) where
  warnings : List Warning
  result : Except Error α

namespace Reported

variable {α β : Type}

protected def pure (value : α) : Reported α := ⟨[], .ok value⟩

protected def bind (first : Reported α) (next : α → Reported β) : Reported β :=
  match first.result with
  | .error error => ⟨first.warnings, .error error⟩
  | .ok value => ⟨first.warnings ++ (next value).warnings, (next value).result⟩

instance : Monad Reported where
  pure := Reported.pure
  bind := Reported.bind

def warnAll (warnings : List Warning) : Reported Unit := ⟨warnings, .ok ()⟩

def warn (warning : Warning) : Reported Unit := warnAll [warning]

def fail (error : Error) : Reported α := ⟨[], .error error⟩

def ofExcept (result : Except Error α) : Reported α := ⟨[], result⟩

def forEach (items : List α) (action : α → Reported β) : Reported (List β) :=
  match items with
  | [] => Reported.pure []
  | item :: rest =>
    (action item).bind fun first => (forEach rest action).bind fun others =>
      Reported.pure (first :: others)

end Reported
end Regesta
