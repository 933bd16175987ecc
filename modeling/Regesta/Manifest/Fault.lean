import Regesta.Text.Quoted
import Regesta.Text.Split

namespace Regesta

inductive FaultStep where
  | key (name : String)
  /-- Below a key that does not stand there itself, or is no scalar. -/
  | unnamed
  | item (index : Nat)
  deriving DecidableEq, Repr

def FaultStep.extend (holder : String) : FaultStep → String
  | key name => holder ++ "." ++ name
  | unnamed => holder ++ ".?"
  | item index => holder ++ "[" ++ toString index ++ "]"

def FaultStep.name : FaultStep → String
  | key name => name
  | unnamed => "?"
  | item index => "[" ++ toString index ++ "]"

inductive FaultCause where
  | unknownField (name : String)
  | missingField (name : String)
  | duplicateField (name : String)
  | unknownVariant (name : String)
  | neitherOneNorMany
  | unfit (found asked : String)
  | belied (text asked : String)
  /-- A tag of the document's own where none may stand. -/
  | ownTag
  deriving DecidableEq, Repr

def FaultCause.message : FaultCause → String
  | unknownField name => "unknown field `" ++ name ++ "`"
  | missingField name => "missing field `" ++ name ++ "`"
  | duplicateField name => "duplicate field `" ++ name ++ "`"
  | unknownVariant name => "unknown variant `" ++ name ++ "`"
  | neitherOneNorMany => "data did not match any variant of untagged enum OneOrMany"
  | unfit found asked => "invalid type: " ++ found ++ ", expected " ++ asked
  | belied text asked => "invalid value: string " ++ Text.quoted text ++ ", expected " ++ asked
  | ownTag => "tag of its own, expected a standard one or none"

inductive ManifestFault where
  | misfit (place : List FaultStep) (cause : FaultCause)
  /-- Not YAML, or nested too deep, or followed by more. -/
  | unreadable
  deriving DecidableEq, Repr

namespace ManifestFault

def under (step : FaultStep) : ManifestFault → ManifestFault
  | misfit place cause => misfit (step :: place) cause
  | unreadable => unreadable

/-- The sentence that tells a fault: its place, when that is not the whole, and its cause. -/
def message : ManifestFault → String
  | misfit [] cause => cause.message
  | misfit (step :: place) cause => place.foldl FaultStep.extend step.name ++ ": " ++ cause.message
  | unreadable => "not a readable text"

def namingPhrases : List String :=
  ["unknown field `", "missing field `", "duplicate field `", "unknown variant `"]

def naming? (text : List Char) : Option (List Char) :=
  namingPhrases.findSome? fun phrase => do
    let rest ← phrase.toList.isPrefixOf? text
    let (name, _) ← Text.splitFirst ['\x60'] rest
    some (phrase.toList ++ name ++ ['\x60'])

def firstNaming? : List Char → Option (List Char)
  | [] => none
  | c :: rest => (naming? (c :: rest)).or (firstNaming? rest)

def kindPhrases : List String :=
  ["data did not match any variant of untagged enum OneOrMany",
    "expected a map of property descriptors or a list of such maps"]

/-- The phrase by which a fault is known, when there is one. -/
def detail? (fault : ManifestFault) : Option String :=
  let text := fault.message.toList
  match firstNaming? text with
  | some phrase => some (String.ofList phrase)
  | none => kindPhrases.find? fun phrase => (Text.splitFirst phrase.toList text).isSome

end ManifestFault
end Regesta
