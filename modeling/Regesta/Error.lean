import Regesta.Manifest.Fault

namespace Regesta

inductive PathFlaw where
  | empty
  | trailingSlash
  | closingBracket
  | openingBracket
  | openLiteral
  | attributeStep
  | axis (name : String)
  | label (text : String)
  | nodeTest (text : String)
  | emptyPredicate
  | predicate (body : String)
  | nestedPredicate
  | afterPredicate
  | position
  | positionZero
  | openBrace
  | notAName
  deriving DecidableEq, Repr

def PathFlaw.message : PathFlaw → String
  | empty => "empty path"
  | trailingSlash => "path must not end with '/'"
  | closingBracket => "unbalanced ']'"
  | openingBracket => "unbalanced '['"
  | openLiteral => "unterminated string literal"
  | attributeStep => "attribute steps are not supported, use 'attrib' instead"
  | axis name => "unsupported axis '" ++ name ++ "'"
  | label text => "invalid prefix '" ++ text ++ "'"
  | nodeTest text => "invalid node test '" ++ text ++ "'"
  | emptyPredicate => "empty predicate"
  | predicate body => "unsupported predicate '[" ++ body ++ "]'"
  | nestedPredicate => "nested predicates are not supported"
  | afterPredicate => "unexpected text after predicate"
  | position => "position out of range"
  | positionZero => "positions start at 1"
  | openBrace => "unterminated '\x7b' in name"
  | notAName => "not a valid XML name"

def maximalDepth : Nat := 32

inductive ManifestFlaw where
  | blankCollection
  | noEntities
  | entityName
  | tooDeep
  | blankProperty
  | noPath
  | templates
  | mixedNested
  | noSource
  /-- A filter that needs a node, on a property with attributes. -/
  | filterNeedsNode (filter : String)
  deriving DecidableEq, Repr

def ManifestFlaw.message : ManifestFlaw → String
  | blankCollection => "must not be empty"
  | noEntities => "no entity types declared"
  | entityName => "entity names may only contain letters, digits, '-' and '_'"
  | tooDeep => "properties nested deeper than " ++ toString maximalDepth ++ " levels"
  | blankProperty => "empty property name"
  | noPath => "xpath must list at least one path"
  | templates => "a list of property templates requires multiple: true and no xpath"
  | mixedNested => "attrib and filter cannot be combined with nested properties"
  | noSource => "a property needs an xpath or nested properties"
  | filterNeedsNode filter =>
    "filter '" ++ filter ++ "' needs a node and cannot be applied to attribute values"

inductive FileFault where
  | missing
  | notDirectory
  | isDirectory
  | nameTooLong
  | notText
  | other (reason : String)
  deriving DecidableEq, Repr

def FileFault.message : FileFault → String
  | missing => "No such file or directory (os error 2)"
  | notDirectory => "Not a directory (os error 20)"
  | isDirectory => "Is a directory (os error 21)"
  | nameTooLong => "File name too long (os error 36)"
  | notText => "stream did not contain valid UTF-8"
  | other reason => reason

inductive Error where
  | unreadableManifest (fault : ManifestFault)
  | invalidManifest (location : String) (flaw : ManifestFlaw)
  | invalidPath (path : String) (flaw : PathFlaw)
  | unboundLabel (label : String)
  | unknownFilter (filter location : String)
  | noMatch (paths property : String)
  | unknownEntity (entity : String)
  | notFound (entity id : String)
  | unsupportedFormat (format : String)
  | illFormedResource (resource : String)
  /-- The source of an entity that is closed further up in its document than it is opened. -/
  | invertedSource (entity id : String)
  | file (fault : FileFault)
  | missingCollection (directory : String)
  | watchInterval (text : String)
  deriving DecidableEq, Repr

namespace Error

def message : Error → String
  | unreadableManifest _ => "Failed to parse manifest"
  | invalidManifest location flaw => "Invalid manifest at " ++ location ++ ": " ++ flaw.message
  | invalidPath path flaw => "Invalid selection path '" ++ path ++ "': " ++ flaw.message
  | unboundLabel label => "Namespace prefix '" ++ label ++ "' is not declared in the manifest"
  | unknownFilter filter location => "Unknown filter '" ++ filter ++ "' referenced by " ++ location
  | noMatch paths property => "No node matched '" ++ paths ++ "' for property '" ++ property ++ "'"
  | unknownEntity entity => "Unknown entity type: " ++ entity
  | notFound entity id => "No " ++ entity ++ " entity with id '" ++ id ++ "'"
  | unsupportedFormat format =>
    "Invalid format: '" ++ format ++ "'. Only 'xml', 'json' and 'record' are supported"
  | illFormedResource resource => "Failed to parse resource " ++ resource
  | invertedSource entity id =>
    "The source of " ++ entity ++ " entity '" ++ id ++ "' ends before it starts"
  | file fault => "IO error: " ++ fault.message
  | missingCollection directory =>
    "Configuration error: Collection directory not found: " ++ directory
  | watchInterval text =>
    "Configuration error: WATCH_INTERVAL_SECS is not a number: '" ++ text ++ "'"

/-- Whether the manifest is at fault, and not data, files or callers. -/
def isConfiguration : Error → Bool
  | unreadableManifest _ | invalidManifest _ _ | invalidPath _ _ | unboundLabel _
  | unknownFilter _ _ => true
  | _ => false

def exitCode : Error → Nat
  | invertedSource _ _ => 101
  | _ => 1

end Error
end Regesta
