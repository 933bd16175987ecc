import Regesta.Namespace
import Regesta.Path
import Regesta.Text.Letter
import Regesta.Text.Numeral

namespace Regesta.Path

open Text (isLetter isNumber isBlank trim)

/-- Cuts a text at the slashes outside brackets and quotes, given the brackets that are open and the
quote that is. -/
def segments (depth : Nat) (quote : Option Char) : List Char → Except PathFlaw (List (List Char))
  | [] =>
    if quote.isSome then .error .openLiteral
    else if depth ≠ 0 then .error .openingBracket
    else .ok [[]]
  | c :: rest =>
    match quote with
    | some q =>
      (segments depth (if c = q then none else some q) rest).map (Text.extendFirst c)
    | none =>
      if c = '\'' || c = '"' then (segments depth (some c) rest).map (Text.extendFirst c)
      else if c = '[' then (segments (depth + 1) none rest).map (Text.extendFirst c)
      else if c = ']' then
        if depth = 0 then .error .closingBracket
        else (segments (depth - 1) none rest).map (Text.extendFirst c)
      else if c = '/' && depth = 0 then (segments depth none rest).map ([] :: ·)
      else (segments depth none rest).map (Text.extendFirst c)

mutual
def predicateBodies : List Char → List (List Char) × Option PathFlaw
  | [] => ([], none)
  | c :: rest =>
    if isBlank c then predicateBodies rest
    else if c = '[' then restOfBody none [] rest
    else ([], some .afterPredicate)

def restOfBody (quote : Option Char) (body : List Char) :
    List Char → List (List Char) × Option PathFlaw
  | [] => ([], some .openingBracket)
  | c :: rest =>
    match quote with
    | some q => restOfBody (if c = q then none else some q) (c :: body) rest
    | none =>
      if c = '\'' || c = '"' then restOfBody (some c) (c :: body) rest
      else if c = '[' then ([], some .nestedPredicate)
      else if c = ']' then
        let (bodies, flaw) := predicateBodies rest
        (body.reverse :: bodies, flaw)
      else restOfBody none (c :: body) rest
end

/-- Names in paths: a letter or underscore, then letters, numbers, underscores, dots and hyphens. -/
def isName : List Char → Bool
  | [] => false
  | c :: rest =>
    (isLetter c || c = '_') &&
      rest.all fun c => isLetter c || isNumber c || c = '_' || c = '.' || c = '-'

def refuse {α : Type} (path : String) (flaw : PathFlaw) : Except Error α :=
  .error (.invalidPath path flaw)

def labelUri (namespaces : Namespaces) (path : String) (label : List Char) : Except Error String :=
  if isName label then namespaces.resolve (String.ofList label)
  else refuse path (.label (String.ofList label))

def nodeTest (namespaces : Namespaces) (path : String) (test : List Char) :
    Except Error NodeTest :=
  if test = ['*'] then .ok .element
  else if test = "node()".toList then .ok .node
  else if test = "text()".toList then .ok .text
  else
    match Text.splitFirst [':'] test with
    | some (label, stem) => do
      let uri ← labelUri namespaces path label
      if stem = ['*'] then .ok (.within uri)
      else if isName stem then .ok (.name uri (String.ofList stem))
      else refuse path (.nodeTest (String.ofList test))
    | none =>
      if isName test then .ok (.tag (String.ofList test))
      else refuse path (.nodeTest (String.ofList test))

def maximalPosition : Nat := 0xFFFFFFFFFFFFFFFF

def positionTest (path : String) (digits : List Char) : Except Error Predicate :=
  match Text.natural? 10 digits with
  | none => refuse path .position
  | some n =>
    if maximalPosition < n then refuse path .position
    else if n = 0 then refuse path .positionZero
    else .ok (.position n)

def literal? : List Char → Option (List Char)
  | [] => none
  | q :: rest =>
    if q = '\'' || q = '"' then
      match Text.splitFirst [q] rest with
      | some (value, []) => some value
      | _ => none
    else none

def endsAttributeName (c : Char) : Bool := isBlank c || c = '=' || c = '[' || c = ']'

/-- The name in an attribute predicate, after its `@`, and the value that it is compared with. -/
def attributeParts? (text : List Char) : Option (List Char × Option (List Char)) :=
  let (name, rest) := text.span fun c => !endsAttributeName c
  if name.isEmpty then none
  else
    match Text.trimStart rest with
    | [] => some (name, none)
    | '=' :: rest => (literal? (Text.trimStart rest)).map fun value => (name, some value)
    | _ => none

def predicate (namespaces : Namespaces) (path : String) (body : List Char) :
    Except Error Predicate :=
  let body := trim body
  let unsupported := PathFlaw.predicate (String.ofList body)
  if body.isEmpty then refuse path .emptyPredicate
  else if body.all (Text.isDigitOf 10) then positionTest path body
  else if body = "last()".toList then .ok .last
  else
    match body with
    | '@' :: rest =>
      match attributeParts? rest with
      | none => refuse path unsupported
      | some (name, value) => do
        let name ← namespaces.name (String.ofList name)
        match value with
        | none => .ok (.hasAttribute name)
        | some value => .ok (.attributeIs name (String.ofList value))
    | _ =>
      match nodeTest namespaces path body with
      | .ok test => .ok (.hasChild test)
      | .error _ => refuse path unsupported

def predicates (namespaces : Namespaces) (path : String) (text : List Char) :
    Except Error (List Predicate) := do
  let (bodies, flaw) := predicateBodies text
  let predicates ← bodies.mapM (predicate namespaces path)
  match flaw with
  | some flaw => refuse path flaw
  | none => .ok predicates

/-- The axis that a step names, and its test; the child axis goes without saying. -/
def axisAndTest (path : String) (text : List Char) : Except Error (Axis × List Char) :=
  match Text.splitFirst [':', ':'] text with
  | none => .ok (.child, trim text)
  | some (name, test) =>
    match Axis.ofName? (String.ofList (trim name)) with
    | some axis => .ok (axis, trim test)
    | none => refuse path (.axis (String.ofList name))

def step (namespaces : Namespaces) (path : String) (segment : List Char) : Except Error Step :=
  if segment = ['.'] then .ok ⟨.self, .node, []⟩
  else if segment = ['.', '.'] then .ok ⟨.parent, .node, []⟩
  else if "@".toList.isPrefixOf segment || "attribute::".toList.isPrefixOf segment then
    refuse path .attributeStep
  else do
    let (front, rest) := segment.span (· ≠ '[')
    let (axis, test) ← axisAndTest path front
    let test ← nodeTest namespaces path test
    let predicates ← predicates namespaces path rest
    .ok ⟨axis, test, predicates⟩

/-- Reads segments: an empty one goes anywhere below, and the last may not be empty. -/
def steps (namespaces : Namespaces) (path : String) : List (List Char) → Except Error (List Step)
  | [] => .ok []
  | [segment] =>
    if segment.isEmpty then refuse path .trailingSlash
    else (step namespaces path segment).map ([·])
  | segment :: rest => do
    let first ← if segment.isEmpty then .ok Step.anywhere else step namespaces path segment
    let others ← steps namespaces path rest
    .ok (first :: others)

def readRoute (namespaces : Namespaces) (path : String) (text : List Char) : Except Error Route :=
  if text.isEmpty then refuse path .empty
  else if text = ['.'] then .ok .here
  else
    match segments 0 none text with
    | .error flaw => refuse path flaw
    | .ok segments =>
      let segments := segments.map trim
      if text.head? = some '/' then
        if segments.drop 1 = [[]] then .ok (.steps true [])
        else (steps namespaces path (segments.drop 1)).map (.steps true)
      else (steps namespaces path segments).map (.steps false)

def read (namespaces : Namespaces) (path : String) : Except Error Path :=
  let text := trim path.toList
  (readRoute namespaces path text).map fun route => ⟨String.ofList text, route⟩

end Regesta.Path
