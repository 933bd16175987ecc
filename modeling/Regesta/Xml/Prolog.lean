import Regesta.Xml.Markup
import Regesta.Xml.Passage

namespace Regesta.Xml

abbrev Entities := List (List Char × Passage)

def Entities.passage? (entities : Entities) (name : List Char) : Option Passage :=
  (entities.find? fun entity => entity.1 == name).map Prod.snd

def declarationSpaces? (text : List Char) : Option (List Char) :=
  if startsSpace text then some (skipSpaces text)
  else if "?>".toList.isPrefixOf text || text.isEmpty then some text
  else none

def declared? (name : String) (text : List Char) : Option (List Char) :=
  if name.toList.isPrefixOf text then (writtenAttribute? text).map Prod.snd else some text

def declaration? (text : List Char) : Option (List Char) := do
  let rest ← exactly? "<?xml " text
  let rest := skipSpaces rest
  if "version".toList.isPrefixOf rest then
    let rest ← declared? "version" rest
    let rest ← declarationSpaces? rest
    let encoded ← declared? "encoding" rest
    let rest ← if "encoding".toList.isPrefixOf rest then declarationSpaces? encoded else some rest
    let rest ← declared? "standalone" rest
    exactly? "?>" (skipSpaces rest)
  else none

def externalId? (text : List Char) : Option (Bool × List Char) :=
  match exactly? "SYSTEM" text, exactly? "PUBLIC" text with
  | some rest, _ => do
    let rest ← spaces? rest
    let (_, rest) ← quoted? rest
    some (true, rest)
  | _, some rest => do
    let rest ← spaces? rest
    let (_, rest) ← quoted? rest
    let rest ← spaces? rest
    let (_, rest) ← quoted? rest
    some (true, rest)
  | _, _ => some (false, text)

/-- What an entity stands for: a text of its own, or nothing when it lies outside the document. -/
def entityText? (general : Bool) (text : List Char) : Option (Option Passage × List Char) :=
  match quoted? text with
  | some (value, rest) => some (some ⟨value, text.drop (value.length + 1)⟩, rest)
  | none => do
    let (external, rest) ← externalId? text
    if !external then none
    else if !general then some (none, rest)
    else
      match exactly? "NDATA" (skipSpaces rest) with
      | none => some (none, skipSpaces rest)
      | some rest => do
        let rest ← spaces? rest
        let (_, rest) ← name? rest
        some (none, rest)

def entity? (text : List Char) : Option (Entities × List Char) := do
  let rest ← spaces? text
  let (general, rest) ←
    match rest with
    | '%' :: rest => (spaces? rest).map (false, ·)
    | _ => some (true, rest)
  let (name, rest) ← name? rest
  let rest ← spaces? rest
  let (value, rest) ← entityText? general rest
  match skipSpaces rest with
  | '>' :: rest => some (value.toList.map (name, ·), rest)
  | _ => none

/-- A declaration that has no bearing on the tree, up to its `>`. -/
def otherDeclaration? (text : List Char) : Option (List Char) :=
  if ["<!ELEMENT", "<!ATTLIST", "<!NOTATION"].any fun start => start.toList.isPrefixOf text then
    (Text.splitFirst ['>'] text).map Prod.snd
  else none

inductive Remark where
  | comment (value : List Char)
  | instruction (target value : List Char)

def remark? (text : List Char) : Option (Option (Remark × List Char)) :=
  match exactly? "<!--" text with
  | some rest => (comment? rest).map fun (value, rest) => some (.comment value, rest)
  | none =>
    if "<?".toList.isPrefixOf text then
      (instruction? text).map fun ((target, value), rest) => some (.instruction target value, rest)
    else some none

def remarks? : Nat → List Char → Option (List Remark × List Char)
  | 0, _ => none
  | fuel + 1, text => do
    match ← remark? (skipSpaces text) with
    | none => some ([], skipSpaces text)
    | some (remark, rest) =>
      let (remarks, rest) ← remarks? fuel rest
      some (remark :: remarks, rest)

def declarations? : Nat → List Char → Option ((List Remark × Entities) × List Char)
  | 0, _ => none
  | fuel + 1, text => do
    let text := skipSpaces text
    match exactly? "<!ENTITY" text with
    | some rest =>
      let (entity, rest) ← entity? rest
      let ((remarks, entities), rest) ← declarations? fuel rest
      some ((remarks, entity ++ entities), rest)
    | none =>
      match ← remark? text with
      | some (remark, rest) =>
        let ((remarks, entities), rest) ← declarations? fuel rest
        some ((remark :: remarks, entities), rest)
      | none =>
        match text with
        | ']' :: rest =>
          match skipSpaces rest with
          | '>' :: rest => some (([], []), rest)
          | _ => none
        | _ =>
          let rest ← otherDeclaration? text
          declarations? fuel rest

def documentType? (text : List Char) : Option ((List Remark × Entities) × List Char) := do
  let rest ← spaces? text
  let (_, rest) ← name? rest
  let (_, rest) ← externalId? (skipSpaces rest)
  match skipSpaces rest with
  | '>' :: rest => some (([], []), rest)
  | '[' :: rest => declarations? (rest.length + 1) rest
  | _ => none

end Regesta.Xml
