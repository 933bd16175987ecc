import Regesta.Xml.Builder
import Regesta.Xml.Entity

namespace Regesta.Xml

structure Scope where
  entities : Entities
  remaining : Nat
  following : List Char

inductive TagEnd where
  | opened
  | empty
  /-- The text ends inside the tag, which then opens nothing. -/
  | missing
  deriving DecidableEq

def tagAttributes? (scope : Scope) :
    Nat → Nat → TagAttributes → List Char →
      Option ((TagAttributes × TagEnd × Nat) × List Char)
  | 0, _, _, _ => none
  | _ + 1, count, tag, [] => some ((tag, .missing, count), [])
  | fuel + 1, count, tag, text =>
    match skipSpaces text with
    | '/' :: '>' :: rest => some ((tag, .empty, count), rest)
    | '>' :: rest => some ((tag, .opened, count), rest)
    | rest => do
      if !startsSpace text then none
      else
        let ((name, value), rest) ← writtenAttribute? rest
        let (value, count) ← attributeText scope.entities scope.remaining count value
        let tag ← tag.add? name (String.ofList value)
        tagAttributes? scope fuel count tag rest

def startTag? (scope : Scope) (builder : Builder) (text : List Char) :
    Option ((Builder × TagEnd) × List Char) := do
  let (written, rest) ← writtenName? (text.drop 1)
  if written.label = "xmlns".toList then none
  else
    let ((tag, tagEnd, count), rest) ←
      tagAttributes? scope (rest.length + 1) builder.count builder.pending rest
    let builder := { builder with count }
    match tagEnd with
    | .missing => some (({ builder with pending := tag, parted := true }, tagEnd), rest)
    | .opened => do
      let builder ← builder.open? written tag ⟨text, scope.following⟩
      some ((builder, tagEnd), rest)
    | .empty => do
      let builder ← builder.open? written tag ⟨text, scope.following⟩
      let builder ← builder.close? written ⟨rest, scope.following⟩
      some ((builder, tagEnd), rest)

/-- Adds one character to character data, last first. A line ends with a line feed, however it was
written; `final` tells that nothing follows in this run. -/
def pushChar (buffer : List Char) (c : Char) (final : Bool) : List Char :=
  match buffer with
  | '\r' :: earlier =>
    if final && c = '\r' then '\n' :: '\n' :: earlier
    else if c = '\n' then '\n' :: earlier
    else c :: '\n' :: earlier
  | _ => if final && c = '\r' then '\n' :: buffer else c :: buffer

def sectionText (value : List Char) : List Char :=
  let rec go (buffer : List Char) : List Char → List Char
    | [] => buffer.reverse
    | c :: rest => go (pushChar buffer c rest.isEmpty) rest
  go [] value

def runEnds : List Char → Bool
  | [] => true
  | c :: _ => c = '<'

abbrev Expansion := Builder → Passage → Option Builder

/-- Reads character data up to the next `<`. A character that is given by a reference stands as it
is, and so does the one after it. -/
def characterRun (entities : Entities) (inside : Bool) (expand : Expansion) :
    Nat → List Char → Bool → Builder → List Char → Option (Builder × List Char)
  | 0, _, _, _, _ => none
  | _ + 1, buffer, _, builder, [] => some (builder.addRun buffer.reverse, [])
  | fuel + 1, buffer, literal, builder, c :: rest =>
    if c = '<' then some (builder.addRun buffer.reverse, c :: rest)
    else if c = '&' then do
      let (reference, rest) ← reference? rest
      match reference with
      | .character c =>
        if inside then
          characterRun entities inside expand fuel (pushChar buffer c (runEnds rest)) literal
            builder rest
        else characterRun entities inside expand fuel (c :: buffer) true builder rest
      | .entity name =>
        let passage ← entities.passage? name
        let builder ← expand (builder.addRun buffer.reverse) passage
        characterRun entities inside expand fuel [] false builder rest
    else if !isAllowed c || "]]>".toList.isPrefixOf (c :: rest) then none
    else if literal then characterRun entities inside expand fuel (c :: buffer) false builder rest
    else
      characterRun entities inside expand fuel (pushChar buffer c (runEnds rest)) false builder rest

/-- Reads the content of an element, or the text of an entity. `levels` counts the contents that
this text is inside of: at its end tag a content ends, and with the last one the reading does.
`tagged` tells whether this text has had a start tag, without which it may not have an end tag. -/
def content? (scope : Scope) (expand : Expansion) :
    Nat → Nat → Bool → Builder → List Char → Option (Builder × List Char)
  | 0, _, _, _, _ => none
  | _ + 1, _, _, builder, [] => some (builder, [])
  | fuel + 1, levels, tagged, builder, text =>
    match text with
    | '<' :: '/' :: rest => do
      if !tagged then none
      else
        let (written, rest) ← writtenName? rest
        match skipSpaces rest with
        | '>' :: rest =>
          let builder ← builder.close? written ⟨rest, scope.following⟩
          if levels ≤ 1 then some (builder, rest)
          else content? scope expand fuel (levels - 1) tagged builder rest
        | _ => none
    | '<' :: '!' :: _ =>
      match exactly? "<![CDATA[" text with
      | some rest => do
        let (value, rest) ← section? rest
        content? scope expand fuel levels tagged (builder.addText (sectionText value)) rest
      | none => do
        let (value, rest) ← exactly? "<!--" text >>= comment?
        content? scope expand fuel levels tagged (builder.addRemark (.comment value)) rest
    | '<' :: '?' :: _ => do
      let ((target, value), rest) ← instruction? text
      content? scope expand fuel levels tagged (builder.addRemark (.instruction target value)) rest
    | '<' :: _ => do
      let ((builder, tagEnd), rest) ← startTag? scope builder text
      let levels := if tagEnd = .opened then levels + 1 else levels
      content? scope expand fuel levels true builder rest
    | _ => do
      let (builder, rest) ←
        characterRun scope.entities (scope.remaining ≠ referenceDepth) expand (text.length + 1) []
          false builder text
      content? scope expand fuel levels tagged builder rest

def expansion (entities : Entities) : Nat → Expansion
  | 0, _, _ => none
  | remaining + 1, builder, passage => do
    let count ← countReference? (remaining + 1) builder.count
    let (builder, _) ←
      content? ⟨entities, remaining, passage.following⟩ (expansion entities remaining)
        (passage.text.length + 1) 1 false { builder with count } passage.text
    some { builder with count := settleCount (remaining + 1) builder.count }

def outermost? (entities : Entities) (builder : Builder) (text : List Char) :
    Option (Builder × List Char) := do
  let scope : Scope := ⟨entities, referenceDepth, []⟩
  let ((builder, tagEnd), rest) ← startTag? scope builder text
  if tagEnd = .opened then
    content? scope (expansion entities referenceDepth) (rest.length + 1) 1 true builder rest
  else some (builder, rest)

def outsideRoot? (builder : Builder) (text : List Char) : Option (Builder × List Char) := do
  let (remarks, rest) ← remarks? (text.length + 1) text
  some (remarks.foldl Builder.addRemark builder, rest)

def Document.read? (source : String) : Option Document := do
  let text := source.toList
  let text := if text.head? = some '\uFEFF' then text.drop 1 else text
  let text ← if "<?xml ".toList.isPrefixOf text then declaration? text else some text
  let (builder, text) ← outsideRoot? .empty text
  let (builder, entities, text) ←
    match exactly? "<!DOCTYPE" text with
    | none => some (builder, [], text)
    | some rest => do
      let ((remarks, entities), rest) ← documentType? rest
      let (builder, rest) ← outsideRoot? (remarks.foldl Builder.addRemark builder) rest
      some (builder, entities, rest)
  let (builder, text) ←
    if text.head? = some '<' then outermost? entities builder text else some (builder, text)
  let (builder, text) ← outsideRoot? builder text
  if text.isEmpty && builder.opened.isEmpty && builder.nodes.any Node.isElement then
    some ⟨builder.nodes.reverse⟩
  else none

end Regesta.Xml
