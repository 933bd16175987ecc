import Regesta.Xml.Node
import Regesta.Xml.Prolog

/-!
Documents in the making: open elements, the namespaces in force, and how nodes are added. An entity
may end inside a start tag. Such a tag opens nothing, but its attributes go to the tag after it, and
character data on its two sides stays apart.
-/
namespace Regesta.Xml

/-- The namespace of namespace declarations, to which nothing may be bound. -/
def xmlnsUri : String := "http://www.w3.org/" ++ "2000/xmlns/"

/-- Namespaces in force, the nearest first; the label `none` stands for names without a label. -/
abbrev Bindings := List (Option (List Char) × String)

def Bindings.uri? (bindings : Bindings) (label : Option (List Char)) : Option String :=
  (bindings.find? fun binding => binding.1 == label).map Prod.snd

structure TagAttributes where
  declared : Bindings
  written : List (WrittenName × String)

namespace TagAttributes

def empty : TagAttributes := ⟨[], []⟩

def add? (tag : TagAttributes) (name : WrittenName) (value : String) : Option TagAttributes :=
  if name.label = "xmlns".toList then
    if value = xmlnsUri then none
    else if name.stem = "xml".toList then if value = xmlUri then some tag else .none
    else if value = xmlUri then none
    else if (tag.declared.uri? (some name.stem)).isSome then none
    else some { tag with declared := tag.declared ++ [(some name.stem, value)] }
  else if name.stem = "xmlns".toList then
    if value = xmlUri || value = xmlnsUri then none
    else some { tag with declared := tag.declared ++ [(none, value)] }
  else some { tag with written := tag.written ++ [(name, value)] }

end TagAttributes

/-- The name that a written attribute name stands for: without a label it has no namespace. -/
def attributeName? (bindings : Bindings) (name : WrittenName) : Option ExpandedName :=
  let localName := String.ofList name.stem
  if name.label = "xml".toList then some ⟨some xmlUri, localName⟩
  else if name.label.isEmpty then some ⟨none, localName⟩
  else (bindings.uri? (some name.label)).map fun uri => ⟨some uri, localName⟩

def elementName? (bindings : Bindings) (name : WrittenName) : Option ExpandedName :=
  let localName := String.ofList name.stem
  if name.label.isEmpty then some ⟨bindings.uri? none, localName⟩
  else (bindings.uri? (some name.label)).map fun uri => ⟨some uri, localName⟩

def resolveAttributes? (bindings : Bindings) :
    List (WrittenName × String) → List Attribute → Option (List Attribute)
  | [], attributes => some attributes
  | (written, value) :: rest, attributes => do
    let name ← attributeName? bindings written
    if attributes.any fun entry => entry.name == name then none
    else resolveAttributes? bindings rest (attributes ++ [⟨name, value⟩])

structure OpenElement where
  written : WrittenName
  name : ExpandedName
  attributes : List Attribute
  bindings : Bindings
  start : Passage
  /-- The nodes before the element in what holds it, last first. -/
  outer : List Node

structure Builder where
  /-- The nodes of the innermost open element so far, last first. -/
  nodes : List Node
  opened : List OpenElement
  count : Nat
  /-- Attributes of a start tag that broke off; they count for the tag after it. -/
  pending : TagAttributes
  /-- Whether a start tag has broken off behind the last node. -/
  parted : Bool

namespace Builder

def empty : Builder := ⟨[], [], 0, .empty, false⟩

def bindings (builder : Builder) : Bindings :=
  match builder.opened with
  | element :: _ => element.bindings
  | [] => []

def addNode (builder : Builder) (node : Node) : Builder :=
  { builder with nodes := node :: builder.nodes, parted := false }

def addText (builder : Builder) (value : List Char) : Builder :=
  match builder.parted, builder.nodes with
  | false, .text before :: earlier =>
    { builder with nodes := .text (before ++ String.ofList value) :: earlier }
  | _, _ => builder.addNode (.text (String.ofList value))

def addRun (builder : Builder) (value : List Char) : Builder :=
  if value.isEmpty then builder else builder.addText value

def addRemark (builder : Builder) : Remark → Builder
  | .comment value => builder.addNode (.comment (String.ofList value))
  | .instruction target value =>
    builder.addNode (.instruction (String.ofList target) (String.ofList value))

/-- The attributes that a tag has with those that are pending, and the bindings that it is read
with. After that nothing is pending. -/
def settle? (builder : Builder) (tag : TagAttributes) :
    Option ((List Attribute × Bindings) × Builder) := do
  let bindings := tag.declared ++ builder.bindings
  let attributes ← resolveAttributes? bindings tag.written []
  some ((attributes, bindings), { builder with pending := .empty })

def open? (builder : Builder) (written : WrittenName) (tag : TagAttributes) (start : Passage) :
    Option Builder := do
  let ((attributes, bindings), builder) ← builder.settle? tag
  let name ← elementName? bindings written
  let element : OpenElement := ⟨written, name, attributes, bindings, start, builder.nodes⟩
  some { builder with nodes := [], opened := element :: builder.opened }

/-- Closes the innermost open element at its end tag, which must have the name of its start tag.
Attributes that are pending there are lost, but must be in order. -/
def close? (builder : Builder) (written : WrittenName) (rest : Passage) : Option Builder := do
  let (_, builder) ← builder.settle? builder.pending
  match builder.opened with
  | [] => none
  | element :: opened =>
    if element.written = written then
      let source := (element.start.until? rest).map String.ofList
      let node := Node.element element.name element.attributes source builder.nodes.reverse
      some { builder with nodes := node :: element.outer, opened := opened }
    else none

end Builder

end Regesta.Xml
