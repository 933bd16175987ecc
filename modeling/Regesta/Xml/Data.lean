import Regesta.Text.Blank
import Regesta.Value
import Regesta.Xml.Place

namespace Regesta.Xml

def attributeMembers (attributes : List Attribute) : Members :=
  attributes.foldl
    (fun members entry =>
      Members.set ("@" ++ entry.name.localName) (.text entry.value) members) []

/-- Adds the value of an element: the second of a name makes a list, further ones extend it. -/
def gather (name : String) (value : Value) : Members → Members
  | [] => [(name, value)]
  | (other, present) :: rest =>
    if other == name then
      match present with
      | .list items => (other, .list (items ++ [value])) :: rest
      | first => (other, .list [first, value]) :: rest
    else (other, present) :: gather name value rest

def ownText (content : List Node) : List Char :=
  content.flatMap fun node =>
    match node with
    | .text value => value.toList
    | _ => []

def assemble (members : Members) (text : List Char) : Value :=
  match members, text with
  | [], [] => .null
  | [], text => .text (String.ofList text)
  | members, [] => .object members
  | members, text => .object (Members.set "#text" (.text (String.ofList text)) members)

mutual
def contentValue : Node → Value
  | .element _ attributes _ content =>
    assemble (gatherAll (attributeMembers attributes) content) (Text.trim (ownText content))
  | .text _ => .null
  | .comment _ => .null
  | .instruction _ _ => .null

def gatherAll (members : Members) : List Node → Members
  | [] => members
  | node :: rest =>
    match node.name? with
    | some name => gatherAll (gather name.localName (contentValue node) members) rest
    | none => gatherAll members rest
end

def Place.toValue (place : Place) : Value :=
  match place with
  | .document content =>
    .object [("", assemble (gatherAll [] content) (Text.trim (ownText content)))]
  | .inside _ _ node => .object [(node.tag, contentValue node)]

end Regesta.Xml
