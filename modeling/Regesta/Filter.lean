import Regesta.Text.Blank
import Regesta.Xml.Place

namespace Regesta

open Xml (Node Place)

inductive Filter where
  /-- The first hundred characters of the full text. -/
  | truncate
  | tagName
  /-- The parts of a person's name with commas between them; the normalized text of other nodes. -/
  | joinedChildren
  deriving DecidableEq, Repr

namespace Filter

def truncateLength : Nat := 100

def ofName? (name : String) : Option Filter :=
  match Text.trimmed name with
  | "truncate_100" | "get_substring_100" => some truncate
  | "tag_name" | "get_node_name" => some tagName
  | "joined_child_text" | "get_pers_name" => some joinedChildren
  | _ => none

def name : Filter → String
  | truncate => "truncate_100"
  | tagName => "tag_name"
  | joinedChildren => "joined_child_text"

/-- Whether the filter works on a text without its node. -/
def acceptsText : Filter → Bool
  | truncate => true
  | tagName | joinedChildren => false

def truncated (text : String) : String := String.ofList (text.toList.take truncateLength)

def partText? (node : Node) : Option (List Char) :=
  match node with
  | .text _ | .element .. =>
    let text := Text.trim node.fullText.toList
    if text.isEmpty then none else some text
  | _ => none

def joinedParts (content : List Node) : String :=
  String.ofList ([',', ' '].intercalate (content.filterMap partText?))

def apply (filter : Filter) (place : Place) : String :=
  match filter with
  | truncate => truncated place.fullText
  | tagName => place.tag
  | joinedChildren =>
    if place.isElement && place.tag == "persName" then joinedParts place.content
    else Text.normalized place.fullText

def applyText? (filter : Filter) (text : String) : Option String :=
  match filter with
  | truncate => some (truncated text)
  | tagName | joinedChildren => none

end Filter
end Regesta
