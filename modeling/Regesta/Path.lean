import Regesta.Xml.Node

namespace Regesta

inductive Axis where
  | child
  | descendant
  | descendantOrSelf
  | self
  | parent
  | ancestor
  | ancestorOrSelf
  | followingSibling
  | precedingSibling
  deriving DecidableEq, Repr

inductive NodeTest where
  /-- Elements with a local name, in any namespace. -/
  | tag (localName : String)
  | name (uri localName : String)
  | element
  | within (uri : String)
  | node
  | text
  deriving DecidableEq, Repr

inductive Predicate where
  | position (n : Nat)
  | last
  | hasAttribute (name : Xml.ExpandedName)
  | attributeIs (name : Xml.ExpandedName) (value : String)
  | hasChild (test : NodeTest)
  deriving DecidableEq, Repr

structure Step where
  axis : Axis
  test : NodeTest
  predicates : List Predicate
  deriving DecidableEq, Repr

inductive Route where
  | here
  | steps (absolute : Bool) (steps : List Step)
  deriving DecidableEq, Repr

structure Path where
  source : String
  route : Route
  deriving DecidableEq, Repr

namespace Axis

def ofName? : String → Option Axis
  | "child" => some child
  | "descendant" => some descendant
  | "descendant-or-self" => some descendantOrSelf
  | "self" => some self
  | "parent" => some parent
  | "ancestor" => some ancestor
  | "ancestor-or-self" => some ancestorOrSelf
  | "following-sibling" => some followingSibling
  | "preceding-sibling" => some precedingSibling
  | _ => none

end Axis

def Path.isHere (path : Path) : Bool := path.route == .here

/-- The step that `//` stands for. -/
def Step.anywhere : Step := ⟨.descendantOrSelf, .node, []⟩

end Regesta
