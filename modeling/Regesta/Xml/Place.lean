import Regesta.Xml.Node

/-!
Places: nodes where they stand in a document. Every place has a number, its position in document
order, in which a node comes before the nodes it holds. The document itself has number zero.
-/
namespace Regesta.Xml

inductive Place where
  | document (content : List Node)
  | inside (parent : Place) (number : Nat) (node : Node)
  deriving Inhabited

namespace Place

def number : Place → Nat
  | document _ => 0
  | inside _ number _ => number

def node? : Place → Option Node
  | document _ => none
  | inside _ _ node => some node

def parent? : Place → Option Place
  | document _ => none
  | inside parent _ _ => some parent

def content : Place → List Node
  | document content => content
  | inside _ _ node => node.content

def root : Place → Place
  | document content => document content
  | inside parent _ _ => parent.root

/-- The places of neighbouring nodes, the first of which has number `next`. -/
def numbered (parent : Place) (next : Nat) : List Node → List Place
  | [] => []
  | node :: rest => inside parent next node :: numbered parent (next + node.size) rest

def children (place : Place) : List Place := numbered place (place.number + 1) place.content

mutual
def within (place : Place) : Node → List Place
  | .element _ _ _ content => withinAll place (place.number + 1) content
  | .text _ => []
  | .comment _ => []
  | .instruction _ _ => []

def withinAll (parent : Place) (next : Nat) : List Node → List Place
  | [] => []
  | node :: rest =>
    inside parent next node ::
      (within (inside parent next node) node ++ withinAll parent (next + node.size) rest)
end

def descendants (place : Place) : List Place := withinAll place (place.number + 1) place.content

def ancestors : Place → List Place
  | document _ => []
  | inside parent _ _ => parent :: parent.ancestors

def following : Place → List Place
  | document _ => []
  | inside parent number _ => parent.children.filter fun other => number < other.number

def preceding : Place → List Place
  | document _ => []
  | inside parent number _ =>
    (parent.children.filter fun other => other.number < number).reverse

def isElement (place : Place) : Bool := place.node?.any Node.isElement

def isText (place : Place) : Bool := place.node?.any Node.isText

def name? (place : Place) : Option ExpandedName := place.node?.bind Node.name?

def tag (place : Place) : String := (place.node?.map Node.tag).getD ""

def attributes (place : Place) : List Attribute := (place.node?.map Node.attributes).getD []

def attribute? (place : Place) (name : ExpandedName) : Option String :=
  place.node?.bind fun node => node.attribute? name

def source? (place : Place) : Option String := place.node?.bind Node.source?

def fullText : Place → String
  | document content => Node.textAll content
  | inside _ _ node => node.fullText

def elements (place : Place) : List Place := place.children.filter isElement

/-- The first element inside a place, itself not counted, with a local name. -/
def find? (place : Place) (tag : String) : Option Place :=
  place.descendants.find? fun other => other.isElement && other.tag == tag

end Place

def Document.root (document : Document) : Place := .document document.content

def Document.rootElement? (document : Document) : Option Place := document.root.elements.head?

end Regesta.Xml
