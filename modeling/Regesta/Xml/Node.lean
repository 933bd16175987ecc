namespace Regesta.Xml

def xmlUri : String := "http://www.w3.org/XML/1998/namespace"

structure ExpandedName where
  uri : Option String
  localName : String
  deriving DecidableEq, Repr, Inhabited

def ExpandedName.render (name : ExpandedName) : String :=
  match name.uri with
  | none => name.localName
  | some uri => "\x7b" ++ uri ++ "\x7d" ++ name.localName

structure Attribute where
  name : ExpandedName
  value : String
  deriving DecidableEq, Repr

inductive Node where
  /-- The source is the document's text from the element's first `<` to its last `>`. There is none
  when these stand in another order, since the element is opened or closed by an entity. -/
  | element (name : ExpandedName) (attributes : List Attribute) (source : Option String)
      (content : List Node)
  | text (value : String)
  | comment (value : String)
  | instruction (target value : String)
  deriving Inhabited

structure Document where
  content : List Node

namespace Node

def content : Node → List Node
  | element _ _ _ content => content
  | _ => []

def attributes : Node → List Attribute
  | element _ attributes _ _ => attributes
  | _ => []

def name? : Node → Option ExpandedName
  | element name .. => some name
  | _ => none

def tag : Node → String
  | element name .. => name.localName
  | _ => ""

def source? : Node → Option String
  | element _ _ source _ => source
  | _ => none

def isElement : Node → Bool
  | element .. => true
  | _ => false

def isText : Node → Bool
  | text _ => true
  | _ => false

def attribute? (node : Node) (name : ExpandedName) : Option String :=
  (node.attributes.find? fun entry => entry.name == name).map Attribute.value

mutual
def size : Node → Nat
  | element _ _ _ content => 1 + sizeAll content
  | text _ => 1
  | comment _ => 1
  | instruction _ _ => 1

def sizeAll : List Node → Nat
  | [] => 0
  | node :: rest => size node + sizeAll rest
end

mutual
def fullText : Node → String
  | element _ _ _ content => textAll content
  | text value => value
  | comment _ => ""
  | instruction _ _ => ""

def textAll : List Node → String
  | [] => ""
  | node :: rest => fullText node ++ textAll rest
end

end Node
end Regesta.Xml
