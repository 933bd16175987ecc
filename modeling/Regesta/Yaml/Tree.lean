import Regesta.Yaml.Lexer
import Regesta.Yaml.Node

namespace Regesta.Yaml

inductive Tree where
  | scalar (tag : Option Tag) (style : Style) (text : String)
  | sequence (tag : Option Tag) (items : List Tree)
  /-- The entries are keys and values, in front of each the name that it goes by in faults: the text
  of its key, when the key is a scalar that stands there itself. -/
  | mapping (tag : Option Tag) (entries : List (Option String × Tree × Tree))
  | void
  | fault
  deriving Inhabited

def nestingLimit : Nat := 128

/-- How many aliases are followed for each node that is written. -/
def aliasRate : Nat := 100

namespace Node

mutual
def anchored : Node → List (Nat × Node)
  | .scalar (some anchor) tag style text => [(anchor, .scalar (some anchor) tag style text)]
  | .sequence (some anchor) tag items =>
    (anchor, .sequence (some anchor) tag items) :: anchoredItems items
  | .sequence none _ items => anchoredItems items
  | .mapping (some anchor) tag entries =>
    (anchor, .mapping (some anchor) tag entries) :: anchoredEntries entries
  | .mapping none _ entries => anchoredEntries entries
  | _ => []

def anchoredItems : List Node → List (Nat × Node)
  | [] => []
  | item :: rest => anchored item ++ anchoredItems rest

def anchoredEntries : List (Node × Node) → List (Nat × Node)
  | [] => []
  | (key, value) :: rest => anchored key ++ anchored value ++ anchoredEntries rest
end

mutual
/-- How many marks a node makes in the text: one, or two when it is a collection, and those of the
nodes in it. -/
def marks : Node → Nat
  | .scalar .. => 1
  | .sequence _ _ items => 2 + marksOfItems items
  | .mapping _ _ entries => 2 + marksOfEntries entries
  | .alias _ => 1
  | .fault => 0

def marksOfItems : List Node → Nat
  | [] => 0
  | item :: rest => marks item + marksOfItems rest

def marksOfEntries : List (Node × Node) → Nat
  | [] => 0
  | (key, value) :: rest => marks key + marks value + marksOfEntries rest
end

mutual
def isFaulty : Node → Bool
  | .scalar .. => false
  | .sequence _ _ items => anyFaulty items
  | .mapping _ _ entries => anyFaultyEntry entries
  | .alias _ => false
  | .fault => true

def anyFaulty : List Node → Bool
  | [] => false
  | item :: rest => isFaulty item || anyFaulty rest

def anyFaultyEntry : List (Node × Node) → Bool
  | [] => false
  | (key, value) :: rest => isFaulty key || isFaulty value || anyFaultyEntry rest
end

def text? : Node → Option String
  | .scalar _ _ _ text => some text
  | _ => none

/-- The node that is meant: for an alias the last one that has its anchor, as long as aliases may
be followed. -/
def follow? (anchors : List (Nat × Node)) (left : Nat) : Node → Option (Node × Nat)
  | .alias anchor =>
    if left = 0 then none
    else
      (anchors.reverse.find? fun entry => entry.1 == anchor).map fun entry => (entry.2, left - 1)
  | node => some (node, left)

def treesWith (tree : Node → Nat → Tree × Nat) : List Node → Nat → List Tree × Nat
  | [], left => ([], left)
  | node :: rest, left =>
    let (first, left) := tree node left
    let (others, left) := treesWith tree rest left
    (first :: others, left)

def entriesWith (tree : Node → Nat → Tree × Nat) :
    List (Node × Node) → Nat → List (Option String × Tree × Tree) × Nat
  | [], left => ([], left)
  | (key, value) :: rest, left =>
    let name := key.text?
    let (key, left) := tree key left
    let (value, left) := tree value left
    let (others, left) := entriesWith tree rest left
    ((name, key, value) :: others, left)

def tree (anchors : List (Nat × Node)) : Nat → Node → Nat → Tree × Nat
  | 0, node, left =>
    match node.follow? anchors left with
    | some (.scalar _ tag style text, left) => (.scalar tag style text, left)
    | _ => (.fault, left)
  | depth + 1, node, left =>
    match node.follow? anchors left with
    | some (.scalar _ tag style text, left) => (.scalar tag style text, left)
    | some (.sequence _ tag items, left) =>
      let (items, left) := treesWith (tree anchors depth) items left
      (.sequence tag items, left)
    | some (.mapping _ tag entries, left) =>
      let (entries, left) := entriesWith (tree anchors depth) entries left
      (.mapping tag entries, left)
    | _ => (.fault, left)

end Node

/-- Builds the entries of the outermost mapping. Where the key is not wanted the value stays out; a
fault in it is a fault all the same. -/
def wantedEntries (wanted : String → Bool) (tree : Node → Nat → Tree × Nat) :
    List (Node × Node) → Nat → List (Option String × Tree × Tree)
  | [], _ => []
  | (key, value) :: rest, left =>
    let name := key.text?
    let (key, left) := tree key left
    match key with
    | .scalar _ _ text =>
      if wanted text then
        let (value, left) := tree value left
        (name, key, value) :: wantedEntries wanted tree rest left
      else
        let value := if value.isFaulty then Tree.fault else .void
        (name, key, value) :: wantedEntries wanted tree rest left
    | _ => (name, key, .void) :: wantedEntries wanted tree rest left

def Document.tree (wanted : String → Bool) (document : Document) : Tree :=
  match document.root with
  | none => .void
  | some root =>
    let anchors := root.anchored
    let left := aliasRate * root.marks
    match root with
    | .mapping _ tag entries =>
      .mapping tag (wantedEntries wanted (Node.tree anchors (nestingLimit - 1)) entries left)
    | root => (root.tree anchors nestingLimit left).1

def read (text : String) : Document := document (tokens text)

end Regesta.Yaml
