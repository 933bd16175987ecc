import Regesta.Path
import Regesta.Xml.Place

namespace Regesta

open Xml (Place)

/-- The places along an axis, nearest first: in document order on forward axes, against it on the
others. -/
def Axis.places (axis : Axis) (place : Place) : List Place :=
  match axis with
  | child => place.children
  | descendant => place.descendants
  | descendantOrSelf => place :: place.descendants
  | self => [place]
  | parent => place.parent?.toList
  | ancestor => place.ancestors
  | ancestorOrSelf => place :: place.ancestors
  | followingSibling => place.following
  | precedingSibling => place.preceding

def NodeTest.accepts (test : NodeTest) (place : Place) : Bool :=
  match test with
  | tag localName => place.name?.any fun name => name.localName == localName
  | name uri localName => place.name? == some ⟨some uri, localName⟩
  | element => place.isElement
  | within uri => place.name?.any fun name => name.uri == some uri
  | node => true
  | text => place.isText

def Predicate.keep (predicate : Predicate) (candidates : List Place) : List Place :=
  match predicate with
  | position n => candidates[n - 1]?.toList
  | last => candidates.getLast?.toList
  | hasAttribute name => candidates.filter fun place => (place.attribute? name).isSome
  | attributeIs name value => candidates.filter fun place => place.attribute? name == some value
  | hasChild test => candidates.filter fun place => place.children.any test.accepts

def Step.places (step : Step) (place : Place) : List Place :=
  step.predicates.foldl (fun candidates predicate => predicate.keep candidates)
    ((step.axis.places place).filter step.test.accepts)

def dropRepeats : List Place → List Place
  | [] => []
  | [place] => [place]
  | place :: next :: rest =>
    if place.number = next.number then dropRepeats (place :: rest)
    else place :: dropRepeats (next :: rest)

def inDocumentOrder (places : List Place) : List Place :=
  dropRepeats (places.mergeSort fun a b => a.number ≤ b.number)

def Step.advance (step : Step) (places : List Place) : List Place :=
  inDocumentOrder (places.flatMap step.places)

/-- The places that steps lead to from some places. Where nothing is left, no step is looked at any
more. -/
def followSteps : List Step → List Place → List Place
  | [], places => places
  | step :: rest, places =>
    let next := step.advance places
    if next.isEmpty then next else followSteps rest next

def Path.select (path : Path) (start : Place) : List Place :=
  match path.route with
  | .here => [start]
  | .steps absolute steps => followSteps steps [if absolute then start.root else start]

end Regesta
