import Mathlib.Data.List.Permutation
import Mathlib.Data.List.Sort
import Mathlib.Data.Set.Operations
import Regesta.Path.Selection
import Regesta.Proofs.Xml.Order

namespace Regesta

open Xml (Document Place)
open Relation (TransGen ReflTransGen)

namespace Axis

/-- An axis leads from one place to another. -/
def Joins (axis : Axis) (origin place : Place) : Prop :=
  match axis with
  | child => origin.Holds place
  | descendant => TransGen Place.Holds origin place
  | descendantOrSelf => ReflTransGen Place.Holds origin place
  | self => origin = place
  | parent => place.Holds origin
  | ancestor => TransGen Place.Holds place origin
  | ancestorOrSelf => ReflTransGen Place.Holds place origin
  | followingSibling =>
    (∃ parent : Place, parent.Holds origin ∧ parent.Holds place) ∧ origin.number < place.number
  | precedingSibling =>
    (∃ parent : Place, parent.Holds origin ∧ parent.Holds place) ∧ place.number < origin.number

def isReverse : Axis → Bool
  | parent | ancestor | ancestorOrSelf | precedingSibling => true
  | child | descendant | descendantOrSelf | self | followingSibling => false

/-- One place comes before another on an axis. -/
def Nearer (axis : Axis) (a b : Place) : Prop :=
  if axis.isReverse then b.number < a.number else a.number < b.number

end Axis

def NodeTest.Passes (test : NodeTest) (place : Place) : Prop :=
  match test with
  | tag localName => ∃ uri, place.name? = some ⟨uri, localName⟩
  | name uri localName => place.name? = some ⟨some uri, localName⟩
  | element => ∃ name, place.name? = some name
  | within uri => ∃ localName, place.name? = some ⟨some uri, localName⟩
  | node => True
  | text => ∃ value, place.node? = some (.text value)

/-- One list of places is left of another when each place is looked at by itself. -/
inductive Sifts (condition : Place → Prop) : List Place → List Place → Prop
  | nil : Sifts condition [] []
  | keep {place : Place} {rest kept : List Place} :
    condition place → Sifts condition rest kept → Sifts condition (place :: rest) (place :: kept)
  | drop {place : Place} {rest kept : List Place} :
    ¬ condition place → Sifts condition rest kept → Sifts condition (place :: rest) kept

inductive Predicate.Keeps (document : Document) : Predicate → List Place → List Place → Prop
  | position {before after : List Place} {place : Place} {n : Nat} :
    before.length + 1 = n → Keeps document (.position n) (before ++ place :: after) [place]
  | beyond {candidates : List Place} {n : Nat} :
    candidates.length < n → Keeps document (.position n) candidates []
  | last {before : List Place} {place : Place} : Keeps document .last (before ++ [place]) [place]
  | lastOfNone : Keeps document .last [] []
  | hasAttribute {name : Xml.ExpandedName} {candidates kept : List Place} :
    Sifts (fun place => ∃ value, place.attribute? name = some value) candidates kept →
    Keeps document (.hasAttribute name) candidates kept
  | attributeIs {name : Xml.ExpandedName} {value : String} {candidates kept : List Place} :
    Sifts (fun place => place.attribute? name = some value) candidates kept →
    Keeps document (.attributeIs name value) candidates kept
  | hasChild {test : NodeTest} {candidates kept : List Place} :
    Sifts (fun place => ∃ child ∈ document.places, place.Holds child ∧ test.Passes child)
      candidates kept →
    Keeps document (.hasChild test) candidates kept

inductive Predicate.KeepInTurn (document : Document) :
    List Predicate → List Place → List Place → Prop
  | nil {candidates : List Place} : KeepInTurn document [] candidates candidates
  | cons {predicate : Predicate} {rest : List Predicate} {candidates kept left : List Place} :
    predicate.Keeps document candidates kept → KeepInTurn document rest kept left →
    KeepInTurn document (predicate :: rest) candidates left

namespace Step

/-- The places of an axis that pass the test, nearest first. -/
structure Candidates (document : Document) (step : Step) (origin : Place)
    (candidates : List Place) : Prop where
  ordered : candidates.Pairwise step.axis.Nearer
  complete : ∀ place, place ∈ candidates ↔
    place ∈ document.places ∧ step.axis.Joins origin place ∧ step.test.Passes place

def Leads (document : Document) (step : Step) (origin place : Place) : Prop :=
  ∃ candidates kept, step.Candidates document origin candidates ∧
    Predicate.KeepInTurn document step.predicates candidates kept ∧ place ∈ kept

def image (document : Document) (step : Step) (origins : Set Place) : Set Place :=
  {place | ∃ origin ∈ origins, step.Leads document origin place}

def imageInTurn (document : Document) (steps : List Step) (origins : Set Place) : Set Place :=
  steps.foldl (fun reached step => step.image document reached) origins

end Step

end Regesta
