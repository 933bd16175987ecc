import Regesta.Proofs.Path.Selection

namespace Regesta

open Xml (Document Place)
open Relation (TransGen ReflTransGen)

namespace Predicate

def IsPositional : Predicate → Prop
  | position _ | last => True
  | _ => False

/-- A predicate that asks for no position looks at each candidate as if it were the only one. -/
theorem mem_keep_iff {predicate : Predicate} (plain : ¬ predicate.IsPositional)
    (candidates : List Place) (place : Place) :
    place ∈ predicate.keep candidates ↔ place ∈ candidates ∧ place ∈ predicate.keep [place] := by
  cases predicate with
  | position n => exact absurd trivial plain
  | last => exact absurd trivial plain
  | hasAttribute name => simp [keep, List.mem_filter]
  | attributeIs name value => simp [keep, List.mem_filter]
  | hasChild test => simp [keep, List.mem_filter]

theorem mem_keepAll_iff {predicates : List Predicate}
    (plain : ∀ predicate ∈ predicates, ¬ predicate.IsPositional) (candidates : List Place)
    (place : Place) :
    place ∈ predicates.foldl (fun candidates predicate => predicate.keep candidates) candidates ↔
      place ∈ candidates ∧ ∀ predicate ∈ predicates, place ∈ predicate.keep [place] := by
  induction predicates generalizing candidates with
  | nil => simp
  | cons predicate rest ih =>
    obtain ⟨first, others⟩ := List.forall_mem_cons.mp plain
    rw [List.foldl_cons, ih others, mem_keep_iff first, List.forall_mem_cons, and_assoc]

end Predicate

theorem ordered_eq {places others : List Place}
    (ordered : places.Pairwise fun a b => a.number < b.number)
    (sorted : others.Pairwise fun a b => a.number < b.number)
    (same : ∀ place, place ∈ places ↔ place ∈ others) : places = others := by
  have : Std.Irrefl fun a b : Place => a.number < b.number := ⟨fun _ => Nat.lt_irrefl _⟩
  have : Std.Antisymm fun a b : Place => a.number < b.number :=
    ⟨fun _ _ ab ba => absurd ba (Nat.lt_asymm ab)⟩
  exact ordered.eq_of_mem_iff sorted same

namespace Step

theorem mem_places_plain (step : Step)
    (plain : ∀ predicate ∈ step.predicates, ¬ predicate.IsPositional) (origin place : Place) :
    place ∈ step.places origin ↔ place ∈ step.axis.places origin ∧ step.test.accepts place ∧
      ∀ predicate ∈ step.predicates, place ∈ predicate.keep [place] := by
  rw [places, Predicate.mem_keepAll_iff plain, List.mem_filter, and_assoc]

@[simp] theorem mem_anywhere (origin place : Place) :
    place ∈ anywhere.places origin ↔ ReflTransGen Place.Encloses origin place := by
  rw [mem_places_plain anywhere (by simp [anywhere]), Relation.reflTransGen_iff_eq_or_transGen,
    ← Place.mem_descendants_iff]
  simp [anywhere, Axis.places, NodeTest.accepts]

theorem mem_child_anywhere {test : NodeTest} {predicates : List Predicate}
    (plain : ∀ predicate ∈ predicates, ¬ predicate.IsPositional) (origin place : Place) :
    (∃ middle ∈ anywhere.places origin, place ∈ (Step.mk .child test predicates).places middle) ↔
      place ∈ (Step.mk .descendant test predicates).places origin := by
  -- The last of the steps that lead down to a descendant is one to a child.
  have below : place ∈ origin.descendants ↔
      ∃ middle ∈ anywhere.places origin, place ∈ middle.children := by
    simp only [Place.mem_descendants_iff, TransGen.tail'_iff, mem_anywhere]
    rfl
  simp only [mem_places_plain ⟨.child, test, predicates⟩ plain,
    mem_places_plain ⟨.descendant, test, predicates⟩ plain, Axis.places, below]
  constructor
  · rintro ⟨middle, reached, inside, accepted⟩
    exact ⟨⟨middle, reached, inside⟩, accepted⟩
  · rintro ⟨⟨middle, reached, inside⟩, accepted⟩
    exact ⟨middle, reached, inside, accepted⟩

theorem mem_anywhere_anywhere (origin place : Place) :
    (∃ middle ∈ anywhere.places origin, place ∈ anywhere.places middle) ↔
      place ∈ anywhere.places origin := by
  simp only [mem_anywhere]
  exact ⟨fun ⟨_, reached, further⟩ => reached.trans further, fun reached => ⟨place, reached, .refl⟩⟩

theorem advance_twice {first second whole : Step} {document : Document} {places : List Place}
    (placed : ∀ place ∈ places, place ∈ document.places)
    (joined : ∀ origin place, (∃ middle ∈ first.places origin, place ∈ second.places middle) ↔
      place ∈ whole.places origin) :
    second.advance (first.advance places) = whole.advance places := by
  apply ordered_eq (inDocumentOrder_ordered _) (inDocumentOrder_ordered _)
  intro place
  change place ∈ second.advance (first.advance places) ↔ place ∈ whole.advance places
  rw [second.mem_advance (first.advance_subset placed), whole.mem_advance placed, List.mem_flatMap,
    List.mem_flatMap]
  simp only [first.mem_advance placed, List.mem_flatMap, ← joined]
  constructor
  · rintro ⟨middle, ⟨origin, start, reached⟩, found⟩
    exact ⟨origin, start, middle, reached, found⟩
  · rintro ⟨origin, start, middle, reached, found⟩
    exact ⟨middle, ⟨origin, start, reached⟩, found⟩

/-- Steps that lead to the same places from any places of a document. -/
def Interchange (steps others : List Step) : Prop :=
  ∀ (document : Document) (places : List Place), (∀ place ∈ places, place ∈ document.places) →
    followSteps steps places = followSteps others places

namespace Interchange

theorem refl (steps : List Step) : Interchange steps steps := fun _ _ _ => rfl

theorem symm {steps others : List Step} (same : Interchange steps others) :
    Interchange others steps :=
  fun document places placed => (same document places placed).symm

theorem trans {first second third : List Step} (left : Interchange first second)
    (right : Interchange second third) : Interchange first third :=
  fun document places placed => (left document places placed).trans (right document places placed)

@[simp] theorem followSteps_append (before after : List Step) (places : List Place) :
    followSteps (before ++ after) places = followSteps after (followSteps before places) := by
  induction before generalizing places with
  | nil => rfl
  | cons step rest ih => simp [ih]

theorem after {steps others : List Step} (same : Interchange steps others) (before : List Step) :
    Interchange (before ++ steps) (before ++ others) := by
  intro document places placed
  simpa using same document _ (followSteps_subset before placed)

theorem before {steps others : List Step} (same : Interchange steps others) (after : List Step) :
    Interchange (steps ++ after) (others ++ after) := by
  intro document places placed
  simp [same document places placed]

theorem of_joined {first second whole : Step}
    (joined : ∀ origin place, (∃ middle ∈ first.places origin, place ∈ second.places middle) ↔
      place ∈ whole.places origin) : Interchange [first, second] [whole] := by
  intro document places placed
  rw [followSteps_cons, followSteps_cons, followSteps_cons]
  exact advance_twice placed joined

/-- Going anywhere below and then to children is going to descendants. -/
theorem descendant {predicates : List Predicate}
    (plain : ∀ predicate ∈ predicates, ¬ predicate.IsPositional) (test : NodeTest) :
    Interchange [anywhere, ⟨.child, test, predicates⟩] [⟨.descendant, test, predicates⟩] :=
  of_joined (mem_child_anywhere plain)

-- With a position it is not: of two `p`, each the first in its place, only one is the first below.
example :
    let item : Xml.Node := .element ⟨none, "p"⟩ [] none []
    let list : List Xml.Node → Xml.Node := .element ⟨none, "l"⟩ [] none
    let document : Document := ⟨[list [item, list [item]]]⟩
    let numbers (steps : List Step) := (followSteps steps [document.root]).map Place.number
    numbers [anywhere, ⟨.child, .tag "p", [.position 1]⟩] = [2, 4] ∧
      numbers [⟨.descendant, .tag "p", [.position 1]⟩] = [2] := by
  cbv

theorem anywhere_often (n : Nat) : Interchange (List.replicate (n + 1) anywhere) [anywhere] := by
  induction n with
  | zero => exact refl _
  | succ n ih =>
    rw [List.replicate_succ]
    exact (ih.after [anywhere]).trans (of_joined mem_anywhere_anywhere)

theorem self_anywhere : Interchange [⟨.self, .node, []⟩, anywhere] [anywhere] := by
  apply of_joined
  intro origin place
  simp [places, Axis.places, NodeTest.accepts]

end Interchange

end Step

end Regesta
