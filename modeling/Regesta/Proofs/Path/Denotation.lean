import Regesta.Proofs.Path.Reading
import Regesta.Proofs.Path.Selection

namespace Regesta

open Xml (Document Place)

variable {namespaces : Namespaces}

theorem Predicate.Spells.counted {text : List Char} {predicate : Predicate}
    (spells : predicate.Spells namespaces text) : predicate.Counted := by
  cases spells with
  | position _ _ positive => exact positive
  | last => trivial
  | hasAttribute => trivial
  | attributeIs => trivial
  | hasChild => trivial

theorem Predicate.SpellsAll.each {text : List Char} {predicates : List Predicate}
    (spells : Predicate.SpellsAll namespaces text predicates) :
    ∀ predicate ∈ predicates, ∃ body, predicate.Spells namespaces body := by
  induction spells with
  | nil => simp
  | cons _ _ spelled _ _ _ ih => exact List.forall_mem_cons.mpr ⟨⟨_, spelled⟩, ih⟩

namespace Step

theorem Spells.predicates {text : List Char} {step : Step} (spells : step.Spells namespaces text) :
    ∀ predicate ∈ step.predicates, ∃ body, predicate.Spells namespaces body := by
  cases spells with
  | self | parent => simp
  | child _ predicates => exact predicates.each
  | along _ _ _ _ predicates => exact predicates.each

theorem SpellsAll.predicates {text : List Char} {steps : List Step}
    (spells : SpellsAll namespaces text steps) :
    ∀ step ∈ steps, ∀ predicate ∈ step.predicates, ∃ body, predicate.Spells namespaces body := by
  induction spells with
  | last _ spelled _ =>
    intro step member
    rw [List.mem_singleton.mp member]
    exact spelled.predicates
  | cons _ spelled _ _ ih => exact List.forall_mem_cons.mpr ⟨spelled.predicates, ih⟩
  | anywhere _ _ ih => exact List.forall_mem_cons.mpr ⟨by simp, ih⟩

end Step

theorem Route.Spells.predicates {text : List Char} {absolute : Bool} {steps : List Step}
    (spells : (Route.steps absolute steps).Spells namespaces text) :
    ∀ step ∈ steps, ∀ predicate ∈ step.predicates, ∃ body, predicate.Spells namespaces body := by
  cases spells with
  | document => simp
  | absolute spelled => exact spelled.predicates
  | relative _ _ spelled => exact spelled.predicates

theorem Route.Spells.counted {text : List Char} {absolute : Bool} {steps : List Step}
    (spells : (Route.steps absolute steps).Spells namespaces text) :
    ∀ step ∈ steps, step.Counted := by
  intro step taken predicate among
  obtain ⟨body, spelled⟩ := spells.predicates step taken predicate among
  exact spelled.counted

namespace Path

/-- A path selects the places that its steps lead to one after the other, each once and in document
order. What is sorted and dropped between the steps, and where the steps break off, does not tell. -/
theorem select_denotes {text : String} {path : Path} {absolute : Bool} {steps : List Step}
    {document : Document} {context : Place} (found : read namespaces text = .ok path)
    (route : path.route = .steps absolute steps) (member : context ∈ document.places) :
    {place | place ∈ path.select context} =
        Step.imageInTurn document steps {if absolute then document.root else context} ∧
      ((path.select context).Pairwise fun a b => a.number < b.number) ∧
      ∀ place, place ∈ path.select context ↔
        place ∈ steps.foldl (fun places step => places.flatMap step.places)
          [if absolute then document.root else context] := by
  have spells : (Route.steps absolute steps).Spells namespaces (Text.trim text.toList) := by
    rw [← route]
    exact ((read_ok_iff namespaces text path).mp found).2
  have selected : path.select context =
      followSteps steps [if absolute then document.root else context] := by
    rw [select, route, Document.root_of_mem member]
  have placed : ∀ place ∈ [if absolute then document.root else context],
      place ∈ document.places := by
    intro place inside
    rw [List.mem_singleton.mp inside]
    split
    · exact document.root_mem
    · exact member
  refine ⟨?_, path.select_ordered context, ?_⟩
  · rw [selected, followSteps_meaning spells.counted placed]
    congr 1
    ext place
    exact List.mem_singleton
  · intro place
    rw [selected]
    exact mem_followSteps steps placed (fun _ => Iff.rfl) place

theorem select_denotes_second_item :
    let item : Xml.Node := .element ⟨none, "item"⟩ [] none []
    let document : Document := ⟨[.element ⟨none, "list"⟩ [] none [item, item]]⟩
    let steps : List Step := [.anywhere, ⟨.child, .tag "item", [.position 2]⟩]
    let path : Path := ⟨"//item[2]", .steps true steps⟩
    read [] "//item[2]" = .ok path ∧ document.root ∈ document.places ∧
      (path.select document.root).map Place.number = [3] ∧
      {place | place ∈ path.select document.root} =
        Step.imageInTurn document steps {document.root} := by
  intro item document steps path
  have found : read [] "//item[2]" = .ok path := rfl
  have member := document.root_mem
  refine ⟨found, member, ?_, (select_denotes found rfl member).1⟩
  cbv

end Path

end Regesta
