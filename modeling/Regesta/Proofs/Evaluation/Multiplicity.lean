import Regesta.Proofs.Evaluation.Modes
import Regesta.Proofs.Reported

namespace Regesta

open Xml (ExpandedName Place)

namespace Property

/-- The property that asks for a list, or the one that asks for one value. Templates are a list. -/
def withMultiple (multiple : Bool) : Property → Property
  | leaf name paths _ attributes filter => leaf name paths multiple attributes filter
  | group name paths _ properties => group name paths multiple properties
  | templates name sets => templates name sets

def IsTemplates (property : Property) : Prop := ∃ name sets, property = templates name sets

/-- How single work ends beside listing work that has succeeded with a value. -/
inductive Shows (mode : Mode) (single : Reported Value) : Value → Prop
  | first {first : Value} {rest : List Value} :
    single.result = .ok first → Shows mode single (.list (first :: rest))
  | nothing : (mode = .lenient → single.result = .ok .null) → Shows mode single (.list [])

end Property

theorem Reported.forEach_first {α β : Type} {items : List α} {action : α → Reported β}
    {results : List β} (done : (forEach items action).result = .ok results) :
    (items.head? = none ∧ results = []) ∨
      ∃ item result rest, items.head? = some item ∧ (action item).result = .ok result ∧
        results = result :: rest := by
  cases forEach_ok_iff.mp done with
  | nil => exact .inl ⟨rfl, rfl⟩
  | cons first _ => exact .inr ⟨_, _, _, rfl, first, rfl⟩

namespace Property

variable {mode : Mode} {context : Place} {name : String} {paths : List Path} {value : Value}

theorem leaf_shows {attributes : List ExpandedName} {filter : Option FilterRef}
    (listed : ((leaf name paths true attributes filter).evaluate mode context).result = .ok value) :
    Shows mode ((leaf name paths false attributes filter).evaluate mode context) value := by
  rw [evaluate, if_pos rfl, Reported.map_ok_iff] at listed
  obtain ⟨texts, each, rfl⟩ := listed
  rw [evaluate]
  simp only [Bool.false_eq_true, if_false]
  rcases Reported.forEach_first each with ⟨none, rfl⟩ | ⟨place, text, rest, some, taken, rfl⟩
  · rw [none]
    exact .nothing fun _ => rfl
  · rw [some]
    exact .first (Reported.map_ok_iff.mpr ⟨text, taken, rfl⟩)

theorem group_shows {properties : List Property}
    (listed : ((group name paths true properties).evaluate mode context).result = .ok value) :
    Shows mode ((group name paths false properties).evaluate mode context) value := by
  rw [evaluate] at listed
  rw [evaluate]
  by_cases empty : paths.isEmpty = true
  · rw [if_pos empty, Reported.map_ok_iff] at listed
    obtain ⟨members, done, rfl⟩ := listed
    rw [if_pos empty]
    exact .first (Reported.map_ok_iff.mpr ⟨members, done, rfl⟩)
  rw [if_neg empty, if_pos rfl, Reported.map_ok_iff] at listed
  obtain ⟨objects, each, rfl⟩ := listed
  simp only [empty, Bool.false_eq_true, if_false]
  rcases Reported.forEach_first each with ⟨none, rfl⟩ | ⟨place, members, rest, some, done, rfl⟩
  · rw [none]
    refine .nothing fun lenient => ?_
    subst lenient
    rfl
  · rw [some]
    exact .first (Reported.map_ok_iff.mpr ⟨members, done, rfl⟩)

theorem withMultiple_shows {property : Property} (other : ¬ property.IsTemplates)
    (listed : ((property.withMultiple true).evaluate mode context).result = .ok value) :
    Shows mode ((property.withMultiple false).evaluate mode context) value := by
  cases property with
  | leaf => exact leaf_shows listed
  | group => exact group_shows listed
  | templates name sets => exact absurd ⟨name, sets, rfl⟩ other

/-- The value of a property is the first of its list of values. Lenient evaluation always has the
list, and null stands for the first of none. -/
theorem evaluate_first_of_list {property : Property} (other : ¬ property.IsTemplates)
    (context : Place) :
    (∃ values : List Value,
      ((property.withMultiple true).evaluate .lenient context).result = .ok (.list values) ∧
      ((property.withMultiple false).evaluate .lenient context).result =
        .ok (values.head?.getD .null)) ∧
    ∀ value, ((property.withMultiple true).evaluate .strict context).result = .ok value →
      ∃ values : List Value, value = .list values ∧
        ∀ first ∈ values.head?,
          ((property.withMultiple false).evaluate .strict context).result = .ok first := by
  constructor
  · obtain ⟨value, listed⟩ := (property_follows context (property.withMultiple true)).total
    rw [listed]
    cases withMultiple_shows other listed with
    | first done => exact ⟨_, rfl, done⟩
    | nothing done => exact ⟨[], rfl, done rfl⟩
  · intro value listed
    cases withMultiple_shows other listed with
    | first done =>
      refine ⟨_, rfl, ?_⟩
      rintro _ ⟨⟩
      exact done
    | nothing => exact ⟨[], rfl, by simp⟩

theorem evaluate_first_of_items :
    let numbered : Xml.Node := .element ⟨none, "item"⟩ [⟨⟨none, "n"⟩, "1"⟩] none []
    let plain : Xml.Node := .element ⟨none, "item"⟩ [] none []
    let list : Place := .inside (.document []) 1 (.element ⟨none, "list"⟩ [] none [numbered, plain])
    let items : Path := ⟨"item", .steps false [⟨.child, .tag "item", []⟩]⟩
    let number : Property := .leaf "number" [⟨".", .here⟩] false [⟨none, "n"⟩] none
    let property : Property := .group "items" [items] false [number]
    let first : Value := .object [("number", .text "1")]
    ¬ property.IsTemplates ∧
      ((property.withMultiple true).evaluate .strict list).result =
        .ok (.list [first, .object [("number", .null)]]) ∧
      ((property.withMultiple false).evaluate .strict list).result = .ok first := by
  intro numbered plain list items number property first
  have other : ¬ property.IsTemplates := by simp [IsTemplates, property]
  have listed : ((property.withMultiple true).evaluate .strict list).result =
      .ok (.list [first, .object [("number", .null)]]) := by cbv
  obtain ⟨values, same, shown⟩ := (evaluate_first_of_list other list).2 _ listed
  cases same
  exact ⟨other, listed, shown first rfl⟩

end Property
end Regesta
