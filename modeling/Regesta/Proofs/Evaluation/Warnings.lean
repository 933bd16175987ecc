import Regesta.Proofs.Evaluation.Modes
import Regesta.Proofs.Evaluation.Shape

namespace Regesta

open Xml (ExpandedName Place)

/-- Where a result has an entry of a leaf, and the node that it is taken from if there is one. -/
structure Slot where
  name : String
  attributes : List ExpandedName
  filter : Option FilterRef
  source? : Option Place

def Slot.warning? (slot : Slot) : Option Warning :=
  slot.source?.bind fun place =>
    match slot.filter with
    | some (.unknown filter) =>
      if slot.attributes = [] ∨ ∃ name ∈ slot.attributes, place.attribute? name ≠ none then
        some (.unknownFilter filter slot.name)
      else none
    | some (.known _) | none => none

inductive Slot.Holds : Slot → Value → Prop
  | taken {name : String} {attributes : List ExpandedName} {filter : Option FilterRef}
    {place : Place} {value : Value} :
    ExtractedAt name attributes filter place value →
    Holds ⟨name, attributes, filter, some place⟩ value
  | nothing {name : String} {attributes : List ExpandedName} {filter : Option FilterRef} :
    Holds ⟨name, attributes, filter, none⟩ .null

def Property.slots (context : Place) : Property → List Slot
  | .leaf name paths true attributes filter =>
    (selectAll paths context).map fun place => ⟨name, attributes, filter, some place⟩
  | .leaf name paths false attributes filter =>
    [⟨name, attributes, filter, (selectAll paths context).head?⟩]
  | .group .. | .templates .. => []

def slotsOf (visits : List (Property × Place)) : List Slot :=
  visits.flatMap fun visit => visit.1.slots visit.2

mutual
def Property.entries : Property → Value → List Value
  | .leaf _ _ true _ _, .list values => values
  | .leaf _ _ false _ _, value => [value]
  | .group _ _ _ properties, .object members => setEntries properties members
  | .group _ _ _ properties, .list objects =>
    objects.flatMap fun
      | .object members => setEntries properties members
      | _ => []
  | .templates _ sets, .list objects => templateEntries sets objects
  | _, _ => []

def setEntries : List Property → Members → List Value
  | property :: rest, (_, value) :: others => property.entries value ++ setEntries rest others
  | _, _ => []

def templateEntries : List (List Property) → List Value → List Value
  | set :: rest, .object members :: others => setEntries set members ++ templateEntries rest others
  | _, _ => []
end

def Tells {α : Type} (slots : List Slot) (entries : α → List Value) (work : Reported α) : Prop :=
  ∃ value, work.result = .ok value ∧ List.Forall₂ Slot.Holds slots (entries value) ∧
    work.warnings = slots.filterMap Slot.warning?

namespace Tells

variable {α β γ : Type} {slots : List Slot} {entries : α → List Value} {work : Reported α}

theorem pure {value : α} (none : entries value = []) : Tells [] entries (Pure.pure value) :=
  ⟨value, rfl, none ▸ .nil, rfl⟩

theorem pair {later : List Slot} {right : β → List Value} {next : Reported β} {both : α → β → γ}
    {whole : γ → List Value} (first : Tells slots entries work) (second : Tells later right next)
    (joined : ∀ a b, whole (both a b) = entries a ++ right b) :
    Tells (slots ++ later) whole
      (work >>= fun a => next >>= fun b => Pure.pure (both a b)) := by
  obtain ⟨a, done, held, told⟩ := first
  obtain ⟨b, nextDone, nextHeld, nextTold⟩ := second
  refine ⟨both a b, ?_, ?_, ?_⟩
  · exact Reported.bind_ok_iff.mpr ⟨a, done, Reported.map_ok_iff.mpr ⟨b, nextDone, rfl⟩⟩
  · rw [joined]
    exact List.rel_append held nextHeld
  · rw [Reported.bind_warnings done, Reported.map_warnings, told, nextTold, List.filterMap_append]

theorem map {change : α → β} {changed : β → List Value} (told : Tells slots entries work)
    (same : ∀ value, changed (change value) = entries value) :
    Tells slots changed (work >>= fun value => Pure.pure (change value)) := by
  obtain ⟨value, done, held, warned⟩ := told
  refine ⟨change value, Reported.map_ok_iff.mpr ⟨value, done, rfl⟩, ?_, ?_⟩
  · rwa [same]
  · rw [Reported.map_warnings, warned]

theorem forEach {places : List Place} {slotsAt : Place → List Slot} {action : Place → Reported α}
    (each : ∀ place, Tells (slotsAt place) entries (action place)) :
    Tells (places.flatMap slotsAt) (fun values => values.flatMap entries)
      (Reported.forEach places action) := by
  induction places with
  | nil => exact pure rfl
  | cons place rest ih => exact (each place).pair ih fun _ _ => rfl

end Tells

theorem firstAttribute?_eq_none {attributes : List ExpandedName} {place : Place} :
    firstAttribute? attributes place = none ↔
      ¬ ∃ name ∈ attributes, place.attribute? name ≠ none := by
  rw [firstAttribute?, List.findSome?_eq_none_iff]
  push Not
  rfl

theorem extract_warnings (name : String) (attributes : List ExpandedName)
    (filter : Option FilterRef) (place : Place) :
    (extract name attributes filter place).warnings =
      (Slot.warning? ⟨name, attributes, filter, some place⟩).toList := by
  rw [Slot.warning?, Option.bind_some]
  unfold extract
  match filter with
  | none =>
    split
    · rfl
    · split <;> rfl
  | some (.known _) =>
    split
    · rfl
    · split <;> rfl
  | some (.unknown _) =>
    by_cases empty : attributes = []
    · simp only [empty, List.isEmpty_nil, if_true, true_or]
      rfl
    simp only [List.isEmpty_iff, empty, if_false, false_or]
    cases first : firstAttribute? attributes place with
    | none =>
      rw [if_neg (firstAttribute?_eq_none.mp first)]
      rfl
    | some value =>
      have present : ¬ firstAttribute? attributes place = none := by simp [first]
      rw [firstAttribute?_eq_none, not_not] at present
      rw [if_pos present]
      rfl

theorem filterMap_warning? (slot : Slot) :
    [slot].filterMap Slot.warning? = slot.warning?.toList := by
  cases told : slot.warning? <;> simp [told]

theorem extract_tells (name : String) (attributes : List ExpandedName) (filter : Option FilterRef)
    (place : Place) :
    Tells [⟨name, attributes, filter, some place⟩] (fun text => [Value.ofText? text])
      (extract name attributes filter place) := by
  obtain ⟨text, found⟩ := extract_total name attributes filter place
  refine ⟨text, found, .cons (.taken (extracted found)) .nil, ?_⟩
  rw [extract_warnings, filterMap_warning?]

theorem leaf_tells (context : Place) (name : String) (paths : List Path) (multiple : Bool)
    (attributes : List ExpandedName) (filter : Option FilterRef) :
    Tells ((Property.leaf name paths multiple attributes filter).slots context)
      (Property.entries (.leaf name paths multiple attributes filter))
      (Property.evaluate .lenient context (.leaf name paths multiple attributes filter)) := by
  rw [Property.evaluate]
  cases multiple with
  | true =>
    rw [Property.slots, List.map_eq_flatMap]
    refine (Tells.forEach fun place => extract_tells name attributes filter place).map ?_
    intro texts
    rw [Property.entries, List.map_eq_flatMap]
  | false =>
    simp only [Bool.false_eq_true, if_false]
    rw [Property.slots]
    cases (selectAll paths context).head? with
    | none =>
      exact ⟨.null, rfl, .cons .nothing .nil, rfl⟩
    | some place => exact (extract_tells name attributes filter place).map fun _ => rfl

@[simp] theorem slotsOf_cons (visit : Property × Place) (rest : List (Property × Place)) :
    slotsOf (visit :: rest) = visit.1.slots visit.2 ++ slotsOf rest := List.flatMap_cons

@[simp] theorem slotsOf_append (left right : List (Property × Place)) :
    slotsOf (left ++ right) = slotsOf left ++ slotsOf right := List.flatMap_append

@[simp] theorem slotsOf_flatMap (places : List Place) (visits : Place → List (Property × Place)) :
    slotsOf (places.flatMap visits) = places.flatMap fun place => slotsOf (visits place) :=
  List.flatMap_assoc

theorem group_tells {name : String} {paths : List Path} {multiple : Bool}
    {properties : List Property} (context : Place)
    (inside : ∀ place, Tells (slotsOf (setVisits place properties)) (setEntries properties)
      (evaluateSet .lenient place properties)) :
    Tells (slotsOf (Property.visits context (.group name paths multiple properties)))
      (Property.entries (.group name paths multiple properties))
      (Property.evaluate .lenient context (.group name paths multiple properties)) := by
  rw [Property.visits, Property.evaluate, slotsOf_cons, Property.slots, List.nil_append,
    slotsOf_flatMap, groupPlaces]
  by_cases empty : paths.isEmpty = true
  · rw [if_pos empty, if_pos empty, List.flatMap_singleton]
    refine (inside context).map fun members => ?_
    cases multiple with
    | true => simp [Property.entries]
    | false => simp [Property.entries]
  rw [if_neg empty, if_neg empty]
  cases multiple with
  | true =>
    refine (Tells.forEach inside).map fun objects => ?_
    simp [Property.entries, List.flatMap_map]
  | false =>
    simp only [Bool.false_eq_true, if_false]
    cases (selectAll paths context).head? with
    | none => exact .pure (by simp [Property.entries])
    | some place =>
      rw [Option.toList_some, List.flatMap_singleton]
      refine (inside place).map fun members => ?_
      simp [Property.entries]

mutual
theorem property_tells (context : Place) (property : Property) :
    Tells (slotsOf (property.visits context)) property.entries
      (property.evaluate .lenient context) := by
  match property with
  | .leaf name paths multiple attributes filter =>
    rw [Property.visits, slotsOf, List.flatMap_singleton]
    exact leaf_tells context name paths multiple attributes filter
  | .group name paths multiple properties =>
    exact group_tells context fun place => set_tells place properties
  | .templates name sets =>
    rw [Property.visits, Property.evaluate, slotsOf_cons, Property.slots, List.nil_append]
    exact (templates_tell context sets).map fun objects => by rw [Property.entries]

theorem set_tells (context : Place) (properties : List Property) :
    Tells (slotsOf (setVisits context properties)) (setEntries properties)
      (evaluateSet .lenient context properties) := by
  match properties with
  | [] =>
    rw [setVisits, evaluateSet]
    exact .pure (by simp [setEntries])
  | property :: rest =>
    rw [setVisits, slotsOf_append, evaluateSet]
    exact (property_tells context property).pair (set_tells context rest) fun value others => by
      rw [setEntries]

theorem templates_tell (context : Place) (sets : List (List Property)) :
    Tells (slotsOf (templateVisits context sets)) (templateEntries sets)
      (evaluateSets .lenient context sets) := by
  match sets with
  | [] =>
    rw [templateVisits, evaluateSets]
    exact .pure (by simp [templateEntries])
  | set :: rest =>
    rw [templateVisits, slotsOf_append, evaluateSets]
    exact (set_tells context set).pair (templates_tell context rest) fun members others => by
      rw [templateEntries]
end

theorem mem_slotsOf {context : Place} {properties : List Property} {slot : Slot} :
    slot ∈ slotsOf (setVisits context properties) ↔
      ∃ leaf place, Reaches context properties leaf place ∧ slot ∈ leaf.slots place := by
  rw [slotsOf, List.mem_flatMap]
  simp only [setVisits_iff, Prod.exists]

/-- Lenient evaluation tells of unknown filters and of nothing else: slot by slot, in the order in
which the result has their entries. The slots are those of the leaves that are reached, so that a
single value is told of once at most, and nothing inside a group that selects nothing. -/
theorem evaluateSet_warnings (context : Place) (properties : List Property) :
    let slots := slotsOf (setVisits context properties)
    (∃ members, (evaluateSet .lenient context properties).result = .ok members ∧
      List.Forall₂ Slot.Holds slots (setEntries properties members)) ∧
    (evaluateSet .lenient context properties).warnings = slots.filterMap Slot.warning? ∧
    (∀ slot, slot ∈ slots ↔
      ∃ leaf place, Reaches context properties leaf place ∧ slot ∈ leaf.slots place) ∧
    (∀ name paths attributes filter,
      ((Property.leaf name paths false attributes filter).evaluate .lenient context).warnings =
        ((selectAll paths context).head?.bind fun place =>
          Slot.warning? ⟨name, attributes, filter, some place⟩).toList) ∧
    ∀ property : Property, property.Unmatched context →
      (property.evaluate .lenient context).warnings = [] := by
  intro slots
  obtain ⟨members, done, held, told⟩ := set_tells context properties
  refine ⟨⟨members, done, held⟩, told, fun _ => mem_slotsOf, ?_, ?_⟩
  · intro name paths attributes filter
    obtain ⟨_, _, _, told⟩ := leaf_tells context name paths false attributes filter
    rw [told, Property.slots, filterMap_warning?]
    cases (selectAll paths context).head? <;> rfl
  · intro property unmatched
    obtain ⟨name, paths, inner, rfl, filled, nothing⟩ := unmatched
    obtain ⟨_, _, _, told⟩ := property_tells context (.group name paths false inner)
    have unvisited : groupPlaces paths false context = [] := by
      simp [groupPlaces, filled, nothing]
    rw [told, Property.visits, unvisited]
    rfl

theorem evaluateSet_warnings_items :
    let numbered : Xml.Node := .element ⟨none, "item"⟩ [⟨⟨none, "n"⟩, "1"⟩] none []
    let plain : Xml.Node := .element ⟨none, "item"⟩ [] none []
    let list : Place := .inside (.document []) 1 (.element ⟨none, "list"⟩ [] none [numbered, plain])
    let items : Path := ⟨"item", .steps false [⟨.child, .tag "item", []⟩]⟩
    let notes : Path := ⟨"note", .steps false [⟨.child, .tag "note", []⟩]⟩
    let shout : Option FilterRef := some (.unknown "shout")
    let note : Property := .group "note" [notes] false [.leaf "text" [⟨".", .here⟩] false [] shout]
    let properties : List Property :=
      [.leaf "numbers" [items] true [⟨none, "n"⟩] shout, .leaf "first" [items] false [] shout, note]
    note.Unmatched list ∧ (note.evaluate .lenient list).warnings = [] ∧
      (evaluateSet .lenient list properties).warnings =
        [.unknownFilter "shout" "numbers", .unknownFilter "shout" "first"] := by
  intro numbered plain list items notes shout note properties
  have unmatched : note.Unmatched list := ⟨_, _, _, rfl, List.cons_ne_nil _ _, by cbv⟩
  obtain ⟨_, told, _, _, silent⟩ := evaluateSet_warnings list properties
  refine ⟨unmatched, silent note unmatched, ?_⟩
  rw [told]
  cbv

end Regesta
