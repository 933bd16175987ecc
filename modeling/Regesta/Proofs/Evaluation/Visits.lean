import Regesta.Evaluation

namespace Regesta

open Xml (Place)

/-- A property at a node has another set of properties evaluated at a node. -/
inductive Property.Opens : Property → Place → List Property → Place → Prop
  | here {name : String} {multiple : Bool} {properties : List Property} {place : Place} :
    Opens (.group name [] multiple properties) place properties place
  | each {name : String} {paths : List Path} {properties : List Property} {place next : Place} :
    paths ≠ [] → next ∈ selectAll paths place →
    Opens (.group name paths true properties) place properties next
  | first {name : String} {paths : List Path} {properties : List Property} {place next : Place} :
    paths ≠ [] → (selectAll paths place).head? = some next →
    Opens (.group name paths false properties) place properties next
  | template {name : String} {sets : List (List Property)} {set : List Property} {place : Place} :
    set ∈ sets → Opens (.templates name sets) place set place

/-- Evaluating properties at a node comes to a property at a node. -/
inductive Reaches (context : Place) (properties : List Property) : Property → Place → Prop
  | here {property : Property} : property ∈ properties → Reaches context properties property context
  | inside {outer property : Property} {set : List Property} {place next : Place} :
    Reaches context properties outer place → outer.Opens place set next → property ∈ set →
    Reaches context properties property next

/-- A single group has paths and selects nothing with them. -/
def Property.Unmatched (property : Property) (place : Place) : Prop :=
  ∃ name paths properties, property = .group name paths false properties ∧ paths ≠ [] ∧
    selectAll paths place = []

def Property.isUnmatched (property : Property) (place : Place) : Bool :=
  match property with
  | .group _ paths false _ => !paths.isEmpty && (selectAll paths place).isEmpty
  | _ => false

@[simp] theorem isUnmatched_iff (property : Property) (place : Place) :
    property.isUnmatched place = true ↔ property.Unmatched place := by
  unfold Property.isUnmatched Property.Unmatched
  split
  · next name paths properties =>
    rw [Bool.and_eq_true, Bool.not_eq_true', List.isEmpty_eq_false_iff, List.isEmpty_iff]
    constructor
    · intro both
      exact ⟨name, paths, properties, rfl, both⟩
    · intro ⟨_, _, _, same, both⟩
      cases same
      exact both
  · next other =>
    constructor
    · intro impossible
      cases impossible
    · intro ⟨name, paths, properties, same, _⟩
      exact absurd same (other name paths properties)

def groupPlaces (paths : List Path) (multiple : Bool) (context : Place) : List Place :=
  if paths.isEmpty then [context]
  else if multiple then selectAll paths context
  else (selectAll paths context).head?.toList

mutual
def Property.visits (context : Place) : Property → List (Property × Place)
  | .leaf name paths multiple attributes filter =>
    [(.leaf name paths multiple attributes filter, context)]
  | .group name paths multiple properties =>
    (.group name paths multiple properties, context) ::
      (groupPlaces paths multiple context).flatMap fun place => setVisits place properties
  | .templates name sets => (.templates name sets, context) :: templateVisits context sets

def setVisits (context : Place) : List Property → List (Property × Place)
  | [] => []
  | property :: rest => property.visits context ++ setVisits context rest

def templateVisits (context : Place) : List (List Property) → List (Property × Place)
  | [] => []
  | set :: rest => setVisits context set ++ templateVisits context rest
end

theorem mem_setVisits {context : Place} {properties : List Property} {visit : Property × Place} :
    visit ∈ setVisits context properties ↔
      ∃ property ∈ properties, visit ∈ property.visits context := by
  induction properties with
  | nil => simp [setVisits]
  | cons property rest ih => simp [setVisits, ih]

theorem mem_templateVisits {context : Place} {sets : List (List Property)}
    {visit : Property × Place} :
    visit ∈ templateVisits context sets ↔ ∃ set ∈ sets, visit ∈ setVisits context set := by
  induction sets with
  | nil => simp [templateVisits]
  | cons set rest ih => simp [templateVisits, ih]

theorem opens_group_iff {name : String} {paths : List Path} {multiple : Bool}
    {properties set : List Property} {place next : Place} :
    (Property.group name paths multiple properties).Opens place set next ↔
      set = properties ∧ next ∈ groupPlaces paths multiple place := by
  unfold groupPlaces
  constructor
  · intro opens
    cases opens with
    | here => simp
    | each filled member => simp [filled, member]
    | first filled member => simp [filled, member]
  · intro ⟨same, member⟩
    subst same
    by_cases empty : paths = []
    · subst empty
      rw [List.isEmpty_nil, if_pos rfl, List.mem_singleton] at member
      subst member
      exact .here
    · rw [if_neg (by simpa using empty)] at member
      cases multiple with
      | true => exact .each empty member
      | false => exact .first empty (by simpa using member)

/-- From a property an evaluation comes to itself and to what is below the sets that it opens. -/
theorem mem_visits {context : Place} {property : Property} {visit : Property × Place} :
    visit ∈ property.visits context ↔
      visit = (property, context) ∨
        ∃ set next, property.Opens context set next ∧ visit ∈ setVisits next set := by
  cases property with
  | leaf name paths multiple attributes filter =>
    rw [Property.visits, List.mem_singleton]
    constructor
    · exact .inl
    · intro found
      rcases found with same | ⟨_, _, opens, _⟩
      · exact same
      · cases opens
  | group name paths multiple properties =>
    rw [Property.visits, List.mem_cons, List.mem_flatMap]
    simp only [opens_group_iff]
    constructor
    · intro found
      rcases found with same | ⟨place, member, below⟩
      · exact .inl same
      · exact .inr ⟨properties, place, ⟨rfl, member⟩, below⟩
    · intro found
      rcases found with same | ⟨set, place, ⟨rfl, member⟩, below⟩
      · exact .inl same
      · exact .inr ⟨place, member, below⟩
  | templates name sets =>
    rw [Property.visits, List.mem_cons, mem_templateVisits]
    constructor
    · intro found
      rcases found with same | ⟨set, member, below⟩
      · exact .inl same
      · exact .inr ⟨set, context, .template member, below⟩
    · intro found
      rcases found with same | ⟨set, next, opens, below⟩
      · exact .inl same
      · cases opens with
        | template member => exact .inr ⟨set, member, below⟩

theorem Reaches.deepen {context next place : Place} {properties set : List Property}
    {outer property : Property} (member : outer ∈ properties)
    (opens : outer.Opens context set next) (reaches : Reaches next set property place) :
    Reaches context properties property place := by
  induction reaches with
  | here inner => exact .inside (.here member) opens inner
  | inside _ further inner ih => exact .inside ih further inner

theorem reaches_iff {context place : Place} {properties : List Property} {property : Property} :
    Reaches context properties property place ↔
      ∃ first ∈ properties, (property, place) = (first, context) ∨
        ∃ set next, first.Opens context set next ∧ Reaches next set property place := by
  constructor
  · intro reaches
    induction reaches with
    | here member => exact ⟨_, member, .inl rfl⟩
    | @inside outer property set place next reaches opens inner ih =>
      obtain ⟨first, member, found⟩ := ih
      refine ⟨first, member, .inr ?_⟩
      rcases found with same | ⟨middle, start, firstOpens, below⟩
      · cases same
        exact ⟨set, next, opens, .here inner⟩
      · exact ⟨middle, start, firstOpens, below.inside opens inner⟩
  · intro ⟨first, member, found⟩
    rcases found with same | ⟨set, next, opens, below⟩
    · cases same
      exact .here member
    · exact below.deepen member opens

def Property.Enumerated (property : Property) : Prop :=
  ∀ context set next visit, property.Opens context set next →
    (visit ∈ setVisits next set ↔ Reaches next set visit.1 visit.2)

theorem visits_of_members {set : List Property} (each : ∀ property ∈ set, property.Enumerated)
    (context : Place) (visit : Property × Place) :
    visit ∈ setVisits context set ↔ Reaches context set visit.1 visit.2 := by
  rw [mem_setVisits, reaches_iff]
  simp only [mem_visits]
  constructor
  · intro ⟨property, member, found⟩
    refine ⟨property, member, found.imp id ?_⟩
    intro ⟨inner, next, opens, below⟩
    exact ⟨inner, next, opens, (each property member _ _ _ visit opens).mp below⟩
  · intro ⟨property, member, found⟩
    refine ⟨property, member, found.imp id ?_⟩
    intro ⟨inner, next, opens, below⟩
    exact ⟨inner, next, opens, (each property member _ _ _ visit opens).mpr below⟩

mutual
theorem property_enumerated (property : Property) : property.Enumerated := by
  match property with
  | .leaf .. =>
    intro context set next visit opens
    cases opens
  | .group _ _ _ properties =>
    have below := members_enumerated properties
    intro context set next visit opens
    obtain ⟨same, _⟩ := opens_group_iff.mp opens
    subst same
    exact visits_of_members below next visit
  | .templates _ sets =>
    have below := templates_enumerated sets
    intro context set next visit opens
    cases opens with
    | template member => exact visits_of_members (below set member) context visit

theorem members_enumerated (set : List Property) : ∀ property ∈ set, property.Enumerated := by
  match set with
  | [] => exact fun _ member => absurd member List.not_mem_nil
  | first :: rest =>
    have here := property_enumerated first
    have others := members_enumerated rest
    exact List.forall_mem_cons.mpr ⟨here, others⟩

theorem templates_enumerated (sets : List (List Property)) :
    ∀ set ∈ sets, ∀ property ∈ set, property.Enumerated := by
  match sets with
  | [] => exact fun _ member => absurd member List.not_mem_nil
  | first :: rest =>
    have here := members_enumerated first
    have others := templates_enumerated rest
    exact List.forall_mem_cons.mpr ⟨here, others⟩
end

@[simp] theorem setVisits_iff (context : Place) (properties : List Property)
    (visit : Property × Place) :
    visit ∈ setVisits context properties ↔ Reaches context properties visit.1 visit.2 :=
  visits_of_members (members_enumerated properties) context visit

end Regesta
