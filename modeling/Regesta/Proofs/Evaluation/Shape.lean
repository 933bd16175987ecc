import Regesta.Proofs.Path.Selection
import Regesta.Proofs.Reported
import Regesta.Evaluation

namespace Regesta

open Xml (ExpandedName Place)

/-- What paths select, path by path, and for each path in document order. -/
inductive Selected (context : Place) : List Path → List Place → Prop
  | none : Selected context [] []
  | path {path : Path} {rest : List Path} {places : List Place} :
    (path.select context).Pairwise (fun a b => a.number < b.number) →
    Selected context rest places → Selected context (path :: rest) (path.select context ++ places)

def selectedCount (context : Place) : List Path → Nat
  | [] => 0
  | path :: rest => (path.select context).length + selectedCount context rest

inductive ExtractedAt (property : String) (attributes : List ExpandedName)
    (filter : Option FilterRef) (place : Place) : Value → Prop
  | text {text : String} : (extract property attributes filter place).result = .ok (some text) →
    ExtractedAt property attributes filter place (.text text)
  | null : (extract property attributes filter place).result = .ok none →
    ExtractedAt property attributes filter place .null

mutual
inductive PropertyFits (mode : Mode) : Place → Property → Value → Prop
  | text {context place : Place} {others : List Place} {name : String} {paths : List Path}
    {attributes : List ExpandedName} {filter : Option FilterRef} {value : Value} :
    Selected context paths (place :: others) → ExtractedAt name attributes filter place value →
    PropertyFits mode context (.leaf name paths false attributes filter) value
  | noText {context : Place} {name : String} {paths : List Path}
    {attributes : List ExpandedName} {filter : Option FilterRef} :
    Selected context paths [] →
    PropertyFits mode context (.leaf name paths false attributes filter) .null
  | texts {context : Place} {places : List Place} {name : String} {paths : List Path}
    {attributes : List ExpandedName} {filter : Option FilterRef} {values : List Value} :
    Selected context paths places → values.length = selectedCount context paths →
    List.Forall₂ (ExtractedAt name attributes filter) places values →
    PropertyFits mode context (.leaf name paths true attributes filter) (.list values)
  | here {context : Place} {name : String} {properties : List Property} {members : Members} :
    SetFits mode context properties members →
    PropertyFits mode context (.group name [] false properties) (.object members)
  | onlyHere {context : Place} {name : String} {properties : List Property} {members : Members} :
    SetFits mode context properties members →
    PropertyFits mode context (.group name [] true properties) (.list [.object members])
  | object {context place : Place} {others : List Place} {name : String} {paths : List Path}
    {properties : List Property} {members : Members} :
    paths ≠ [] → Selected context paths (place :: others) → SetFits mode place properties members →
    PropertyFits mode context (.group name paths false properties) (.object members)
  | noObject {context : Place} {name : String} {paths : List Path} {properties : List Property} :
    mode = .lenient → paths ≠ [] → (∀ path ∈ paths, path.select context = []) →
    PropertyFits mode context (.group name paths false properties) .null
  | objects {context : Place} {places : List Place} {name : String} {paths : List Path}
    {properties : List Property} {values : List Value} :
    paths ≠ [] → Selected context paths places → values.length = selectedCount context paths →
    ObjectsFit mode properties places values →
    PropertyFits mode context (.group name paths true properties) (.list values)
  | templates {context : Place} {name : String} {sets : List (List Property)}
    {values : List Value} :
    TemplatesFit mode context sets values →
    PropertyFits mode context (.templates name sets) (.list values)

inductive SetFits (mode : Mode) : Place → List Property → Members → Prop
  | nil {context : Place} : SetFits mode context [] []
  | cons {context : Place} {property : Property} {rest : List Property} {value : Value}
    {others : Members} :
    PropertyFits mode context property value → SetFits mode context rest others →
    SetFits mode context (property :: rest) ((property.name, value) :: others)

inductive ObjectsFit (mode : Mode) : List Property → List Place → List Value → Prop
  | nil {properties : List Property} : ObjectsFit mode properties [] []
  | cons {properties : List Property} {place : Place} {places : List Place} {members : Members}
    {values : List Value} :
    SetFits mode place properties members → ObjectsFit mode properties places values →
    ObjectsFit mode properties (place :: places) (.object members :: values)

inductive TemplatesFit (mode : Mode) : Place → List (List Property) → List Value → Prop
  | nil {context : Place} : TemplatesFit mode context [] []
  | cons {context : Place} {set : List Property} {rest : List (List Property)} {members : Members}
    {values : List Value} :
    SetFits mode context set members → TemplatesFit mode context rest values →
    TemplatesFit mode context (set :: rest) (.object members :: values)
end

theorem selectAll_selected (paths : List Path) (context : Place) :
    Selected context paths (selectAll paths context) := by
  induction paths with
  | nil => exact .none
  | cons path rest ih =>
    rw [selectAll, List.flatMap_cons]
    exact .path (path.select_ordered context) ih

@[simp] theorem length_selectAll (paths : List Path) (context : Place) :
    (selectAll paths context).length = selectedCount context paths := by
  induction paths with
  | nil => rfl
  | cons path rest ih =>
    rw [selectAll] at ih ⊢
    rw [List.flatMap_cons, List.length_append, ih, selectedCount]

theorem SetFits.names {mode : Mode} {context : Place} {properties : List Property}
    {members : Members} (fits : SetFits mode context properties members) :
    members.map Prod.fst = properties.map Property.name := by
  induction properties generalizing members with
  | nil =>
    cases fits
    rfl
  | cons property rest ih =>
    cases fits with
    | cons _ others => rw [List.map_cons, List.map_cons, ih others]

theorem ObjectsFit.of_forall {mode : Mode} {properties : List Property} {places : List Place}
    {objects : List Members}
    (each : List.Forall₂ (fun place members => SetFits mode place properties members) places
      objects) :
    ObjectsFit mode properties places (objects.map Value.object) := by
  induction each with
  | nil => exact .nil
  | cons first _ ih => exact .cons first ih

theorem extracted {name : String} {attributes : List ExpandedName} {filter : Option FilterRef}
    {place : Place} {text : Option String}
    (found : (extract name attributes filter place).result = .ok text) :
    ExtractedAt name attributes filter place (Value.ofText? text) := by
  cases text with
  | none => exact .null found
  | some text => exact .text found

theorem leaf_fits {mode : Mode} {context : Place} {name : String} {paths : List Path}
    {multiple : Bool} {attributes : List ExpandedName} {filter : Option FilterRef} {value : Value}
    (evaluated : (Property.evaluate mode context
      (.leaf name paths multiple attributes filter)).result = .ok value) :
    PropertyFits mode context (.leaf name paths multiple attributes filter) value := by
  have places := selectAll_selected paths context
  rw [Property.evaluate] at evaluated
  cases multiple with
  | true =>
    rw [if_pos rfl, Reported.map_ok_iff] at evaluated
    obtain ⟨texts, each, rfl⟩ := evaluated
    rw [Reported.forEach_ok_iff] at each
    have count : (texts.map Value.ofText?).length = selectedCount context paths := by
      rw [List.length_map, ← each.length_eq, length_selectAll]
    refine .texts places count ?_
    rw [List.forall₂_map_right_iff]
    exact each.imp fun _ _ found => extracted found
  | false =>
    simp only [Bool.false_eq_true, if_false] at evaluated
    cases selected : selectAll paths context with
    | nil =>
      rw [selected] at evaluated places
      cases evaluated
      exact .noText places
    | cons place others =>
      rw [selected] at evaluated places
      rw [List.head?_cons, Reported.map_ok_iff] at evaluated
      obtain ⟨text, found, rfl⟩ := evaluated
      exact .text places (extracted found)

theorem group_fits {mode : Mode} {context : Place} {name : String} {paths : List Path}
    {multiple : Bool} {properties : List Property} {value : Value}
    (inside : ∀ place members, (evaluateSet mode place properties).result = .ok members →
      SetFits mode place properties members)
    (evaluated : (Property.evaluate mode context (.group name paths multiple properties)).result =
      .ok value) :
    PropertyFits mode context (.group name paths multiple properties) value := by
  have places := selectAll_selected paths context
  rw [Property.evaluate] at evaluated
  by_cases empty : paths = []
  · subst empty
    rw [List.isEmpty_nil, if_pos rfl, Reported.map_ok_iff] at evaluated
    obtain ⟨members, done, rfl⟩ := evaluated
    cases multiple with
    | true => exact .onlyHere (inside context members done)
    | false => exact .here (inside context members done)
  rw [if_neg (by simpa using empty)] at evaluated
  cases multiple with
  | true =>
    rw [if_pos rfl, Reported.map_ok_iff] at evaluated
    obtain ⟨objects, each, rfl⟩ := evaluated
    rw [Reported.forEach_ok_iff] at each
    have count : (objects.map Value.object).length = selectedCount context paths := by
      rw [List.length_map, ← each.length_eq, length_selectAll]
    exact .objects empty places count (.of_forall (each.imp inside))
  | false =>
    simp only [Bool.false_eq_true, if_false] at evaluated
    cases selected : selectAll paths context with
    | nil =>
      rw [selected] at evaluated
      cases mode with
      | lenient =>
        cases evaluated
        rw [selectAll, List.flatMap_eq_nil_iff] at selected
        exact .noObject rfl empty selected
      | strict => cases evaluated
    | cons place others =>
      rw [selected] at evaluated places
      rw [List.head?_cons, Reported.map_ok_iff] at evaluated
      obtain ⟨members, done, rfl⟩ := evaluated
      exact .object empty places (inside place members done)

mutual
theorem property_fits {mode : Mode} {context : Place} (property : Property) {value : Value}
    (evaluated : (property.evaluate mode context).result = .ok value) :
    PropertyFits mode context property value := by
  match property with
  | .leaf name paths multiple attributes filter => exact leaf_fits evaluated
  | .group name paths multiple properties =>
    exact group_fits (fun _ _ done => set_fits properties done) evaluated
  | .templates name sets =>
    rw [Property.evaluate, Reported.map_ok_iff] at evaluated
    obtain ⟨values, done, rfl⟩ := evaluated
    exact .templates (templates_fit sets done)

theorem set_fits {mode : Mode} {context : Place} (properties : List Property) {members : Members}
    (evaluated : (evaluateSet mode context properties).result = .ok members) :
    SetFits mode context properties members := by
  match properties with
  | [] =>
    rw [evaluateSet] at evaluated
    cases evaluated
    exact .nil
  | property :: rest =>
    rw [evaluateSet, Reported.bind_ok_iff] at evaluated
    obtain ⟨value, first, later⟩ := evaluated
    rw [Reported.map_ok_iff] at later
    obtain ⟨others, done, rfl⟩ := later
    exact .cons (property_fits property first) (set_fits rest done)

theorem templates_fit {mode : Mode} {context : Place} (sets : List (List Property))
    {values : List Value} (evaluated : (evaluateSets mode context sets).result = .ok values) :
    TemplatesFit mode context sets values := by
  match sets with
  | [] =>
    rw [evaluateSets] at evaluated
    cases evaluated
    exact .nil
  | set :: rest =>
    rw [evaluateSets, Reported.bind_ok_iff] at evaluated
    obtain ⟨members, first, later⟩ := evaluated
    rw [Reported.map_ok_iff] at later
    obtain ⟨others, done, rfl⟩ := later
    exact .cons (set_fits set first) (templates_fit rest done)
end

/-- What an evaluation results in has one member for each property, in order and under its name, and
each member has the shape of its property. -/
theorem evaluateSet_fits {mode : Mode} {context : Place} {properties : List Property}
    {members : Members} (evaluated : (evaluateSet mode context properties).result = .ok members) :
    members.map Prod.fst = properties.map Property.name ∧
      SetFits mode context properties members := by
  have fits := set_fits properties evaluated
  exact ⟨fits.names, fits⟩

theorem evaluateSet_fits_items :
    let numbered : Xml.Node := .element ⟨none, "item"⟩ [⟨⟨none, "n"⟩, "1"⟩] none []
    let plain : Xml.Node := .element ⟨none, "item"⟩ [] none []
    let list : Place := .inside (.document []) 1 (.element ⟨none, "list"⟩ [] none [numbered, plain])
    let items : Path := ⟨"item", .steps false [⟨.child, .tag "item", []⟩]⟩
    let notes : Path := ⟨"note", .steps false [⟨.child, .tag "note", []⟩]⟩
    let number : Property := .leaf "number" [⟨".", .here⟩] false [⟨none, "n"⟩] none
    let properties : List Property :=
      [.leaf "numbers" [items, items] true [⟨none, "n"⟩] none, .group "items" [items] true [number],
        .group "note" [notes] false [number], .templates "forms" [[number], []]]
    let members : Members :=
      [("numbers", .list [.text "1", .null, .text "1", .null]),
        ("items", .list [.object [("number", .text "1")], .object [("number", .null)]]),
        ("note", .null), ("forms", .list [.object [("number", .null)], .object []])]
    (evaluateSet .lenient list properties).result = .ok members ∧
      members.map Prod.fst = ["numbers", "items", "note", "forms"] ∧
      SetFits .lenient list properties members := by
  intro numbered plain list items notes number properties members
  have evaluated : (evaluateSet .lenient list properties).result = .ok members := by cbv
  exact ⟨evaluated, evaluateSet_fits evaluated⟩

end Regesta
