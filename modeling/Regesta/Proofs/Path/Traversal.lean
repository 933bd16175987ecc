import Regesta.Proofs.Path.Abbreviation
import Regesta.Proofs.Service.Rendition

namespace Regesta

open Xml (Document Node Place)

namespace Xml.Place

def text? (place : Place) : Option String :=
  match place.node? with
  | some (.text value) => some value
  | _ => none

-- The texts below are gathered along the nodes, and the places along with their numbers.
mutual
theorem fullText_within {place : Place} (node : Node) (found : place.node? = some node) :
    node.fullText = String.join ((place :: within place node).filterMap text?) := by
  cases node with
  | element name attributes source content =>
    have silent : place.text? = none := by rw [text?, found]
    rw [Node.fullText, within, List.filterMap_cons_none silent]
    exact textAll_withinAll place (place.number + 1) content
  | text value =>
    have own : place.text? = some value := by rw [text?, found]
    rw [Node.fullText, within, List.filterMap_cons_some own]
    simp
  | comment value =>
    have silent : place.text? = none := by rw [text?, found]
    rw [Node.fullText, within, List.filterMap_cons_none silent]
    rfl
  | instruction target value =>
    have silent : place.text? = none := by rw [text?, found]
    rw [Node.fullText, within, List.filterMap_cons_none silent]
    rfl

theorem textAll_withinAll (parent : Place) (next : Nat) (nodes : List Node) :
    Node.textAll nodes = String.join ((withinAll parent next nodes).filterMap text?) := by
  cases nodes with
  | nil => rfl
  | cons node rest =>
    let place := inside parent next node
    have first : node.fullText = String.join ((place :: within place node).filterMap text?) :=
      fullText_within node rfl
    rw [Node.textAll, withinAll, ← List.cons_append, List.filterMap_append, String.join_append,
      first, textAll_withinAll parent (next + node.size) rest]
end

theorem fullText_eq_join (place : Place) :
    place.fullText = String.join ((place :: place.descendants).filterMap text?) := by
  cases place with
  | document content =>
    rw [List.filterMap_cons_none rfl]
    exact textAll_withinAll _ _ _
  | inside parent number node =>
    rw [← within_eq_descendants]
    exact fullText_within node rfl

theorem text?_isSome (place : Place) : place.text?.isSome = place.isText := by
  cases place with
  | document content => rfl
  | inside parent number node => cases node <;> rfl

theorem map_text?_filter (places : List Place) :
    (places.filter isText).map text? = (places.filterMap text?).map some := by
  induction places with
  | nil => rfl
  | cons place rest ih =>
    have kind := place.text?_isSome
    cases own : place.text? with
    | none =>
      rw [own] at kind
      rw [List.filter_cons_of_neg (by simp [← kind]), List.filterMap_cons_none own, ih]
    | some value =>
      rw [own] at kind
      rw [List.filter_cons_of_pos kind.symm, List.filterMap_cons_some own, List.map_cons, own, ih,
        List.map_cons]

end Xml.Place

theorem NodeTest.accepts_tag (tag : String) (place : Place) :
    (NodeTest.tag tag).accepts place = (place.isElement && place.tag == tag) := by
  cases place with
  | document content => rfl
  | inside parent number node => cases node <;> rfl

namespace Path

/-- One step along a forward axis, without predicates, selects what it meets there as it meets it. -/
theorem followSteps_forward {document : Document} {place : Place}
    (member : place ∈ document.places) {axis : Axis} (forward : axis.isReverse = false)
    (test : NodeTest) :
    followSteps [⟨axis, test, []⟩] [place] = (axis.places place).filter test.accepts := by
  have placed : ∀ start ∈ [place], start ∈ document.places := by
    intro start single
    rw [List.mem_singleton.mp single]
    exact member
  rw [followSteps_cons]
  apply ordered_eq (inDocumentOrder_ordered _) ((Axis.forward_ordered member forward).filter _)
  intro other
  exact (Step.mem_advance placed _ other).trans (by simp [Step.places])

theorem select_forward {path : Path} {axis : Axis} {test : NodeTest}
    (route : path.route = .steps false [⟨axis, test, []⟩]) (forward : axis.isReverse = false)
    {document : Document} {place : Place} (member : place ∈ document.places) :
    path.select place = (axis.places place).filter test.accepts := by
  rw [select, route]
  exact followSteps_forward member forward test

/-- What `.//` and a name select: the elements of that name inside a place, in document order. -/
theorem select_below (namespaces : Namespaces) {tag : String} (named : isName tag.toList = true) :
    ∃ path, read namespaces (".//" ++ tag) = .ok path ∧
      ∀ (document : Document), ∀ place ∈ document.places,
        path.select place = place.descendants.filter (NodeTest.tag tag).accepts := by
  have tested : (NodeTest.tag tag).Spells namespaces tag.toList := by
    have spells : (NodeTest.tag (String.ofList tag.toList)).Spells namespaces tag.toList :=
      .tag named
    rwa [String.ofList_toList] at spells
  have bare : Predicate.SpellsAll namespaces "".toList [] := .nil
  obtain ⟨⟨path, found⟩, alike⟩ := below_here tested bare (by simp)
  have descendant := descendant_spells tested bare
  have written : ("descendant::" ++ tag ++ "").toList =
      "descendant::".toList ++ (tag.toList ++ "".toList) := by simp
  obtain ⟨other, otherFound, route⟩ := read_of_spells written (step_tight descendant).1
    (.relative (by simp) (by simp) (spells_alone descendant))
  have same : ".//" ++ tag ++ "" = ".//" ++ tag := String.append_empty
  refine ⟨path, same ▸ found, ?_⟩
  intro document place member
  rw [← alike.selects path other found otherFound document place member]
  exact select_forward route rfl member

theorem find?_eq_head? {document : Document} {place : Place} (member : place ∈ document.places)
    {path : Path} {tag : String}
    (selects : ∀ (document : Document), ∀ place ∈ document.places,
      path.select place = place.descendants.filter (NodeTest.tag tag).accepts) :
    place.find? tag = (path.select place).head? := by
  rw [selects document place member, List.head?_filter, Place.find?]
  congr 1
  funext other
  exact (NodeTest.accepts_tag tag other).symm

end Path

theorem Service.mem_of_placeOf? {entity : Entity} {id : String} {document : Document}
    {place : Place} (placed : placeOf? entity id document = some place) :
    place ∈ document.places :=
  entity.root.select_subset _ _ (first_of_placeOf? placed).member

theorem Service.render?_json_iff {service : Service} {name id text : String} :
    service.render? name id .json = .ok (some text) ↔
      ∃ entity finding document place, service.manifest.entity name = .ok entity ∧
        service.snapshot.find? name id = some finding ∧
        finding.resource.document = .ok document ∧
        placeOf? entity id document = some place ∧ text = dataText place := by
  constructor
  · intro rendered
    obtain ⟨entity, known, shown⟩ := bind_ok_iff.mp rendered
    cases found : service.snapshot.find? name id with
    | none =>
      rw [found] at shown
      cases shown
    | some finding =>
      rw [found] at shown
      obtain ⟨document, read, shown⟩ := bind_ok_iff.mp shown
      cases placed : placeOf? entity id document with
      | none =>
        rw [placed] at shown
        cases shown
      | some place =>
        rw [placed] at shown
        cases shown
        exact ⟨entity, finding, document, place, known, rfl, read, placed, rfl⟩
  · intro there
    obtain ⟨entity, finding, document, place, known, found, read, placed, same⟩ := there
    rw [render?_json known found read placed, same]

/-- Searching, listing and gathering find what paths select from a place. What is shown of an entity
as data starts at the first header that a path selects from it, if there is one. -/
theorem traversals_select {document : Document} {place : Place}
    (member : place ∈ document.places) (namespaces : Namespaces) :
    (∀ tag : String, Path.isName tag.toList = true →
      place.find? tag ≠ some place ∧
        ∃ path, Path.read namespaces (".//" ++ tag) = .ok path ∧
          place.find? tag = (path.select place).head?) ∧
    (∃ path, Path.read namespaces "*" = .ok path ∧ place.elements = path.select place) ∧
    (∃ path texts, Path.read namespaces "descendant-or-self::text()" = .ok path ∧
      (path.select place).map Place.text? = texts.map some ∧
      place.fullText = String.join texts) ∧
    ∃ path, Path.read namespaces ".//teiHeader" = .ok path ∧
      ∀ (service : Service) (name id text : String),
        service.render? name id .json = .ok (some text) ↔
          ∃ entity finding document shown, service.manifest.entity name = .ok entity ∧
            service.snapshot.find? name id = some finding ∧
            finding.resource.document = .ok document ∧
            Service.placeOf? entity id document = some shown ∧
            text = ((path.select shown).head?.getD shown).toValue.pretty := by
  refine ⟨?_, ?_, ?_, ?_⟩
  · intro tag named
    obtain ⟨path, found, selects⟩ := Path.select_below namespaces named
    refine ⟨?_, path, found, Path.find?_eq_head? member selects⟩
    intro itself
    have below := List.mem_of_find?_eq_some itself
    have later := Place.number_lt_of_encloses ((Place.mem_descendants_iff _ _).mp below)
    omega
  · refine ⟨⟨"*", .steps false [⟨.child, .element, []⟩]⟩, rfl, ?_⟩
    rw [Path.select_forward rfl rfl member]
    rfl
  · refine ⟨⟨"descendant-or-self::text()", .steps false [⟨.descendantOrSelf, .text, []⟩]⟩,
      (place :: place.descendants).filterMap Place.text?, rfl, ?_, place.fullText_eq_join⟩
    rw [Path.select_forward rfl rfl member]
    exact Place.map_text?_filter _
  · have named : Path.isName Service.headerTag.toList = true := by decide
    obtain ⟨path, found, selects⟩ := Path.select_below namespaces named
    refine ⟨path, found, ?_⟩
    intro service name id text
    rw [Service.render?_json_iff]
    refine exists_congr fun entity => exists_congr fun finding => exists_congr fun document =>
      exists_congr fun shown => ?_
    refine and_congr_right fun _ => and_congr_right fun _ => and_congr_right fun _ =>
      and_congr_right fun placed => ?_
    rw [Service.dataText, Path.find?_eq_head? (Service.mem_of_placeOf? placed) selects]

theorem traversals_select_inner_header :
    let inner : Node := .element ⟨none, "teiHeader"⟩ [] none [.text "inner"]
    let outer : Node := .element ⟨none, "teiHeader"⟩ [] none
      [.text "a", .comment "note", .element ⟨none, "x"⟩ [] none [inner]]
    let document : Document := ⟨[outer]⟩
    let place : Place := .inside document.root 1 outer
    place ∈ document.places ∧ (place.find? "teiHeader").map Place.number = some 5 ∧
      place.fullText = "ainner" ∧
      ∃ path, Path.read [] ".//teiHeader" = .ok path ∧
        place.find? "teiHeader" = (path.select place).head? := by
  intro inner outer document place
  have member : place ∈ document.places :=
    Document.mem_of_encloses document.root_mem List.mem_cons_self
  have named : Path.isName "teiHeader".toList = true := by decide
  obtain ⟨search, _⟩ := traversals_select member []
  refine ⟨member, by cbv, by rfl, (search "teiHeader" named).2⟩

end Regesta
