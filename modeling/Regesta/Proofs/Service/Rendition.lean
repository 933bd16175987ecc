import Mathlib.Data.List.Pairwise
import Regesta.Proofs.Collection.Listing
import Regesta.Proofs.Evaluation.Modes
import Regesta.Proofs.Except

namespace Regesta

open Xml (Document Place)

namespace Entity

structure First (entity : Entity) (document : Document) (condition : Place → Prop)
    (place : Place) : Prop where
  member : place ∈ entity.places document
  holds : condition place
  earliest : ∀ other ∈ entity.places document, condition other → place.number ≤ other.number

def Bears (entity : Entity) (id : String) (place : Place) : Prop := entity.id? place = some id

def Succeeds (entity : Entity) (mode : Mode) (place : Place) : Prop :=
  ∃ record, (entity.record mode place).result = .ok record

variable {entity : Entity} {mode : Mode} {document : Document} {place : Place}

theorem places_ordered (entity : Entity) (document : Document) :
    (entity.places document).Pairwise fun a b => a.number < b.number :=
  entity.root.select_ordered document.root

theorem eq_of_number {other : Place} (member : place ∈ entity.places document)
    (otherMember : other ∈ entity.places document) (same : place.number = other.number) :
    place = other := by
  have apart : (entity.places document).Pairwise fun a b => a.number ≠ b.number :=
    (entity.places_ordered document).imp Nat.ne_of_lt
  have symmetric : Std.Symm fun a b : Place => a.number ≠ b.number := ⟨fun _ _ => Ne.symm⟩
  by_contra differ
  exact apart.forall member otherMember differ same

theorem first_of_find? {condition : Place → Prop} {decides : Place → Bool}
    (decided : ∀ place, decides place = true ↔ condition place)
    (found : (entity.places document).find? decides = some place) :
    entity.First document condition place := by
  obtain ⟨holds, before, after, split, missed⟩ := List.find?_eq_some_iff_append.mp found
  refine ⟨List.mem_of_find?_eq_some found, (decided place).mp holds, ?_⟩
  intro other member otherHolds
  have ordered := entity.places_ordered document
  rw [split, List.pairwise_append, List.pairwise_cons] at ordered
  rw [split, List.mem_append, List.mem_cons] at member
  rcases member with early | rfl | late
  · have refused := missed other early
    rw [(decided other).mpr otherHolds] at refused
    cases refused
  · exact Nat.le_refl _
  · exact Nat.le_of_lt (ordered.2.1.1 other late)

theorem bears_iff {record : Record} (made : (entity.record mode place).result = .ok record)
    (id : String) :
    (record.isAddressable && record.id == id) = true ↔ entity.Bears id place := by
  obtain ⟨members, _, same⟩ := record_ok_iff.mp made
  subst same
  rw [Bool.and_eq_true, Record.isAddressable, Bool.not_eq_true', beq_iff_eq, Bears]
  cases written : entity.id? place with
  | none =>
    simp
  | some other =>
    have filled : other.isEmpty = false := by
      have both := Option.filter_eq_some_iff.mp written
      simpa using both.2
    simp [filled]

theorem findingsIn_find? {files : List (String × File)} {id : String} {finding : Finding}
    (found : ((entity.findingsIn mode files).find? fun finding =>
      finding.record.isAddressable && finding.record.id == id) = some finding) :
    finding.resource ∈ files.filterMap Collection.resource? ∧
      ∃ document record origin, finding.resource.document = .ok document ∧
        (entity.record mode origin).result = .ok record ∧
        finding.record = { record with resource := some finding.resource.id } ∧
        entity.First document (fun place => entity.Bears id place ∧ entity.Succeeds mode place)
          origin := by
  rw [findingsIn, List.find?_flatMap] at found
  obtain ⟨resource, member, inDocument⟩ := List.exists_of_findSome?_eq_some found
  obtain ⟨file, _, taken⟩ := List.mem_filterMap.mp member
  obtain ⟨document, read, _⟩ := Collection.resource?_eq_some taken
  rw [Resource.found_eq read, List.find?_map, Option.map_eq_some_iff] at inDocument
  obtain ⟨record, listed, same⟩ := inDocument
  subst same
  rw [records_eq, List.find?_filterMap, Option.bind_eq_some_iff] at listed
  obtain ⟨origin, first, kept⟩ := listed
  have made : (entity.record mode origin).result = .ok record := by
    cases done : (entity.record mode origin).result with
    | error error =>
      rw [done] at kept
      cases kept
    | ok other =>
      rw [done] at kept
      cases kept
      rfl
  refine ⟨member, document, record, origin, read, made, rfl, first_of_find? ?_ first⟩
  intro place
  cases done : (entity.record mode place).result with
  | error error => simp [Succeeds, done, Except.toOption]
  | ok other =>
    have borne := bears_iff done id
    simp only [Except.toOption, Option.any_some, Function.comp_def]
    rw [← borne]
    exact ⟨fun holds => ⟨holds, other, done⟩, fun both => both.1⟩

theorem First.eq_iff {id : String} {origin shown : Place}
    (made : entity.First document (fun place => entity.Bears id place ∧ entity.Succeeds mode place)
      origin) (first : entity.First document (entity.Bears id) shown) :
    shown = origin ↔ ∀ place ∈ entity.places document, entity.Bears id place →
      place.number < origin.number → entity.Succeeds mode place := by
  constructor
  · intro same place member bears before
    have later := first.earliest place member bears
    rw [same] at later
    exact absurd before (Nat.not_lt.mpr later)
  · intro succeed
    have early := first.earliest origin made.member made.holds.1
    apply eq_of_number first.member made.member
    -- Were the first bearer an earlier one, its record would have been made and found.
    rcases Nat.lt_or_eq_of_le early with before | same
    · have succeeds := succeed shown first.member first.holds before
      have late := made.earliest shown first.member ⟨first.holds, succeeds⟩
      exact absurd before (Nat.not_lt.mpr late)
    · exact same

theorem succeeds_lenient (entity : Entity) (place : Place) : entity.Succeeds .lenient place :=
  (entity.record_follows place).total

end Entity

namespace Service

theorem first_of_placeOf? {entity : Entity} {id : String} {document : Document} {place : Place}
    (placed : placeOf? entity id document = some place) :
    entity.First document (entity.Bears id) place :=
  Entity.first_of_find? (fun _ => beq_iff_eq) placed

theorem placeOf?_first {entity : Entity} {id : String} {document : Document} {origin : Place}
    (member : origin ∈ entity.places document) (bears : entity.Bears id origin) :
    ∃ shown, placeOf? entity id document = some shown ∧
      entity.First document (entity.Bears id) shown := by
  have there : (placeOf? entity id document).isSome = true :=
    List.find?_isSome.mpr ⟨origin, member, beq_iff_eq.mpr bears⟩
  obtain ⟨shown, found⟩ := Option.isSome_iff_exists.mp there
  exact ⟨shown, found, first_of_placeOf? found⟩

theorem get?_eq_some {service : Service} {name id : String} {record : Record}
    (got : service.get? name id = .ok (some record)) :
    ∃ entity finding, service.manifest.entity name = .ok entity ∧
      service.snapshot.find? name id = some finding ∧ finding.record = record := by
  rw [get?, bind_ok_iff] at got
  obtain ⟨entity, known, found⟩ := got
  have same := Except.ok.inj found
  rw [Option.map_eq_some_iff] at same
  obtain ⟨finding, first, same⟩ := same
  exact ⟨entity, finding, known, first, same⟩

theorem entity_name {manifest : Manifest} {name : String} {entity : Entity}
    (known : manifest.entity name = .ok entity) : entity.name = name := by
  unfold Manifest.entity at known
  split at known
  · next found =>
    cases known
    simpa using List.find?_some found
  · cases known

theorem get?_found {service : Service} {name id : String} {entity : Entity} {finding : Finding}
    (known : service.manifest.entity name = .ok entity)
    (found : service.snapshot.find? name id = some finding) :
    service.get? name id = .ok (some finding.record) := by
  rw [get?, known]
  simp only [bind, Except.bind, found]
  rfl

section

variable {service : Service} {name id : String} {entity : Entity} {finding : Finding}

theorem render?_record (known : service.manifest.entity name = .ok entity)
    (found : service.snapshot.find? name id = some finding) :
    service.render? name id .record = .ok (some finding.record.toValue.pretty) := by
  rw [render?, known]
  simp only [bind, Except.bind, found]
  rfl

variable {document : Document} {place : Place}

theorem render?_xml (known : service.manifest.entity name = .ok entity)
    (found : service.snapshot.find? name id = some finding)
    (read : finding.resource.document = .ok document)
    (placed : placeOf? entity id document = some place) :
    service.render? name id .xml = sourceText name id place := by
  rw [render?, known]
  simp only [bind, Except.bind, found, renderSource, read, placed,
    entity_name known]

theorem render?_json (known : service.manifest.entity name = .ok entity)
    (found : service.snapshot.find? name id = some finding)
    (read : finding.resource.document = .ok document)
    (placed : placeOf? entity id document = some place) :
    service.render? name id .json = .ok (some (dataText place)) := by
  rw [render?, known]
  simp only [bind, Except.bind, found, renderSource, read, placed]
  rfl

end

/-- Where a record is found under an identifier, source and data are those of the first entity of
its document that bears the identifier. That is the entity of the record just when no record of an
earlier bearer has failed, and so it always is in lenient mode. -/
theorem shows_first_bearer {manifest : Manifest} {collection : Collection} {now : Moment}
    {contents : Option Directory} {service : Service} {name id : String} {record : Record}
    (wellFormed : ∀ tree ∈ contents, tree.WellFormed)
    (started : (start manifest collection now contents).result = .ok service)
    (got : service.get? name id = .ok (some record)) :
    ∃ files entity resource document made origin shown,
      collection.files contents = .ok files ∧ manifest.entity name = .ok entity ∧
      resource ∈ files.filterMap Collection.resource? ∧ resource.document = .ok document ∧
      (entity.record manifest.mode origin).result = .ok made ∧
      record = { made with resource := some resource.id } ∧
      entity.First document
        (fun place => entity.Bears id place ∧ entity.Succeeds manifest.mode place) origin ∧
      entity.First document (entity.Bears id) shown ∧
      service.render? name id .record = .ok (some record.toValue.pretty) ∧
      service.render? name id .xml = sourceText name id shown ∧
      service.render? name id .json = .ok (some (dataText shown)) ∧
      (shown = origin ↔ ∀ place ∈ entity.places document, entity.Bears id place →
        place.number < origin.number → entity.Succeeds manifest.mode place) ∧
      (manifest.mode = .lenient → shown = origin) := by
  obtain ⟨contents, rfl⟩ := start_some started
  obtain ⟨sameManifest, _, loaded⟩ := start_ok_iff.mp started
  obtain ⟨entity, finding, known, found, same⟩ := get?_eq_some got
  have knownHere := known
  rw [sameManifest] at knownHere
  have first := found
  rw [Snapshot.find?_eq (Snapshot.holdings?_load loaded knownHere)
    (Collection.inventory_apart (wellFormed contents rfl))] at first
  obtain ⟨member, document, made, origin, read, makes, recorded, isOrigin⟩ :=
    Entity.findingsIn_find? first
  obtain ⟨shown, placed, isShown⟩ := placeOf?_first isOrigin.member isOrigin.holds.1
  refine ⟨Collection.inventory contents, entity, finding.resource, document, made, origin, shown,
    rfl, knownHere, member, read, makes, same.symm.trans recorded, isOrigin, isShown, ?_,
    render?_xml known found read placed, render?_json known found read placed,
    isOrigin.eq_iff isShown, ?_⟩
  · rw [render?_record known found, same]
  · intro lenient
    rw [isOrigin.eq_iff isShown, lenient]
    exact fun place _ _ _ => entity.succeeds_lenient place

namespace Namesakes

/-- Two persons of one identifier. Only the second has a birth, without which there is no record. -/
def text : String := "<l><p id='P'/><p id='P'><b>1821</b></p></l>"

def bare : Xml.Node := .element ⟨none, "p"⟩ [⟨⟨none, "id"⟩, "P"⟩] (some "<p id='P'/>") []

def born : Xml.Node :=
  .element ⟨none, "p"⟩ [⟨⟨none, "id"⟩, "P"⟩] (some "<p id='P'><b>1821</b></p>")
    [.element ⟨none, "b"⟩ [] (some "<b>1821</b>") [.text "1821"]]

def list : Xml.Node := .element ⟨none, "l"⟩ [] (some text) [bare, born]

def document : Document := ⟨[list]⟩

def listed (number : Nat) (person : Xml.Node) : Place :=
  .inside (.inside document.root 1 list) number person

def persons : Entity :=
  let year : Property := .leaf "year" [⟨".", .here⟩] false [] none
  ⟨"persons", ⟨"/l/p", .steps true [⟨.child, .tag "l", []⟩, ⟨.child, .tag "p", []⟩]⟩, ⟨none, "id"⟩,
    [.group "birth" [⟨"b", .steps false [⟨.child, .tag "b", []⟩]⟩] false [year]]⟩

def manifest : Manifest := ⟨"register", [persons], ⟨none, "id"⟩, [], .strict⟩

def contents : Directory := [("a.xml", .file ⟨text.toUTF8, 0⟩)]

def record : Record := ⟨"P", "persons", some "a.xml", [("birth", .object [("year", .text "1821")])]⟩

theorem read : Document.read? text = some document := by rfl

theorem places : persons.places document = [listed 2 bare, listed 3 born] := by
  cbv

theorem bare_fails : (persons.record .strict (listed 2 bare)).result =
    .error (.noMatch "b" "birth") := by
  have id : persons.id? (listed 2 bare) = some "P" := rfl
  have failed : (evaluateSet .strict (listed 2 bare) persons.properties).result =
      .error (.noMatch "b" "birth") := by
    cbv
  rw [Entity.record, id]
  change (evaluateSet .strict (listed 2 bare) persons.properties >>= _).result = _
  exact Reported.bind_error _ failed

theorem born_made : (persons.record .strict (listed 3 born)).result =
    .ok { record with resource := none } := by
  have evaluated : (evaluateSet .strict (listed 3 born) persons.properties).result =
      .ok record.properties := by
    cbv
  exact Entity.record_ok_iff.mpr ⟨_, evaluated, rfl⟩

theorem born_first : persons.First document
    (fun place => persons.Bears "P" place ∧ persons.Succeeds .strict place) (listed 3 born) := by
  refine ⟨?_, ⟨?_, _, born_made⟩, ?_⟩
  · rw [places]
    exact .tail _ (.head _)
  · rfl
  · intro other member both
    obtain ⟨_, made, succeeds⟩ := both
    rw [places, List.mem_pair] at member
    rcases member with rfl | rfl
    · rw [bare_fails] at succeeds
      cases succeeds
    · exact Nat.le_refl _

theorem files : Collection.inventory contents = [("a.xml", ⟨text.toUTF8, 0⟩)] := by
  have kept : (filesOf contents).filter (fun file => Collection.isXmlFile file.1) =
      [(["a.xml"], ⟨text.toUTF8, 0⟩)] := by
    rfl
  rw [Collection.inventory_of_ordered kept (List.pairwise_singleton _ _)]
  rfl

theorem wellFormed : contents.WellFormed := by
  simp only [contents, Directory.WellFormed, Entry.WellFormed]
  decide

theorem started :
    ∃ service resource, (start manifest ⟨"register"⟩ 0 (some contents)).result = .ok service ∧
      resource.document = .ok document ∧ service.manifest.entity "persons" = .ok persons ∧
      service.snapshot.find? "persons" "P" = some ⟨record, resource⟩ := by
  obtain ⟨service, started⟩ := start_total manifest ⟨"register"⟩ 0 contents
  obtain ⟨sameManifest, _, loaded⟩ := start_ok_iff.mp started
  have known : manifest.entity "persons" = .ok persons := by rfl
  obtain ⟨resource, made, id, holds⟩ :=
    @Collection.resource?_of_read ("a.xml", ⟨text.toUTF8, 0⟩) text document
      (File.text?_toUTF8 text 0) read
  have records : (persons.records .strict document).2 = [{ record with resource := none }] := by
    rw [Entity.records_eq, places]
    simp only [List.filterMap_cons, bare_fails, born_made, Except.toOption, List.filterMap_nil]
  have found : persons.findingsIn .strict (Collection.inventory contents) =
      [⟨record, resource⟩] := by
    rw [files, Entity.findingsIn_cons, made, Option.map_some, Option.getD_some,
      Resource.found_eq holds, records, id]
    rfl
  refine ⟨service, resource, started, holds, ?_, ?_⟩
  · rw [sameManifest]
    exact known
  · have kept := Snapshot.holdings?_load loaded known
    rw [Snapshot.find?_eq kept (Collection.inventory_apart wellFormed)]
    change (persons.findingsIn .strict (Collection.inventory contents)).find? _ = _
    rw [found]
    rfl

theorem shows_failed_namesake :
    ∃ service resource,
      (start manifest ⟨"register"⟩ 0 (some contents)).result = .ok service ∧
      service.get? "persons" "P" = .ok (some record) ∧
      service.snapshot.find? "persons" "P" = some ⟨record, resource⟩ ∧
      resource.document = .ok document ∧
      persons.First document
        (fun place => persons.Bears "P" place ∧ persons.Succeeds .strict place) (listed 3 born) ∧
      born.source? = some "<p id='P'><b>1821</b></p>" ∧
      service.render? "persons" "P" .xml = .ok (some "<p id='P'/>") ∧
      service.render? "persons" "P" .json ≠ .ok (some (dataText (listed 3 born))) := by
  obtain ⟨service, resource, started, holds, known, found⟩ := started
  have placed : placeOf? persons "P" document = some (listed 2 bare) := by
    rw [placeOf?, places]
    exact List.find?_cons_of_pos rfl
  refine ⟨service, resource, started, get?_found known found, found, holds, born_first, rfl, ?_, ?_⟩
  · exact render?_xml known found holds placed
  · rw [render?_json known found holds placed]
    intro same
    have texts := Option.some.inj (Except.ok.inj same)
    have apart : dataText (listed 2 bare) ≠ dataText (listed 3 born) := by decide +kernel
    exact apart texts

theorem shows_first_namesake :
    ∃ (service : Service) (resource : Resource) (document : Document) (shown : Place),
      contents.WellFormed ∧
      (start manifest ⟨"register"⟩ 0 (some contents)).result = .ok service ∧
      service.get? "persons" "P" = .ok (some record) ∧
      resource.document = .ok document ∧ persons.First document (persons.Bears "P") shown ∧
      service.render? "persons" "P" .xml = sourceText "persons" "P" shown ∧
      service.render? "persons" "P" .json = .ok (some (dataText shown)) := by
  obtain ⟨service, _, started, _, known, found⟩ := started
  have got := get?_found known found
  have sound : ∀ tree ∈ some contents, tree.WellFormed := by
    rintro _ ⟨⟩
    exact wellFormed
  obtain ⟨_, entity, resource, document, _, _, shown, _, known, _, read, _, _, _, first, _, xml,
    json, _⟩ := shows_first_bearer sound started got
  have same : entity = persons := Except.ok.inj (known.symm.trans rfl)
  rw [same] at first
  exact ⟨service, resource, document, shown, wellFormed, started, got, read, first, xml, json⟩

end Namesakes

end Service

end Regesta
