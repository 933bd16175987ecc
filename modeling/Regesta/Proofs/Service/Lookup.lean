import Regesta.Proofs.Collection.Listing
import Regesta.Proofs.Service.Concurrent
import Regesta.Proofs.Service.Rendition
import Regesta.Proofs.Xml.Source

namespace Regesta

open Xml (Document Place)

theorem Record.sought_iff {record : Record} {id : String} :
    (record.isAddressable && record.id == id) = true ↔ record.id ≠ "" ∧ record.id = id := by
  rw [Bool.and_eq_true, isAddressable, Bool.not_eq_true', beq_iff_eq, Bool.eq_false_iff, Ne,
    String.isEmpty_iff]

theorem Entity.isElement_of_bears {entity : Entity} {id : String} {place : Xml.Place}
    (bears : entity.Bears id place) : place.isElement = true := by
  obtain ⟨written, _⟩ := Option.filter_eq_some_iff.mp bears
  obtain ⟨value, given, _⟩ := Option.map_eq_some_iff.mp written
  obtain ⟨node, there, given⟩ := Option.bind_eq_some_iff.mp given
  rw [Xml.Place.isElement, there]
  cases node with
  | element => rfl
  | text | comment | instruction => cases given

theorem Entity.filled_of_bears {entity : Entity} {id : String} {place : Place}
    (bears : entity.Bears id place) : id ≠ "" := by
  obtain ⟨_, filled⟩ := Option.filter_eq_some_iff.mp bears
  rintro rfl
  cases filled

theorem Entity.made_of_mem_found {entity : Entity} {mode : Mode} {resource : Resource}
    {finding : Finding} (member : finding ∈ resource.found mode entity) :
    ∃ document origin made, resource.document = .ok document ∧
      origin ∈ entity.places document ∧ (entity.record mode origin).result = .ok made ∧
      finding.record = { made with resource := some resource.id } := by
  obtain ⟨document, read, _⟩ := Resource.holds_iff.mp (Resource.holds_of_mem_found member)
  rw [Resource.found_eq read, records_eq, List.mem_map] at member
  obtain ⟨made, listed, rfl⟩ := member
  obtain ⟨origin, there, kept⟩ := List.mem_filterMap.mp listed
  refine ⟨document, origin, made, read, there, ?_, rfl⟩
  cases done : (entity.record mode origin).result with
  | error error =>
    rw [done] at kept
    cases kept
  | ok other =>
    rw [done] at kept
    cases kept
    rfl

namespace Service

/-- The record under an identifier among some records. No record is found under no identifier. -/
def firstWith? (id : String) (records : List Record) : Option Record :=
  records.find? fun record => record.id ≠ "" ∧ record.id = id

/-- What is shown under an identifier has no source. -/
def Sourceless (service : Service) (name id : String) : Prop :=
  ∃ entity finding document place, service.manifest.entity name = .ok entity ∧
    service.snapshot.find? name id = some finding ∧
    finding.resource.document = .ok document ∧
    placeOf? entity id document = some place ∧ place.source? = none

variable {service : Service} {now : Moment} {contents : Nat → Option Directory} {name id : String}
  {entity : Entity}

theorem find?_record {holdings : Holdings}
    (kept : ∀ record ∈ holdings.records, ∃ resource : Resource,
      record.resource = some resource.id ∧
        holdings.resources.lookup resource.id = some resource) (id : String) :
    (holdings.find? id).map Finding.record = firstWith? id holdings.records := by
  rw [Holdings.find?, firstWith?]
  simp only [← Record.sought_iff, Bool.decide_eq_true]
  cases found : holdings.records.find? fun record => record.isAddressable && record.id == id with
  | none => rfl
  | some record =>
    obtain ⟨resource, named, stored⟩ := kept record (List.mem_of_find?_eq_some found)
    simp only [Option.bind_eq_bind, Option.bind_some, named, stored, Option.map_some]

theorem entity_error {manifest : Manifest} {error : Error}
    (unknown : manifest.entity name = .error error) : error = .unknownEntity name := by
  unfold Manifest.entity at unknown
  split at unknown <;> cases unknown
  rfl

theorem get?_known (known : service.manifest.entity name = .ok entity) (id : String) :
    service.get? name id = .ok ((service.snapshot.find? name id).map Finding.record) := by
  rw [get?, known]
  rfl

theorem render?_missing (known : service.manifest.entity name = .ok entity)
    (missing : service.snapshot.find? name id = none) (rendition : Rendition) :
    service.render? name id rendition = .ok none := by
  rw [render?, known]
  simp only [bind, Except.bind, missing]
  rfl

/-- A record beside the document that it was made of. That is the one which is kept under the name
that the record gives, and it is a document of the collection at some look. -/
structure Kept (contents : Nat → Option Directory) (mode : Mode) (entity : Entity)
    (holdings : Holdings) (record : Record) (resource : Resource) : Prop where
  named : record.resource = some resource.id
  kept : holdings.resources.lookup resource.id = some resource
  present : ∃ look tree, contents look = some tree ∧
    resource ∈ (Collection.inventory tree).filterMap Collection.resource?
  made : ∃ document origin made, resource.document = .ok document ∧
    origin ∈ entity.places document ∧ (entity.record mode origin).result = .ok made ∧
    record = { made with resource := some resource.id }

section

variable {mode : Mode} {holdings : Holdings} {record : Record} {resource : Resource}

theorem Kept.of_mem {look : Nat} {tree : Directory} (there : contents look = some tree)
    (wellFormed : tree.WellFormed) {finding : Finding}
    (member : finding ∈ entity.findingsIn mode (Collection.inventory tree)) :
    Kept contents mode entity (entity.holdingsIn mode (Collection.inventory tree)) finding.record
      finding.resource := by
  obtain ⟨resource, inside, found⟩ := List.mem_flatMap.mp member
  obtain ⟨same, named⟩ := Resource.of_mem_found found
  subst same
  refine ⟨named, ?_, ⟨look, tree, there, inside⟩, Entity.made_of_mem_found found⟩
  exact Holdings.lookup_holdingsIn (Collection.inventory_apart wellFormed) inside
    (Resource.holds_of_mem_found found)

end

theorem holdings_kept (wellFormed : ∀ look, ∀ tree ∈ contents look, tree.WellFormed)
    (loaded : (Snapshot.loadDuring service.manifest service.collection now contents).result =
      .ok service.snapshot)
    (known : service.manifest.entity name = .ok entity) :
    ∃ holdings, service.snapshot.holdings? name = some holdings ∧
      (∀ record ∈ holdings.records, ∃ resource,
        Kept contents service.manifest.mode entity holdings record resource) ∧
      ∀ id finding, service.snapshot.find? name id = some finding →
        Kept contents service.manifest.mode entity holdings finding.record finding.resource ∧
        ∃ document place, finding.resource.document = .ok document ∧
          placeOf? entity id document = some place ∧
          entity.First document (entity.Bears id) place := by
  obtain ⟨trees, seen, holdings, _⟩ := Snapshot.loadDuring_ok loaded
  obtain ⟨⟨_, look⟩, numbered, rfl⟩ := Option.map_eq_some_iff.mp (Manifest.entity_ok_iff.mp known)
  -- Of all looks, only the one that is taken for this entity type matters.
  have there := seen look (Nat.le_of_lt (Manifest.look?_bound numbered))
  have sound := wellFormed look _ there
  have held := Snapshot.holdings?_look holdings numbered
  refine ⟨_, held, ?_, ?_⟩
  · intro record listed
    change record ∈ (Collection.inventory (trees look)).flatMap _ at listed
    rw [← Entity.findingsIn_record, List.mem_map] at listed
    obtain ⟨finding, member, rfl⟩ := listed
    exact ⟨finding.resource, .of_mem there sound member⟩
  · intro id finding found
    rw [Snapshot.find?_eq held (Collection.inventory_apart sound)] at found
    refine ⟨.of_mem there sound (List.mem_of_find?_eq_some found), ?_⟩
    obtain ⟨_, document, _, origin, read, _, _, first⟩ := Entity.findingsIn_find? found
    obtain ⟨place, placed, isFirst⟩ := placeOf?_first first.member first.holds.1
    exact ⟨document, place, read, placed, isFirst⟩

theorem render?_outcome (known : service.manifest.entity name = .ok entity) {finding : Finding}
    (found : service.snapshot.find? name id = some finding) {document : Document} {place : Place}
    (read : finding.resource.document = .ok document)
    (placed : placeOf? entity id document = some place) (rendition : Rendition) :
    (∃ text, service.render? name id rendition = .ok (some text)) ∧
        ¬ (rendition = .xml ∧ service.Sourceless name id) ∨
      service.render? name id rendition = .error (.invertedSource name id) ∧
        rendition = .xml ∧ service.Sourceless name id := by
  have wanting : service.Sourceless name id ↔ place.source? = none := by
    constructor
    · intro sourceless
      obtain ⟨_, _, _, _, known', found', read', placed', sourceless⟩ := sourceless
      cases known.symm.trans known'
      cases found.symm.trans found'
      cases read.symm.trans read'
      cases placed.symm.trans placed'
      exact sourceless
    · intro sourceless
      exact ⟨entity, finding, document, place, known, found, read, placed, sourceless⟩
  rw [wanting]
  cases rendition with
  | record => exact .inl ⟨⟨_, render?_record known found⟩, by simp⟩
  | json => exact .inl ⟨⟨_, render?_json known found read placed⟩, by simp⟩
  | xml =>
    rw [render?_xml known found read placed, sourceText]
    cases place.source? with
    | none => exact .inr ⟨rfl, rfl, rfl⟩
    | some source => exact .inl ⟨⟨_, rfl⟩, by simp⟩

/-- Only where a document has a document type, and so may declare entities, a source is wanting. -/
theorem Sourceless.documentType (wanting : service.Sourceless name id) :
    ∃ finding, service.snapshot.find? name id = some finding ∧
      "<!DOCTYPE".toList <:+: finding.resource.source.toList := by
  obtain ⟨entity, finding, document, place, known, found, read, placed, sourceless⟩ := wanting
  refine ⟨finding, found, ?_⟩
  by_contra plain
  have sourced := Xml.Document.read?_sourced plain (Resource.document_ok_iff.mp read)
  have first := first_of_placeOf? placed
  have there := entity.root.select_subset document place first.member
  have present := Xml.Document.source?_isSome sourced there (Entity.isElement_of_bears first.holds)
  rw [sourceless] at present
  cases present

/-- What is listed can be looked up, and what can be looked up can be shown, in any form but as a
source that it does not have. -/
theorem lookup_answers (wellFormed : ∀ look, ∀ tree ∈ contents look, tree.WellFormed)
    (loaded : (Snapshot.loadDuring service.manifest service.collection now contents).result =
      .ok service.snapshot)
    (name id : String) :
    service.get? name id = (service.entities name).map (firstWith? id) ∧
    (∀ record, service.get? name id = .ok (some record) → id ≠ "" ∧
      ∃ entity holdings resource document place, service.manifest.entity name = .ok entity ∧
        service.snapshot.holdings? name = some holdings ∧
        Kept contents service.manifest.mode entity holdings record resource ∧
        service.snapshot.find? name id = some ⟨record, resource⟩ ∧
        resource.document = .ok document ∧ placeOf? entity id document = some place ∧
        entity.First document (entity.Bears id) place) ∧
    (service.Sourceless name id → ∃ finding, service.snapshot.find? name id = some finding ∧
      "<!DOCTYPE".toList <:+: finding.resource.source.toList) ∧
    ∀ rendition,
      (service.render? name id rendition = .error (.unknownEntity name) ↔
        ∃ error, service.get? name id = .error error) ∧
      (service.render? name id rendition = .ok none ↔ service.get? name id = .ok none) ∧
      ((∃ text, service.render? name id rendition = .ok (some text)) ↔
        (∃ record, service.get? name id = .ok (some record)) ∧
          ¬ (rendition = .xml ∧ service.Sourceless name id)) := by
  cases known : service.manifest.entity name with
  | error error =>
    have unknown := entity_error known
    subst unknown
    have entities : service.entities name = .error (.unknownEntity name) := by
      rw [Service.entities, known]
      rfl
    have got : service.get? name id = .error (.unknownEntity name) := by
      rw [get?, known]
      rfl
    have rendered : ∀ rendition,
        service.render? name id rendition = .error (.unknownEntity name) := by
      intro rendition
      rw [render?, known]
      rfl
    rw [entities, got]
    refine ⟨rfl, by simp, Sourceless.documentType, fun rendition => ?_⟩
    rw [rendered]
    simp
  | ok entity =>
    have got := get?_known known id
    obtain ⟨holdings, held, all, each⟩ := holdings_kept wellFormed loaded known
    refine ⟨?_, ?_, Sourceless.documentType, ?_⟩
    · have stored := find?_record (fun record listed => (all record listed).imp fun resource kept =>
        ⟨kept.named, kept.kept⟩) id
      rw [got, entities_known known, Snapshot.find?, Snapshot.records, held, Option.bind_some,
        stored]
      rfl
    · intro record same
      rw [got, Except.ok.injEq, Option.map_eq_some_iff] at same
      obtain ⟨⟨_, resource⟩, found, rfl⟩ := same
      obtain ⟨kept, document, place, read, placed, first⟩ := each id _ found
      refine ⟨?_, entity, holdings, resource, document, place, rfl, held, kept, found, read, placed,
        first⟩
      exact Entity.filled_of_bears first.holds
    · intro rendition
      cases found : service.snapshot.find? name id with
      | none =>
        rw [got, found, render?_missing known found]
        simp
      | some finding =>
        obtain ⟨_, document, place, read, placed, _⟩ := each id finding found
        rw [got, found, Option.map_some]
        rcases render?_outcome known found read placed rendition with
          ⟨⟨text, shown⟩, sourced⟩ | ⟨failed, wanting⟩
        · rw [shown]
          simp [sourced]
        · rw [failed]
          simp [wanting]

end Service

namespace Service.Inverted

/-- The end tag of the person is in an entity, which is declared before the person starts. -/
def text : String := "<!DOCTYPE l [<!ENTITY e \"<b/></p>\">]><l><p id='P'>&e;</l>"

def born : Xml.Node := .element ⟨none, "b"⟩ [] (some "<b/>") []

def person : Xml.Node := .element ⟨none, "p"⟩ [⟨⟨none, "id"⟩, "P"⟩] none [born]

def list : Xml.Node := .element ⟨none, "l"⟩ [] (some "<l><p id='P'>&e;</l>") [person]

def persons : Entity :=
  ⟨"persons", ⟨"//p", .steps true [⟨.descendant, .tag "p", []⟩]⟩, ⟨none, "id"⟩, []⟩

def manifest : Manifest := ⟨"register", [persons], ⟨none, "id"⟩, [], .lenient⟩

def contents : Directory := [("a.xml", .file ⟨text.toUTF8, 0⟩)]

def record : Record := ⟨"P", "persons", some "a.xml", []⟩

theorem read : Xml.Document.read? text = some ⟨[list]⟩ := by rfl

theorem places : persons.places ⟨[list]⟩ =
    [.inside (.inside (.document [list]) 1 list) 2 person] := by
  cbv

theorem wellFormed : contents.WellFormed := by
  simp only [contents, Directory.WellFormed, Entry.WellFormed]
  decide

theorem found : ∃ (service : Service) (finding : Finding),
    (start manifest ⟨"register"⟩ 0 (some contents)).result = .ok service ∧
      service.manifest.entity "persons" = .ok persons ∧
      service.snapshot.find? "persons" "P" = some finding ∧ finding.record = record ∧
      finding.resource.document = .ok ⟨[list]⟩ := by
  obtain ⟨service, started⟩ := start_total manifest ⟨"register"⟩ 0 contents
  obtain ⟨sameManifest, _, loaded⟩ := start_ok_iff.mp started
  have known : manifest.entity "persons" = .ok persons := by rfl
  obtain ⟨resource, made, id, holds⟩ :=
    @Collection.resource?_of_read ("a.xml", ⟨text.toUTF8, 0⟩) text ⟨[list]⟩
      (File.text?_toUTF8 text 0) read
  have records : (persons.records .lenient ⟨[list]⟩).2 = [{ record with resource := none }] := by
    rw [Entity.records_eq, places]
    rfl
  have all : persons.findingsIn .lenient (Collection.inventory contents) =
      [⟨record, resource⟩] := by
    rw [contents, Letters.inventory_single, Entity.findingsIn_cons, made, Option.map_some,
      Option.getD_some, Resource.found_eq holds, records, id]
    rfl
  refine ⟨service, ⟨record, resource⟩, started, ?_, ?_, rfl, holds⟩
  · rw [sameManifest]
    exact known
  · have kept := Snapshot.holdings?_load loaded known
    rw [Snapshot.find?_eq kept (Collection.inventory_apart wellFormed)]
    change (persons.findingsIn .lenient (Collection.inventory contents)).find? _ = _
    rw [all]
    rfl

theorem inverted_source_fails :
    ∃ service,
      (start manifest ⟨"register"⟩ 0 (some contents)).result = .ok service ∧
      service.get? "persons" "P" = .ok (some record) ∧
      service.render? "persons" "P" .xml = .error (.invertedSource "persons" "P") := by
  obtain ⟨service, finding, started, known, found, same, holds⟩ := found
  have placed : placeOf? persons "P" ⟨[list]⟩ =
      some (.inside (.inside (.document [list]) 1 list) 2 person) := by
    rw [placeOf?, places]
    rfl
  refine ⟨service, started, ?_, ?_⟩
  · rw [get?_found known found, same]
  · exact render?_xml known found holds placed

theorem lookup_answers_inverted :
    ∃ service text,
      contents.WellFormed ∧
      (start manifest ⟨"register"⟩ 0 (some contents)).result = .ok service ∧
      service.get? "persons" "P" = .ok (some record) ∧
      service.render? "persons" "P" .json = .ok (some text) := by
  obtain ⟨service, finding, started, known, found, same, _⟩ := found
  have got : service.get? "persons" "P" = .ok (some record) := by
    rw [get?_found known found, same]
  obtain ⟨sameManifest, sameCollection, loaded⟩ := start_ok_iff.mp started
  rw [← sameManifest, ← sameCollection] at loaded
  have sound : ∀ look, ∀ tree ∈ (fun _ : Nat => some contents) look, tree.WellFormed := by
    rintro _ _ ⟨⟩
    exact wellFormed
  obtain ⟨_, _, _, renditions⟩ :=
    @lookup_answers service 0 (fun _ => some contents) sound loaded "persons" "P"
  obtain ⟨text, shown⟩ := (renditions .json).2.2.mpr ⟨⟨record, got⟩, by simp⟩
  exact ⟨service, text, wellFormed, started, got, shown⟩

end Service.Inverted
end Regesta
