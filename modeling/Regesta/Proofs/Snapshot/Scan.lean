import Regesta.Proofs.Reported
import Regesta.Service

namespace Regesta

open Xml (Document)

namespace Collection

def inventory (contents : Directory) : List (String × File) :=
  (xmlFiles contents).map fun (names, file) => (identifier names, file)

theorem inventory_of_ordered {contents : Directory} {files : List (List String × File)}
    (kept : ((filesOf contents).filter fun file => isXmlFile file.1) = files)
    (ordered : files.Pairwise fun a b => (!namesBefore b.1 a.1) = true) :
    inventory contents = files.map fun (names, file) => (identifier names, file) := by
  rw [inventory, xmlFiles, kept, List.mergeSort_of_pairwise ordered]

end Collection

def Entity.recordsIn (entity : Entity) (mode : Mode) (file : String × File) : List Record :=
  match file.2.text?.bind Document.read? with
  | none => []
  | some document =>
    (entity.records mode document).2.map fun record => { record with resource := some file.1 }

def Resource.found (resource : Resource) (mode : Mode) (entity : Entity) : List Finding :=
  match resource.document with
  | .error _ => []
  | .ok document =>
    (entity.records mode document).2.map fun record =>
      ⟨{ record with resource := some resource.id }, resource⟩

/-- What is found for an entity type in files, when each of them is looked at: each record beside
the document that it was made of. -/
def Entity.findingsIn (entity : Entity) (mode : Mode) (files : List (String × File)) :
    List Finding :=
  (files.filterMap Collection.resource?).flatMap fun resource => resource.found mode entity

def Entity.holdingsIn (entity : Entity) (mode : Mode) (files : List (String × File)) : Holdings :=
  ⟨(((files.filterMap Collection.resource?).filter fun resource => resource.holds entity.root).map
      fun resource => (resource.id, resource)).reverse,
    files.flatMap (entity.recordsIn mode)⟩

namespace Resource

variable {resource : Resource} {document : Document}

@[simp] theorem document_ok_iff :
    resource.document = .ok document ↔ Document.read? resource.source = some document := by
  unfold Resource.document
  cases Document.read? resource.source <;> simp

theorem found_eq (read : resource.document = .ok document) (mode : Mode) (entity : Entity) :
    resource.found mode entity = (entity.records mode document).2.map fun record =>
      ⟨{ record with resource := some resource.id }, resource⟩ := by
  rw [found, read]

@[simp] theorem holds_iff {path : Path} :
    resource.holds path = true ↔
      ∃ document, resource.document = .ok document ∧ path.select document.root ≠ [] := by
  unfold holds
  cases resource.document <;> simp

theorem of_mem_found {mode : Mode} {entity : Entity} {finding : Finding}
    (member : finding ∈ resource.found mode entity) :
    finding.resource = resource ∧ finding.record.resource = some resource.id := by
  unfold found at member
  split at member
  · cases member
  · obtain ⟨record, _, same⟩ := List.mem_map.mp member
    subst same
    exact ⟨rfl, rfl⟩

theorem holds_of_mem_found {mode : Mode} {entity : Entity} {finding : Finding}
    (member : finding ∈ resource.found mode entity) : resource.holds entity.root = true := by
  unfold found at member
  split at member
  · cases member
  · next document read =>
    refine holds_iff.mpr ⟨document, read, ?_⟩
    intro nothing
    have nowhere : entity.places document = [] := nothing
    simp [Entity.records, nowhere] at member

theorem flatMap_found_filter (resources : List Resource) (mode : Mode) (entity : Entity) :
    ((resources.filter fun resource => resource.holds entity.root).flatMap fun resource =>
        resource.found mode entity) =
      resources.flatMap fun resource => resource.found mode entity := by
  induction resources with
  | nil => rfl
  | cons resource rest ih =>
    rw [List.flatMap_cons]
    cases held : resource.holds entity.root with
    | true => rw [List.filter_cons_of_pos (by exact held), List.flatMap_cons, ih]
    | false =>
      have nothing : resource.found mode entity = [] := by
        apply List.eq_nil_iff_forall_not_mem.mpr
        intro finding member
        rw [holds_of_mem_found member] at held
        cases held
      rw [List.filter_cons_of_neg (by simp [held]), ih, nothing, List.nil_append]

end Resource

@[simp] theorem File.text?_toUTF8 (text : String) (modified : Moment) :
    File.text? ⟨text.toUTF8, modified⟩ = some text := by
  have valid : text.toUTF8.IsValidUTF8 := text.isValidUTF8
  rw [File.text?, String.fromUTF8?, dif_pos valid]
  rfl

@[simp] theorem File.text?_eq_some_iff {file : File} {text : String} :
    file.text? = some text ↔ file.bytes = text.toUTF8 := by
  constructor
  · intro read
    unfold File.text? String.fromUTF8? at read
    split at read
    · cases read
      rfl
    · cases read
  · intro same
    obtain ⟨bytes, modified⟩ := file
    cases same
    exact text?_toUTF8 text modified

namespace Collection

@[simp] theorem resource?_eq_some_iff {file : String × File} {resource : Resource} :
    resource? file = some resource ↔
      resource.id = file.1 ∧ file.2.text? = some resource.source ∧
        ∃ document, resource.document = .ok document := by
  obtain ⟨id, source⟩ := resource
  unfold resource? Resource.ofFile
  cases text : file.2.text? with
  | none => simp
  | some found =>
    cases read : (Resource.mk file.1 found).document with
    | error error =>
      simp only [read, reduceCtorEq, Option.some.injEq, false_iff, not_and]
      rintro rfl rfl ⟨document, same⟩
      rw [read] at same
      cases same
    | ok document =>
      simp only [read, Option.some.injEq, Resource.mk.injEq]
      constructor
      · rintro ⟨rfl, rfl⟩
        exact ⟨rfl, rfl, document, read⟩
      · rintro ⟨rfl, rfl, _⟩
        exact ⟨rfl, rfl⟩

theorem resource?_eq_some {file : String × File} {resource : Resource}
    (found : resource? file = some resource) :
    ∃ document, resource.document = .ok document ∧ resource.id = file.1 ∧
      file.2.text?.bind Document.read? = some document := by
  obtain ⟨id, text, document, read⟩ := resource?_eq_some_iff.mp found
  refine ⟨document, read, id, ?_⟩
  rw [text, Option.bind_some]
  exact Resource.document_ok_iff.mp read

theorem resource?_of_read {file : String × File} {source : String} {document : Document}
    (text : file.2.text? = some source) (read : Document.read? source = some document) :
    ∃ resource, resource? file = some resource ∧ resource.id = file.1 ∧
      resource.document = .ok document :=
  have readable : (Resource.mk file.1 source).document = .ok document :=
    Resource.document_ok_iff.mpr read
  ⟨⟨file.1, source⟩, resource?_eq_some_iff.mpr ⟨rfl, text, document, readable⟩, rfl, readable⟩

theorem resource?_eq_none {file : String × File} (missing : resource? file = none) :
    file.2.text?.bind Document.read? = none := by
  cases read : file.2.text?.bind Document.read? with
  | none => rfl
  | some document =>
    obtain ⟨source, text, readable⟩ := Option.bind_eq_some_iff.mp read
    obtain ⟨resource, found, -⟩ := resource?_of_read text readable
    rw [missing] at found
    cases found

theorem resources_sublist (files : List (String × File)) :
    ((files.filterMap resource?).map Resource.id).Sublist (files.map Prod.fst) := by
  induction files with
  | nil => exact .slnil
  | cons file rest ih =>
    rw [List.map_cons]
    cases made : resource? file with
    | none =>
      rw [List.filterMap_cons_none made]
      exact ih.cons _
    | some resource =>
      rw [List.filterMap_cons_some made, List.map_cons, (resource?_eq_some_iff.mp made).1]
      exact ih.cons_cons _

end Collection

namespace Entity

theorem findingsIn_cons (entity : Entity) (mode : Mode) (file : String × File)
    (rest : List (String × File)) :
    entity.findingsIn mode (file :: rest) =
      ((Collection.resource? file).map fun resource => resource.found mode entity).getD [] ++
        entity.findingsIn mode rest := by
  unfold findingsIn
  rw [List.filterMap_cons]
  cases Collection.resource? file with
  | none => rfl
  | some resource => exact List.flatMap_cons

theorem found_record {entity : Entity} {mode : Mode} (file : String × File) :
    (((Collection.resource? file).map fun resource => resource.found mode entity).getD []).map
        Finding.record = entity.recordsIn mode file := by
  cases found : Collection.resource? file with
  | none =>
    rw [recordsIn, Collection.resource?_eq_none found]
    rfl
  | some resource =>
    obtain ⟨document, readable, same, read⟩ := Collection.resource?_eq_some found
    rw [recordsIn, read, Option.map_some, Option.getD_some, Resource.found_eq readable,
      List.map_map, same]
    rfl

@[simp] theorem findingsIn_record (entity : Entity) (mode : Mode) (files : List (String × File)) :
    (entity.findingsIn mode files).map Finding.record = files.flatMap (entity.recordsIn mode) := by
  induction files with
  | nil => rfl
  | cons file rest ih =>
    rw [findingsIn_cons, List.map_append, found_record, ih, List.flatMap_cons]

end Entity

theorem lookup_of_mem {α : Type} {table : List (String × α)} {key : String} {value : α}
    (apart : (table.map Prod.fst).Nodup) (member : (key, value) ∈ table) :
    table.lookup key = some value := by
  obtain ⟨before, after, rfl⟩ := List.append_of_mem member
  refine List.lookup_eq_some_iff.mpr ⟨before, after, rfl, ?_⟩
  intro other early
  rw [List.map_append, List.map_cons, List.nodup_append] at apart
  have differ := apart.2.2 other.1 (List.mem_map_of_mem early) key List.mem_cons_self
  simpa using Ne.symm differ

theorem lookup_map {α β : Type} (name : α → String) (value : α → β) (items : List α)
    (key : String) :
    (items.map fun item => (name item, value item)).lookup key =
      (items.find? fun item => name item == key).map value := by
  induction items with
  | nil => rfl
  | cons item rest ih =>
    rw [List.map_cons, List.lookup_cons, List.find?_cons, ih, BEq.comm]
    cases name item == key <;> rfl

namespace Holdings

theorem addAll_result {mode : Mode} {entity : Entity} {resources : List Resource}
    (readable : ∀ resource ∈ resources, ∃ document, resource.document = .ok document)
    (holdings : Holdings) :
    (holdings.addAll mode entity resources).result =
      .ok ⟨(resources.map fun resource => (resource.id, resource)).reverse ++ holdings.resources,
        holdings.records ++ (resources.flatMap fun resource =>
          resource.found mode entity).map Finding.record⟩ := by
  induction resources generalizing holdings with
  | nil => simp [addAll]
  | cons resource rest ih =>
    obtain ⟨⟨document, read⟩, later⟩ := List.forall_mem_cons.mp readable
    have onward := ih later (holdings.add resource ((entity.records mode document).2.map
      fun record => { record with resource := some resource.id }))
    rw [addAll, read]
    simp only [Reported.bind_result]
    refine Eq.trans onward ?_
    simp [add, Resource.found_eq read, Function.comp_def]

theorem resources_apart {mode : Mode} {entity : Entity} {files : List (String × File)}
    (apart : (files.map Prod.fst).Nodup) :
    ((entity.holdingsIn mode files).resources.map Prod.fst).Nodup := by
  rw [Entity.holdingsIn, List.map_reverse, (List.reverse_perm _).nodup_iff, List.map_map]
  exact apart.sublist ((List.filter_sublist.map _).trans (Collection.resources_sublist files))

theorem lookup_holdingsIn {mode : Mode} {entity : Entity} {files : List (String × File)}
    (apart : (files.map Prod.fst).Nodup) {resource : Resource}
    (member : resource ∈ files.filterMap Collection.resource?)
    (held : resource.holds entity.root = true) :
    (entity.holdingsIn mode files).resources.lookup resource.id = some resource := by
  apply lookup_of_mem (resources_apart apart)
  exact List.mem_reverse.mpr
    (List.mem_map.mpr ⟨resource, List.mem_filter.mpr ⟨member, held⟩, rfl⟩)

/-- Where documents are told apart by their identifiers, a record that is found is found with the
document that it was made of. -/
theorem find?_holdingsIn {mode : Mode} {entity : Entity} {files : List (String × File)}
    (apart : (files.map Prod.fst).Nodup) (id : String) :
    (entity.holdingsIn mode files).find? id =
      (entity.findingsIn mode files).find? fun finding =>
        finding.record.isAddressable && finding.record.id == id := by
  have records : (entity.holdingsIn mode files).records =
      (entity.findingsIn mode files).map Finding.record :=
    (entity.findingsIn_record mode files).symm
  rw [find?, records, List.find?_map]
  simp only [Function.comp_def]
  cases found : (entity.findingsIn mode files).find? fun finding =>
      finding.record.isAddressable && finding.record.id == id with
  | none => rfl
  | some finding =>
    -- The name in the record is that of the document in which it was found, which is kept under it.
    obtain ⟨resource, member, inside⟩ := List.mem_flatMap.mp (List.mem_of_find?_eq_some found)
    obtain ⟨same, named⟩ := Resource.of_mem_found inside
    have kept := @lookup_holdingsIn mode entity files apart resource member
      (Resource.holds_of_mem_found inside)
    subst same
    simp only [Option.map_some, Option.bind_eq_bind, Option.bind_some, named, kept]

end Holdings

namespace Snapshot

theorem gather_result (collection : Collection) (mode : Mode) (contents : Directory)
    (entity : Entity) :
    (gather collection mode (some contents) entity).result =
      .ok (entity.holdingsIn mode (Collection.inventory contents)) := by
  have readable : ∀ resource ∈ ((Collection.inventory contents).filterMap
      Collection.resource?).filter (fun resource => resource.holds entity.root),
      ∃ document, resource.document = .ok document := by
    intro resource member
    obtain ⟨document, read, _⟩ := Resource.holds_iff.mp (List.mem_filter.mp member).2
    exact ⟨document, read⟩
  rw [gather, Reported.bind_ok_iff]
  refine ⟨_, rfl, (Holdings.addAll_result readable .empty).trans ?_⟩
  rw [Resource.flatMap_found_filter]
  have records := entity.findingsIn_record mode (Collection.inventory contents)
  rw [Entity.findingsIn] at records
  rw [records, Holdings.empty, List.append_nil, List.nil_append, Entity.holdingsIn]

theorem loadDuring_result (manifest : Manifest) (collection : Collection) (now : Moment)
    (trees : Nat → Directory) :
    (loadDuring manifest collection now fun look => some (trees look)).result =
      .ok ⟨manifest.entities.zipIdx.map fun (entity, look) =>
          (entity.name, entity.holdingsIn manifest.mode (Collection.inventory (trees look))),
        (Collection.inventory (trees manifest.entities.length)).map Prod.fst, now⟩ := by
  have gathered : ∀ numbered ∈ manifest.entities.zipIdx,
      (gather collection manifest.mode (some (trees numbered.2)) numbered.1 >>= fun found =>
        pure (numbered.1.name, found)).result =
      .ok (numbered.1.name, numbered.1.holdingsIn manifest.mode
        (Collection.inventory (trees numbered.2))) := by
    intro numbered _
    exact Reported.map_ok_iff.mpr ⟨_, gather_result _ _ _ _, rfl⟩
  rw [loadDuring, Reported.bind_ok_iff]
  exact ⟨_, Reported.forEach_total gathered, Reported.map_ok_iff.mpr ⟨_, rfl, rfl⟩⟩

theorem load_result (manifest : Manifest) (collection : Collection) (now : Moment)
    (contents : Directory) :
    (load manifest collection now (some contents)).result =
      .ok ⟨manifest.entities.map fun entity =>
          (entity.name, entity.holdingsIn manifest.mode (Collection.inventory contents)),
        (Collection.inventory contents).map Prod.fst, now⟩ := by
  have everywhere := loadDuring_result manifest collection now fun _ => contents
  have unnumbered : (manifest.entities.zipIdx.map fun (entity, _) =>
      (entity.name, entity.holdingsIn manifest.mode (Collection.inventory contents))) =
      manifest.entities.map fun entity =>
        (entity.name, entity.holdingsIn manifest.mode (Collection.inventory contents)) := by
    conv_rhs => rw [← List.zipIdx_map_fst 0 manifest.entities, List.map_map]
    rfl
  rwa [unnumbered] at everywhere

@[simp] theorem load_missing (manifest : Manifest) (collection : Collection) (now : Moment) :
    (load manifest collection now none).result =
      .error (.missingCollection collection.directory) := by
  cases entities : manifest.entities with
  | nil =>
    rw [load, loadDuring, entities]
    rfl
  | cons first rest =>
    rw [load, loadDuring, entities]
    rfl

theorem holdings?_load {manifest : Manifest} {collection : Collection} {now : Moment}
    {contents : Directory} {snapshot : Snapshot} {name : String} {entity : Entity}
    (loaded : (load manifest collection now (some contents)).result = .ok snapshot)
    (known : manifest.entity name = .ok entity) :
    snapshot.holdings? name =
      some (entity.holdingsIn manifest.mode (Collection.inventory contents)) := by
  rw [load_result] at loaded
  cases loaded
  unfold Manifest.entity at known
  cases first : manifest.entities.find? fun entity => entity.name == name with
  | none => simp only [first, reduceCtorEq] at known
  | some other =>
    simp only [first, Except.ok.injEq] at known
    subst known
    rw [holdings?, lookup_map, first, Option.map_some]

section

variable {snapshot : Snapshot} {name : String} {entity : Entity} {mode : Mode}
  {files : List (String × File)}

theorem records_eq (kept : snapshot.holdings? name = some (entity.holdingsIn mode files)) :
    snapshot.records name = files.flatMap (entity.recordsIn mode) := by
  rw [records, kept]
  rfl

theorem find?_eq (kept : snapshot.holdings? name = some (entity.holdingsIn mode files))
    (apart : (files.map Prod.fst).Nodup) (id : String) :
    snapshot.find? name id = (entity.findingsIn mode files).find? fun finding =>
      finding.record.isAddressable && finding.record.id == id := by
  rw [find?, kept, Option.bind_some, Holdings.find?_holdingsIn apart]

end

/-- A snapshot can be loaded just when the directory of the collection is there. It then has, for
each entity type, the records of one file after the other, whatever is in the other files and
whatever other entity types there are. -/
theorem load_scans (manifest : Manifest) (collection : Collection) (now : Moment) :
    (∀ contents : Directory, ∃ snapshot : Snapshot,
      (load manifest collection now (some contents)).result = .ok snapshot ∧
      collection.list (some contents) = .ok snapshot.listing ∧
      ∀ name, (Service.mk manifest collection snapshot).entities name =
        (manifest.entity name).map fun entity =>
          (Collection.inventory contents).flatMap (entity.recordsIn manifest.mode)) ∧
    (load manifest collection now none).result =
      .error (.missingCollection collection.directory) := by
  refine ⟨?_, load_missing manifest collection now⟩
  intro contents
  have loaded := load_result manifest collection now contents
  refine ⟨_, loaded, rfl, ?_⟩
  intro name
  rw [Service.entities]
  cases known : manifest.entity name with
  | error error => rfl
  | ok entity =>
    simp only [bind, Except.bind, pure, Except.pure, Except.map]
    rw [records_eq (holdings?_load loaded known)]

end Snapshot

namespace Service

theorem start_ok_iff {manifest : Manifest} {collection : Collection} {now : Moment}
    {contents : Option Directory} {service : Service} :
    (start manifest collection now contents).result = .ok service ↔
      service.manifest = manifest ∧ service.collection = collection ∧
        (Snapshot.load manifest collection now contents).result = .ok service.snapshot := by
  rw [start, Reported.map_ok_iff]
  constructor
  · rintro ⟨snapshot, loaded, same⟩
    subst same
    exact ⟨rfl, rfl, loaded⟩
  · rintro ⟨sameManifest, sameCollection, loaded⟩
    subst sameManifest sameCollection
    exact ⟨service.snapshot, loaded, rfl⟩

theorem start_some {manifest : Manifest} {collection : Collection} {now : Moment}
    {contents : Option Directory} {service : Service}
    (started : (start manifest collection now contents).result = .ok service) :
    ∃ tree, contents = some tree := by
  cases contents with
  | none =>
    rw [start_ok_iff, Snapshot.load_missing] at started
    cases started.2.2
  | some tree => exact ⟨tree, rfl⟩

theorem start_total (manifest : Manifest) (collection : Collection) (now : Moment)
    (contents : Directory) :
    ∃ service, (start manifest collection now (some contents)).result = .ok service :=
  ⟨⟨manifest, collection, _⟩,
    start_ok_iff.mpr ⟨rfl, rfl, Snapshot.load_result manifest collection now contents⟩⟩

end Service

end Regesta
