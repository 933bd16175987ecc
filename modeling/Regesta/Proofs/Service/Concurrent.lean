import Mathlib.Data.List.Flatten
import Regesta.Proofs.Collection.Listing
import Regesta.Proofs.Evaluation.Modes
import Regesta.Proofs.Files.Change
import Regesta.Proofs.Service.Refresh

/-!
Loading while files change. The collection is looked at once for each entity type and then for its
listing, and files may come, go and be rewritten between any two looks. What is written is newer than
the load, so that a refresh finds it. What is removed after it has been looked at leaves no trace, as
the listing is made last; then records stay of which there is no file.
-/
namespace Regesta

theorem flatMap_of_sublist {α β : Type} {values : α → List β} {few all : List α}
    (sublist : few.Sublist all) (apart : all.Nodup)
    (nothing : ∀ item ∈ all, item ∉ few → values item = []) :
    all.flatMap values = few.flatMap values := by
  induction sublist with
  | slnil => rfl
  | @cons few rest item sublist ih =>
    obtain ⟨fresh, apart⟩ := List.nodup_cons.mp apart
    have absent : item ∉ few := fun member => fresh (sublist.subset member)
    rw [List.flatMap_cons, nothing item List.mem_cons_self absent, List.nil_append]
    exact ih apart fun other member => nothing other (List.mem_cons_of_mem _ member)
  | @cons_cons few rest item sublist ih =>
    obtain ⟨fresh, apart⟩ := List.nodup_cons.mp apart
    rw [List.flatMap_cons, List.flatMap_cons, ih apart]
    intro other member absent
    apply nothing other (List.mem_cons_of_mem _ member)
    rintro (_ | ⟨_, inside⟩)
    · exact fresh member
    · exact absent inside

theorem nothing_of_sublist {α β : Type} {values : α → List β} {few all : List α}
    (sublist : few.Sublist all)
    (same : (all.flatMap values).length = (few.flatMap values).length) :
    ∀ item ∈ all, item ∉ few → values item = [] := by
  induction sublist with
  | slnil => simp
  | @cons few rest item sublist ih =>
    have shorter := (sublist.flatMap values).length_le
    rw [List.flatMap_cons, List.length_append] at same
    have empty : (values item).length = 0 := by omega
    rintro other (_ | ⟨_, member⟩) absent
    · exact List.eq_nil_of_length_eq_zero empty
    · exact ih (by omega) other member absent
  | @cons_cons few rest item sublist ih =>
    simp only [List.flatMap_cons, List.length_append, Nat.add_left_cancel_iff] at same
    rintro other (_ | ⟨_, member⟩) absent
    · exact absurd List.mem_cons_self absent
    · exact ih same other member fun inside => absent (List.mem_cons_of_mem _ inside)

namespace Directory

/-- The files at one look after the other, with changes after each. -/
def atLook (files : Directory) (changes : Nat → List Change) : Nat → Directory
  | 0 => files
  | look + 1 => (files.atLook changes look).after (changes look)

variable {files : Directory} {changes : Nat → List Change}

theorem atLook_wellFormed (wellFormed : files.WellFormed) (look : Nat) :
    (files.atLook changes look).WellFormed := by
  induction look with
  | zero => exact wellFormed
  | succ look ih => exact after_wellFormed ih _

theorem atLook_inherits {written : File → Prop} {early late : Nat} (order : early ≤ late)
    (writes : ∀ look < late, ∀ change ∈ changes look, change.Writes written) :
    (files.atLook changes early).Inherits (fun _ => written) (files.atLook changes late) := by
  induction order with
  | refl => exact .refl _
  | @step late _ ih =>
    apply (ih fun look before => writes look (Nat.lt_succ_of_lt before)).trans
    have puts := fun change member => (writes late (Nat.lt_succ_self late) change member).puts
    exact after_inherits puts _

end Directory

namespace Manifest

/-- The entity type with a name, and the number of the look that is taken for it. -/
def look? (manifest : Manifest) (name : String) : Option (Entity × Nat) :=
  manifest.entities.zipIdx.find? fun numbered => numbered.1.name == name

theorem entity_ok_iff {manifest : Manifest} {name : String} {entity : Entity} :
    manifest.entity name = .ok entity ↔
      (manifest.look? name).map Prod.fst = some entity := by
  have found : (manifest.look? name).map Prod.fst =
      manifest.entities.find? fun entity => entity.name == name := by
    conv_rhs => rw [← List.zipIdx_map_fst 0 manifest.entities, List.find?_map]
    rfl
  rw [found, Manifest.entity]
  cases manifest.entities.find? fun entity => entity.name == name <;> simp

theorem look?_bound {manifest : Manifest} {name : String} {entity : Entity} {look : Nat}
    (found : manifest.look? name = some (entity, look)) : look < manifest.entities.length :=
  List.snd_lt_of_mem_zipIdx (List.mem_of_find?_eq_some found)

end Manifest

namespace Entity

def foundIn (entity : Entity) (mode : Mode) (file : String × File) : List Finding :=
  ((Collection.resource? file).map fun resource => resource.found mode entity).getD []

theorem findingsIn_eq_flatMap (entity : Entity) (mode : Mode) (files : List (String × File)) :
    entity.findingsIn mode files = files.flatMap (entity.foundIn mode) := by
  induction files with
  | nil => rfl
  | cons file rest ih => rw [findingsIn_cons, List.flatMap_cons, ih, foundIn]

theorem foundIn_eq_nil {entity : Entity} {mode : Mode} {file : String × File}
    (nothing : entity.recordsIn mode file = []) : entity.foundIn mode file = [] := by
  rw [← found_record, List.map_eq_nil_iff] at nothing
  exact nothing

end Entity

namespace Snapshot

theorem gather_ok_iff {collection : Collection} {mode : Mode} {contents : Option Directory}
    {entity : Entity} {found : Holdings} :
    (gather collection mode contents entity).result = .ok found ↔
      ∃ tree, contents = some tree ∧
        entity.holdingsIn mode (Collection.inventory tree) = found := by
  cases contents with
  | none =>
    have missing : (gather collection mode none entity).result =
        .error (.missingCollection collection.directory) := rfl
    simp [missing]
  | some tree => simp [gather_result]

theorem loadDuring_ok {manifest : Manifest} {collection : Collection} {now : Moment}
    {contents : Nat → Option Directory} {snapshot : Snapshot}
    (loaded : (loadDuring manifest collection now contents).result = .ok snapshot) :
    ∃ trees : Nat → Directory,
      (∀ look ≤ manifest.entities.length, contents look = some (trees look)) ∧
      snapshot.holdings = manifest.entities.zipIdx.map (fun (entity, look) =>
        (entity.name, entity.holdingsIn manifest.mode (Collection.inventory (trees look)))) ∧
      snapshot.listing = (Collection.inventory (trees manifest.entities.length)).map Prod.fst := by
  rw [loadDuring, Reported.bind_ok_iff] at loaded
  obtain ⟨holdings, gathered, listed⟩ := loaded
  obtain ⟨listing, told, rfl⟩ := Reported.map_ok_iff.mp listed
  let trees := fun look => (contents look).getD []
  have each : List.Forall₂ (fun numbered found =>
      contents numbered.2 = some (trees numbered.2) ∧ (numbered.1.name,
        numbered.1.holdingsIn manifest.mode (Collection.inventory (trees numbered.2))) = found)
      manifest.entities.zipIdx holdings := by
    refine (Reported.forEach_ok_iff.mp gathered).imp ?_
    rintro ⟨entity, look⟩ found done
    obtain ⟨inside, seen, rfl⟩ := Reported.map_ok_iff.mp done
    obtain ⟨tree, there, rfl⟩ := gather_ok_iff.mp seen
    simp [trees, there]
  obtain ⟨present, found⟩ := (List.forall₂_and_left _ _).mp each
  have last : contents manifest.entities.length = some (trees manifest.entities.length) := by
    cases there : contents manifest.entities.length with
    | none =>
      rw [there] at told
      cases told
    | some tree => simp [trees, there]
  refine ⟨trees, ?_, ?_, ?_⟩
  · intro look bound
    rcases Nat.lt_or_eq_of_le bound with before | same
    · have member : (manifest.entities[look], look) ∈ manifest.entities.zipIdx := by
        simp [List.mem_zipIdx_iff_getElem?]
      exact present _ member
    · rw [same, last]
  · rw [← List.forall₂_map_left_iff, List.forall₂_eq_eq_eq] at found
    exact found.symm
  · rw [last] at told
    exact (Except.ok.inj told).symm

theorem holdings?_look {manifest : Manifest} {snapshot : Snapshot} {trees : Nat → Directory}
    (holdings : snapshot.holdings = manifest.entities.zipIdx.map fun (entity, look) =>
      (entity.name, entity.holdingsIn manifest.mode (Collection.inventory (trees look))))
    {name : String} {entity : Entity} {look : Nat}
    (found : manifest.look? name = some (entity, look)) :
    snapshot.holdings? name =
      some (entity.holdingsIn manifest.mode (Collection.inventory (trees look))) := by
  have looked := lookup_map (fun numbered : Entity × Nat => numbered.1.name)
    (fun numbered => numbered.1.holdingsIn manifest.mode
      (Collection.inventory (trees numbered.2))) manifest.entities.zipIdx name
  rw [Manifest.look?] at found
  rw [found] at looked
  rw [holdings?, holdings]
  exact looked

end Snapshot

namespace Collection

theorem kept_of_old {since : Moment} {before after : Directory} (wellFormed : before.WellFormed)
    (still : after.WellFormed)
    (inherits : before.Inherits (fun _ file => since < file.modified) after)
    (old : ∀ file ∈ inventory after, file.2.modified ≤ since) :
    (inventory after).Sublist (inventory before) := by
  apply inventory_sublist wellFormed still
  rintro ⟨names, file⟩ member
  obtain ⟨inside, isXml⟩ := mem_xmlFiles.mp member
  rcases inherits names file inside with kept | newer
  · exact mem_xmlFiles.mpr ⟨kept, isXml⟩
  · have older := old _ (List.mem_map_of_mem member)
    exact absurd newer (Int.not_lt.mpr older)

end Collection

namespace Service

theorem entities_known {service : Service} {name : String} {entity : Entity}
    (known : service.manifest.entity name = .ok entity) :
    service.entities name = .ok (service.snapshot.records name) := by
  rw [entities, known]
  rfl

/-- When the files that are left have all been seen, a service answers as a fresh one just when the
others had no records. -/
theorem answersAs_iff_nothing_lost {a b : Service} (manifest : a.manifest = b.manifest)
    {seen : Nat → Directory} {final : Directory} (last : final.WellFormed)
    (found : ∀ name entity look, a.manifest.look? name = some (entity, look) →
      a.snapshot.holdings? name =
          some (entity.holdingsIn a.manifest.mode (Collection.inventory (seen look))) ∧
        b.snapshot.holdings? name =
          some (entity.holdingsIn a.manifest.mode (Collection.inventory final)) ∧
        (seen look).WellFormed ∧
        (Collection.inventory final).Sublist (Collection.inventory (seen look))) :
    a.AnswersAs b ↔ ∀ name entity look, a.manifest.look? name = some (entity, look) →
      ∀ file ∈ Collection.inventory (seen look),
        file.1 ∉ (Collection.inventory final).map Prod.fst →
          entity.recordsIn a.manifest.mode file = [] := by
  constructor
  · intro answers name entity look numbered file member gone
    obtain ⟨here, there, _, sublist⟩ := found name entity look numbered
    have known : a.manifest.entity name = .ok entity := by
      rw [Manifest.entity_ok_iff, numbered, Option.map_some]
    have records := answers.entities name
    rw [entities_known known, entities_known (by rwa [← manifest]), Except.ok.injEq,
      Snapshot.records_eq here, Snapshot.records_eq there] at records
    apply nothing_of_sublist sublist (congrArg List.length records) file member
    exact fun inside => gone (List.mem_map_of_mem inside)
  · intro nothing
    have same : ∀ name entity look, a.manifest.look? name = some (entity, look) →
        entity.findingsIn a.manifest.mode (Collection.inventory (seen look)) =
          entity.findingsIn a.manifest.mode (Collection.inventory final) := by
      intro name entity look numbered
      obtain ⟨_, _, wellFormed, sublist⟩ := found name entity look numbered
      have apart := Collection.inventory_apart wellFormed
      rw [Entity.findingsIn_eq_flatMap, Entity.findingsIn_eq_flatMap]
      apply flatMap_of_sublist sublist (List.Nodup.of_map _ apart)
      intro file member absent
      apply Entity.foundIn_eq_nil
      apply nothing name entity look numbered file member
      intro listed
      obtain ⟨other, inside, same⟩ := List.mem_map.mp listed
      have equal := List.inj_on_of_nodup_map apart (sublist.subset inside) member same
      exact absent (equal ▸ inside)
    apply answersAs_of_found manifest
    · intro name entity known
      rw [Manifest.entity_ok_iff, Option.map_eq_some_iff] at known
      obtain ⟨⟨_, look⟩, numbered, rfl⟩ := known
      obtain ⟨here, there, _, _⟩ := found name _ look numbered
      rw [Snapshot.records_eq here, Snapshot.records_eq there, ← Entity.findingsIn_record,
        ← Entity.findingsIn_record, same name _ look numbered]
    · intro name entity known id
      rw [Manifest.entity_ok_iff, Option.map_eq_some_iff] at known
      obtain ⟨⟨_, look⟩, numbered, rfl⟩ := known
      obtain ⟨here, there, wellFormed, _⟩ := found name _ look numbered
      rw [Snapshot.find?_eq here (Collection.inventory_apart wellFormed),
        Snapshot.find?_eq there (Collection.inventory_apart last), same name _ look numbered]

/-- A refresh after a load during which files have changed. The service answers as a fresh one then
just when there is a file that is newer than the load, or no file of which there are records has
been removed after it was looked at. -/
theorem refreshModified_after_load {manifest : Manifest} {collection : Collection}
    {files : Directory} {changes : Nat → List Change} {loadedAt : Moment} {snapshot : Snapshot}
    (wellFormed : files.WellFormed)
    (stamped : ∀ look < manifest.entities.length, ∀ change ∈ changes look,
      change.Writes fun file => loadedAt < file.modified)
    (loaded : (Snapshot.loadDuring manifest collection loadedAt fun look =>
      (files.atLook changes look).at? collection.directory).result = .ok snapshot)
    (now : Moment) :
    ∃ (seen : Nat → Directory) (fresh : Service) (outcome : Option Service),
      (∀ look ≤ manifest.entities.length,
        (files.atLook changes look).at? collection.directory = some (seen look)) ∧
      (start manifest collection now (some (seen manifest.entities.length))).result = .ok fresh ∧
      ((Service.mk manifest collection snapshot).refreshModified now loadedAt
        (some (seen manifest.entities.length))).result = .ok outcome ∧
      ((outcome.getD ⟨manifest, collection, snapshot⟩).AnswersAs fresh ↔
        (∃ file ∈ Collection.inventory (seen manifest.entities.length),
          loadedAt < file.2.modified) ∨
        ∀ name entity look, manifest.look? name = some (entity, look) →
          ∀ file ∈ Collection.inventory (seen look),
            file.1 ∉ (Collection.inventory (seen manifest.entities.length)).map Prod.fst →
              entity.recordsIn manifest.mode file = []) := by
  obtain ⟨seen, looked, holdings, listing⟩ := Snapshot.loadDuring_ok loaded
  have sound : ∀ look ≤ manifest.entities.length, (seen look).WellFormed := fun look bound =>
    (Directory.at?_files (Directory.atLook_wellFormed wellFormed look) (looked look bound)).1
  have last := looked _ (Nat.le_refl _)
  obtain ⟨fresh, restarted⟩ := start_total manifest collection now (seen manifest.entities.length)
  by_cases newer : ∃ file ∈ Collection.inventory (seen manifest.entities.length),
      loadedAt < file.2.modified
  · have stale : ¬ (Service.mk manifest collection snapshot).UpToDate loadedAt
        (seen manifest.entities.length) := by
      intro upToDate
      obtain ⟨file, member, late⟩ := newer
      exact absurd late (Int.not_lt.mpr (upToDate.old file member))
    refine ⟨seen, fresh, some fresh, looked, restarted, refreshModified_stale stale restarted, ?_⟩
    exact ⟨fun _ => .inl newer, fun _ => .refl fresh⟩
  · have old : ∀ file ∈ Collection.inventory (seen manifest.entities.length),
        file.2.modified ≤ loadedAt := by
      intro file member
      by_contra late
      exact newer ⟨file, member, Int.not_le.mp late⟩
    refine ⟨seen, fresh, none, looked, restarted,
      refreshModified_upToDate ⟨old, listing.symm⟩ now, ?_⟩
    obtain ⟨sameManifest, _, reloaded⟩ := start_ok_iff.mp restarted
    rw [or_iff_right newer, Option.getD_none]
    -- The listing is made last, so all that it can tell is already in the snapshot.
    apply answersAs_iff_nothing_lost sameManifest.symm (sound _ (Nat.le_refl _))
    intro name entity look numbered
    have bound := Nat.le_of_lt (Manifest.look?_bound numbered)
    have known : manifest.entity name = .ok entity := by
      rw [Manifest.entity_ok_iff]
      exact congrArg (Option.map Prod.fst) numbered
    have inherits : (files.atLook changes look).Inherits (fun _ file => loadedAt < file.modified)
        (files.atLook changes manifest.entities.length) :=
      Directory.atLook_inherits bound stamped
    refine ⟨Snapshot.holdings?_look holdings numbered, Snapshot.holdings?_load reloaded known,
      sound look bound, ?_⟩
    exact Collection.kept_of_old (sound look bound) (sound _ (Nat.le_refl _))
      ((inherits.at? (Directory.atLook_wellFormed wellFormed look)
        (Directory.atLook_wellFormed wellFormed _) (looked look bound) last).imp
          fun _ _ ⟨_, _, newer⟩ => newer) old

end Service

namespace Letters

open Session.Rewritten (letters)

def text (id : String) : String := "<letter id='" ++ id ++ "'/>"

def file (id : String) (modified : Moment) : File := ⟨(text id).toUTF8, modified⟩

def node (id source : String) : Xml.Node :=
  .element ⟨none, "letter"⟩ [⟨⟨none, "id"⟩, id⟩] (some source) []

def record (id resource : String) : Record := ⟨id, "letters", some resource, []⟩

theorem places (id source : String) :
    letters.places ⟨[node id source]⟩ = [.inside (.document [node id source]) 1 (node id source)] := by
  cbv

theorem recordsIn_file {id : String}
    (read : Xml.Document.read? (text id) = some ⟨[node id (text id)]⟩)
    (made : (letters.records .lenient ⟨[node id (text id)]⟩).2 = [⟨id, "letters", none, []⟩])
    (resource : String) (modified : Moment) :
    letters.recordsIn .lenient (resource, file id modified) = [record id resource] := by
  rw [Entity.recordsIn, file, File.text?_toUTF8, Option.bind_some, read]
  change (letters.records .lenient ⟨[node id (text id)]⟩).2.map _ = _
  rw [made]
  rfl

theorem recordsIn_first (resource : String) (modified : Moment) :
    letters.recordsIn .lenient (resource, file "L1" modified) = [record "L1" resource] := by
  apply recordsIn_file (by rfl)
  rw [Entity.records_eq, places]
  rfl

theorem recordsIn_second (resource : String) (modified : Moment) :
    letters.recordsIn .lenient (resource, file "L2" modified) = [record "L2" resource] := by
  apply recordsIn_file (by rfl)
  rw [Entity.records_eq, places]
  rfl

theorem inventory_single (file : File) :
    Collection.inventory [("a.xml", .file file)] = [("a.xml", file)] := by
  have kept : (filesOf [("a.xml", .file file)]).filter
      (fun file => Collection.isXmlFile file.1) = [(["a.xml"], file)] := by
    rfl
  rw [Collection.inventory_of_ordered kept (List.pairwise_singleton _ _)]
  rfl

end Letters

namespace Service.Withdrawn

open Letters (file record recordsIn_first recordsIn_second inventory_single)
open Session.Rewritten (letters)

def both : Directory := [("a.xml", .file (file "L1" 1)), ("b.xml", .file (file "L2" 1))]

def files : Directory := [("briefe", .directory both)]

/-- A letter is taken away after the first look. -/
def withdrawal (others : List Change) : Nat → List Change
  | 0 => .remove "briefe/b.xml" :: others
  | _ => []

def remaining : Directory := [("a.xml", .file (file "L1" 1))]

def exchanged : Directory := [("a.xml", .file (file "L1" 1)), ("c.xml", .file (file "L3" 5))]

theorem files_wellFormed : files.WellFormed := by
  simp only [files, both, Directory.WellFormed, Entry.WellFormed]
  decide

theorem inventory_both :
    Collection.inventory both = [("a.xml", file "L1" 1), ("b.xml", file "L2" 1)] := by
  have kept : (filesOf both).filter (fun file => Collection.isXmlFile file.1) =
      [(["a.xml"], file "L1" 1), (["b.xml"], file "L2" 1)] := by
    rfl
  rw [Collection.inventory_of_ordered kept (by rw [List.pairwise_pair]; rfl)]
  rfl

theorem inventory_exchanged :
    Collection.inventory exchanged = [("a.xml", file "L1" 1), ("c.xml", file "L3" 5)] := by
  have kept : (filesOf exchanged).filter (fun file => Collection.isXmlFile file.1) =
      [(["a.xml"], file "L1" 1), (["c.xml"], file "L3" 5)] := by
    rfl
  rw [Collection.inventory_of_ordered kept (by rw [List.pairwise_pair]; rfl)]
  rfl

theorem looks {others : List Change} {left : Directory}
    (changed : files.after (withdrawal others 0) = [("briefe", .directory left)]) :
    (fun look => (files.atLook (withdrawal others) look).at? "briefe") =
      fun look => some (if look = 0 then both else left) := by
  have later : ∀ look, files.atLook (withdrawal others) (look + 1) =
      [("briefe", .directory left)] := by
    intro look
    induction look with
    | zero => exact changed
    | succ look ih =>
      rw [Directory.atLook, ih]
      rfl
  funext look
  cases look with
  | zero => rfl
  | succ look =>
    rw [later]
    rfl

theorem stamped {others : List Change}
    (writes : ∀ change ∈ others, change.Writes fun file => 2 < file.modified) :
    ∀ look < 1, ∀ change ∈ withdrawal others look,
      change.Writes fun file => 2 < file.modified := by
  intro look bound
  rw [Nat.lt_one_iff.mp bound]
  exact List.forall_mem_cons.mpr ⟨True.intro, writes⟩

theorem records_both : (Collection.inventory both).flatMap (letters.recordsIn .lenient) =
    [record "L1" "a.xml", record "L2" "b.xml"] := by
  rw [inventory_both]
  simp only [List.flatMap_cons, List.flatMap_nil, recordsIn_first, recordsIn_second]
  rfl

theorem records_remaining : (Collection.inventory remaining).flatMap (letters.recordsIn .lenient) =
    [record "L1" "a.xml"] := by
  rw [remaining, inventory_single]
  simp only [List.flatMap_cons, List.flatMap_nil, recordsIn_first]
  rfl

theorem removal_during_load_lost :
    ∃ snapshot fresh,
      files.WellFormed ∧
      (∀ look < 1, ∀ change ∈ withdrawal [] look, change.Writes fun file => 2 < file.modified) ∧
      (Snapshot.loadDuring Session.Rewritten.manifest ⟨"briefe"⟩ 2 fun look =>
        (files.atLook (withdrawal []) look).at? "briefe").result = .ok snapshot ∧
      (files.atLook (withdrawal []) 1).at? "briefe" = some remaining ∧
      ((Service.mk Session.Rewritten.manifest ⟨"briefe"⟩ snapshot).refreshModified 9 2
        (some remaining)).result = .ok none ∧
      (Service.mk Session.Rewritten.manifest ⟨"briefe"⟩ snapshot).entities "letters" =
        .ok [record "L1" "a.xml", record "L2" "b.xml"] ∧
      (start Session.Rewritten.manifest ⟨"briefe"⟩ 9 (some remaining)).result = .ok fresh ∧
      fresh.entities "letters" = .ok [record "L1" "a.xml"] := by
  have changed : files.after (withdrawal [] 0) = [("briefe", .directory remaining)] := by rfl
  have loaded := Snapshot.loadDuring_result Session.Rewritten.manifest ⟨"briefe"⟩ 2 fun look =>
    if look = 0 then both else remaining
  rw [← looks changed] at loaded
  obtain ⟨fresh, restarted⟩ := start_total Session.Rewritten.manifest ⟨"briefe"⟩ 9 remaining
  obtain ⟨sameManifest, _, reloaded⟩ := start_ok_iff.mp restarted
  have known : Session.Rewritten.manifest.entity "letters" = .ok letters := rfl
  have left : (files.atLook (withdrawal []) 1).at? "briefe" = some remaining :=
    congrFun (looks changed) 1
  refine ⟨_, fresh, files_wellFormed, stamped (by simp), loaded, left,
    refreshModified_upToDate ⟨?_, rfl⟩ 9, ?_, restarted, ?_⟩
  · rw [remaining, inventory_single]
    decide
  · rw [entities_known known, ← records_both]
    rfl
  · rw [entities_known (by rw [sameManifest]; exact known),
      Snapshot.records_eq (Snapshot.holdings?_load reloaded known)]
    exact congrArg Except.ok records_remaining

/-- Another letter that comes at the same time gives reason for a refresh. -/
theorem refreshModified_after_exchange :
    ∃ snapshot fresh outcome,
      files.WellFormed ∧
      (∀ look < 1, ∀ change ∈ withdrawal [.write "briefe/c.xml" (file "L3" 5)] look,
        change.Writes fun file => 2 < file.modified) ∧
      (Snapshot.loadDuring Session.Rewritten.manifest ⟨"briefe"⟩ 2 fun look =>
        (files.atLook (withdrawal [.write "briefe/c.xml" (file "L3" 5)]) look).at? "briefe").result =
          .ok snapshot ∧
      (start Session.Rewritten.manifest ⟨"briefe"⟩ 9 (some exchanged)).result = .ok fresh ∧
      ((Service.mk Session.Rewritten.manifest ⟨"briefe"⟩ snapshot).refreshModified 9 2
        (some exchanged)).result = .ok outcome ∧
      (outcome.getD ⟨Session.Rewritten.manifest, ⟨"briefe"⟩, snapshot⟩).AnswersAs fresh := by
  have changed : files.after (withdrawal [.write "briefe/c.xml" (file "L3" 5)] 0) =
      [("briefe", .directory exchanged)] := by
    rfl
  have writes : ∀ change ∈ [Change.write "briefe/c.xml" (file "L3" 5)],
      change.Writes fun file => 2 < file.modified := by
    intro change member
    rw [List.mem_singleton.mp member]
    exact (by decide : (2 : Int) < 5)
  have loaded := Snapshot.loadDuring_result Session.Rewritten.manifest ⟨"briefe"⟩ 2 fun look =>
    if look = 0 then both else exchanged
  rw [← looks changed] at loaded
  obtain ⟨seen, fresh, outcome, looked, restarted, refreshed, answers⟩ :=
    @refreshModified_after_load Session.Rewritten.manifest ⟨"briefe"⟩ files _ 2 _
      files_wellFormed (stamped writes) loaded 9
  have last : seen Session.Rewritten.manifest.entities.length = exchanged := by
    have there := looked _ (Nat.le_refl _)
    rw [show Session.Rewritten.manifest.entities.length = 1 from rfl] at there ⊢
    exact Option.some.inj (there.symm.trans (congrFun (looks changed) 1))
  rw [last] at restarted refreshed answers
  refine ⟨_, fresh, outcome, files_wellFormed, stamped writes, loaded, restarted, refreshed,
    answers.mpr (.inl ⟨("c.xml", file "L3" 5), ?_, by decide⟩)⟩
  rw [inventory_exchanged]
  exact List.mem_cons_of_mem _ List.mem_cons_self

end Service.Withdrawn
end Regesta
