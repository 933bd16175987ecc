import Regesta.Proofs.Snapshot.Scan
import Regesta.Session

namespace Regesta

namespace Service

/-- Two services answer all questions alike. -/
structure AnswersAs (a b : Service) : Prop where
  entities : ∀ entity, a.entities entity = b.entities entity
  get : ∀ entity id, a.get? entity id = b.get? entity id
  render : ∀ entity id rendition, a.render? entity id rendition = b.render? entity id rendition

structure UpToDate (service : Service) (since : Moment) (contents : Directory) : Prop where
  old : ∀ file ∈ Collection.inventory contents, file.2.modified ≤ since
  listed : (Collection.inventory contents).map Prod.fst = service.snapshot.listing

end Service

/-- Files that are in both of two trees and differ are newer than some moment. -/
def Noticed (since : Moment) (before after : Directory) : Prop :=
  ∀ id old new, (id, old) ∈ Collection.inventory before → (id, new) ∈ Collection.inventory after →
    old.bytes ≠ new.bytes → since < new.modified

def SameBytes (before after : List (String × File)) : Prop :=
  List.Forall₂ (fun old new => old.1 = new.1 ∧ old.2.bytes = new.2.bytes) before after

theorem forall₂_of_listed {relation : String × File → String × File → Prop}
    {before after : List (String × File)} (listed : after.map Prod.fst = before.map Prod.fst)
    (each : ∀ id old new, (id, old) ∈ before → (id, new) ∈ after →
      relation (id, old) (id, new)) : List.Forall₂ relation before after := by
  induction before generalizing after with
  | nil =>
    rw [List.map_nil, List.map_eq_nil_iff] at listed
    subst listed
    exact .nil
  | cons old rest ih =>
    cases after with
    | nil => cases listed
    | cons new others =>
      obtain ⟨id, old⟩ := old
      obtain ⟨other, new⟩ := new
      rw [List.map_cons, List.map_cons, List.cons.injEq] at listed
      obtain ⟨same, listed⟩ := listed
      cases same
      refine .cons (each id old new List.mem_cons_self List.mem_cons_self) (ih listed ?_)
      intro id earlier later inBefore inAfter
      exact each id earlier later (List.mem_cons_of_mem _ inBefore)
        (List.mem_cons_of_mem _ inAfter)

theorem resource?_congr {old new : String × File} (id : old.1 = new.1)
    (bytes : old.2.bytes = new.2.bytes) : Collection.resource? old = Collection.resource? new := by
  have text : old.2.text? = new.2.text? := by rw [File.text?, File.text?, bytes]
  rw [Collection.resource?, Collection.resource?, Resource.ofFile, Resource.ofFile, id, text]

theorem resources_congr {before after : List (String × File)} (same : SameBytes before after) :
    before.filterMap Collection.resource? = after.filterMap Collection.resource? := by
  induction same with
  | nil => rfl
  | cons first _ ih =>
    rw [List.filterMap_cons, List.filterMap_cons, resource?_congr first.1 first.2, ih]

theorem holdingsIn_congr {before after : List (String × File)} (same : SameBytes before after)
    (entity : Entity) (mode : Mode) :
    entity.holdingsIn mode before = entity.holdingsIn mode after := by
  have resources := resources_congr same
  rw [Entity.holdingsIn, Entity.holdingsIn, ← Entity.findingsIn_record, ← Entity.findingsIn_record,
    Entity.findingsIn, Entity.findingsIn, resources]

namespace Service

theorem AnswersAs.refl (service : Service) : service.AnswersAs service := by
  constructor <;> intros <;> rfl

theorem answersAs_of_found {a b : Service} (manifest : a.manifest = b.manifest)
    (records : ∀ name entity, a.manifest.entity name = .ok entity →
      a.snapshot.records name = b.snapshot.records name)
    (found : ∀ name entity, a.manifest.entity name = .ok entity →
      ∀ id, a.snapshot.find? name id = b.snapshot.find? name id) : a.AnswersAs b := by
  constructor
  · intro name
    rw [entities, entities, ← manifest]
    cases known : a.manifest.entity name with
    | error _ => rfl
    | ok entity => rw [records name entity known]
  · intro name id
    rw [get?, get?, ← manifest]
    cases known : a.manifest.entity name with
    | error _ => rfl
    | ok entity => rw [found name entity known]
  · intro name id rendition
    rw [render?, render?, ← manifest]
    cases known : a.manifest.entity name with
    | error _ => rfl
    | ok entity => rw [found name entity known]

theorem answersAs_of_holdings {a b : Service} (manifest : a.manifest = b.manifest)
    (holdings : a.snapshot.holdings = b.snapshot.holdings) : a.AnswersAs b := by
  have same : ∀ name, a.snapshot.holdings? name = b.snapshot.holdings? name := by
    intro name
    rw [Snapshot.holdings?, Snapshot.holdings?, holdings]
  apply answersAs_of_found manifest
  · intro name _ _
    rw [Snapshot.records, Snapshot.records, same]
  · intro name _ _ id
    rw [Snapshot.find?, Snapshot.find?, same]

variable {service : Service} {since : Moment} {contents : Directory}

@[simp] theorem isStale_iff :
    service.isStale since (some contents) = .ok false ↔ service.UpToDate since contents := by
  have told : service.isStale since (some contents) = .ok
      (!(((Collection.inventory contents).filter fun file => since < file.2.modified).map
          Prod.fst).isEmpty ||
        (Collection.inventory contents).map Prod.fst != service.snapshot.listing) := rfl
  rw [told, Except.ok.injEq, Bool.or_eq_false_iff, Bool.not_eq_false', List.isEmpty_iff,
    List.map_eq_nil_iff, List.filter_eq_nil_iff, bne_eq_false_iff_eq]
  simp only [decide_eq_true_eq, Int.not_lt]
  exact ⟨fun both => ⟨both.1, both.2⟩, fun fresh => ⟨fresh.old, fresh.listed⟩⟩

theorem refreshModified_upToDate (upToDate : service.UpToDate since contents) (now : Moment) :
    (service.refreshModified now since (some contents)).result = .ok none := by
  rw [refreshModified, isStale_iff.mpr upToDate]
  rfl

theorem refreshModified_stale (stale : ¬ service.UpToDate since contents) {now : Moment}
    {fresh : Service} (started : (start service.manifest service.collection now
      (some contents)).result = .ok fresh) :
    (service.refreshModified now since (some contents)).result = .ok (some fresh) := by
  have told : service.isStale since (some contents) = .ok true := by
    rw [← isStale_iff] at stale
    cases told : service.isStale since (some contents) with
    | error error => cases told
    | ok answer =>
      rw [told] at stale
      cases answer with
      | true => rfl
      | false => exact absurd rfl stale
  rw [refreshModified, told, Reported.bind_ok_iff]
  exact ⟨true, rfl, Reported.map_ok_iff.mpr ⟨fresh, started, rfl⟩⟩

@[simp] theorem refreshModified_missing (service : Service) (now since : Moment) :
    (service.refreshModified now since none).result =
      .error (.missingCollection service.collection.directory) := rfl

theorem answersAs_of_upToDate {manifest : Manifest} {collection : Collection}
    {opened now : Moment} {before : Directory} {fresh : Service}
    (started : (start manifest collection opened (some before)).result = .ok service)
    (restarted : (start manifest collection now (some contents)).result = .ok fresh)
    (upToDate : service.UpToDate since contents) (noticed : Noticed since before contents) :
    service.AnswersAs fresh := by
  obtain ⟨sameManifest, _, loaded⟩ := start_ok_iff.mp started
  obtain ⟨freshManifest, _, reloaded⟩ := start_ok_iff.mp restarted
  rw [Snapshot.load_result, Except.ok.injEq] at loaded reloaded
  have listed : (Collection.inventory contents).map Prod.fst =
      (Collection.inventory before).map Prod.fst := by
    rw [upToDate.listed, ← loaded]
  have same : SameBytes (Collection.inventory before) (Collection.inventory contents) := by
    apply forall₂_of_listed listed
    intro id old new inBefore inAfter
    refine ⟨rfl, ?_⟩
    by_contra differ
    have newer := noticed id old new inBefore inAfter differ
    have older := upToDate.old (id, new) inAfter
    exact absurd newer (Int.not_lt.mpr older)
  apply answersAs_of_holdings (sameManifest.trans freshManifest.symm)
  rw [← loaded, ← reloaded]
  simp only [holdingsIn_congr same]

end Service

/-- Refreshing leaves a service that is up to date and replaces any other by a fresh one. Either way
it answers as a fresh one then, if what has changed is newer than the moment in question. It fails
where the directory of the collection is missing, and all stays as it was. -/
theorem Session.refreshModified_keeps_up {session : Session} {service : Service}
    {opened : Moment} {before : Directory} (running : session.service = some service)
    (started : (Service.start session.manifest session.collection opened (some before)).result =
      .ok service) (now since : Moment) :
    ∃ performed, session.perform now (.refreshModified since) = some performed ∧
      match session.contents with
      | none =>
        performed.session = session ∧
          performed.answer = .error (.missingCollection session.collection.directory)
      | some contents =>
        ∃ fresh, (Service.start session.manifest session.collection now (some contents)).result =
            .ok fresh ∧
          (service.UpToDate since contents →
            performed.session = session ∧ performed.answer = .ok (.flag false)) ∧
          (¬ service.UpToDate since contents →
            performed.session = { session with service := some fresh, swapped := true } ∧
              performed.answer = .ok (.flag true)) ∧
          (Noticed since before contents →
            ∃ after, performed.session.service = some after ∧ after.AnswersAs fresh) := by
  obtain ⟨sameManifest, sameCollection, _⟩ := Service.start_ok_iff.mp started
  refine ⟨session.refreshModified service now since, ?_, ?_⟩
  · simp only [perform, running, Option.map_some]
  cases there : session.contents with
  | none =>
    have failed := service.refreshModified_missing now since
    rw [sameCollection] at failed
    simp only [refreshModified, there, failed, unchanged, and_self]
  | some contents =>
    obtain ⟨fresh, restarted⟩ :=
      Service.start_total session.manifest session.collection now contents
    refine ⟨fresh, restarted, ?_⟩
    by_cases upToDate : service.UpToDate since contents
    · have left := Service.refreshModified_upToDate upToDate now
      simp only [refreshModified, there, left, unchanged]
      refine ⟨fun _ => ⟨trivial, trivial⟩, fun stale => absurd upToDate stale, ?_⟩
      intro noticed
      exact ⟨service, running, Service.answersAs_of_upToDate started restarted upToDate noticed⟩
    · have replaced := Service.refreshModified_stale upToDate
        (by rw [sameManifest, sameCollection]; exact restarted)
      simp only [refreshModified, there, replaced]
      refine ⟨fun fresh => absurd fresh upToDate, fun _ => ⟨trivial, trivial⟩, ?_⟩
      intro _
      exact ⟨fresh, rfl, .refl fresh⟩

namespace Session.Rewritten

def letters : Entity :=
  ⟨"letters", ⟨"letter", .steps false [⟨.child, .tag "letter", []⟩]⟩, ⟨none, "id"⟩, []⟩

def manifest : Manifest := ⟨"briefe", [letters], ⟨none, "id"⟩, [], .lenient⟩

def written : File := ⟨"<letter id='L1'/>".toUTF8, 1⟩

def rewritten : File := ⟨"<letter id='L2'/>".toUTF8, 5⟩

def broken : File := ⟨"<letter".toUTF8, 1⟩

def contents (first : File) : Directory := [("a.xml", .file first), ("b.xml", .file broken)]

def session (service : Service) : Session :=
  ⟨manifest, ⟨"briefe"⟩, [("briefe", .directory (contents rewritten))], some service, false⟩

theorem files (first : File) :
    Collection.inventory (contents first) = [("a.xml", first), ("b.xml", broken)] := by
  have kept : (filesOf (contents first)).filter (fun file => Collection.isXmlFile file.1) =
      [(["a.xml"], first), (["b.xml"], broken)] := by
    rfl
  rw [Collection.inventory_of_ordered kept (by rw [List.pairwise_pair]; rfl)]
  rfl

theorem session_contents (service : Service) :
    (session service).contents = some (contents rewritten) := by
  have relative : "briefe".toList.head? ≠ some '/' := by decide
  change Directory.at? [("briefe", .directory (contents rewritten))] "briefe" = _
  rw [Directory.at?, Directory.lookup, if_neg (by decide), if_neg (by decide), if_neg relative]
  rfl

theorem stale (service : Service) : ¬ service.UpToDate 3 (contents rewritten) := by
  intro upToDate
  have member : ("a.xml", rewritten) ∈ Collection.inventory (contents rewritten) := by
    rw [files]
    exact List.mem_cons_self
  have old : (5 : Int) ≤ 3 := upToDate.old _ member
  omega

theorem noticed : Noticed 3 (contents written) (contents rewritten) := by
  intro id old new inBefore inAfter differ
  rw [files] at inBefore inAfter
  simp only [List.mem_cons, List.not_mem_nil, or_false, Prod.mk.injEq] at inBefore inAfter
  rcases inAfter with ⟨_, rfl⟩ | ⟨rfl, rfl⟩
  · exact (by decide : (3 : Int) < 5)
  · rcases inBefore with ⟨other, _⟩ | ⟨_, rfl⟩
    · exact absurd other (by decide)
    · exact absurd rfl differ

theorem refreshModified_keeps_up_rewritten :
    ∃ service performed fresh later,
      (session service).service = some service ∧
      (Service.start manifest ⟨"briefe"⟩ 2 (some (contents written))).result = .ok service ∧
      (session service).perform 9 (.refreshModified 3) = some performed ∧
      performed.answer = .ok (.flag true) ∧
      (Service.start manifest ⟨"briefe"⟩ 9 (some (contents rewritten))).result = .ok fresh ∧
      performed.session.service = some later ∧ later.AnswersAs fresh := by
  obtain ⟨service, started⟩ := Service.start_total manifest ⟨"briefe"⟩ 2 (contents written)
  obtain ⟨performed, done, outcome⟩ :=
    @refreshModified_keeps_up (session service) service 2 (contents written) rfl started 9 3
  simp only [session_contents] at outcome
  obtain ⟨fresh, restarted, _, replaced, answers⟩ := outcome
  obtain ⟨later, kept, same⟩ := answers noticed
  have answered := (replaced (stale service)).2
  exact ⟨service, performed, fresh, later, rfl, started, done, answered, restarted, kept, same⟩

end Session.Rewritten

end Regesta
