import Regesta.Manifest.Decode
import Regesta.Proofs.Except

namespace Regesta.Decode

open Yaml (Tree Tag Style)

variable {α β σ : Type}

def Agree (first second : Decoded α) : Prop := ∀ value, first = .ok value ↔ second = .ok value

namespace Agree

theorem refl (decoded : Decoded α) : Agree decoded decoded := fun _ => Iff.rfl

theorem symm {first second : Decoded α} (agree : Agree first second) : Agree second first :=
  fun value => (agree value).symm

theorem trans {first second third : Decoded α} (left : Agree first second)
    (right : Agree second third) : Agree first third :=
  fun value => (left value).trans (right value)

theorem of_eq {first second : Decoded α} (same : first = second) : Agree first second :=
  same ▸ refl first

theorem bind {first second : Decoded α} {next other : α → Decoded β} (agree : Agree first second)
    (later : ∀ value, Agree (next value) (other value)) :
    Agree (first >>= next) (second >>= other) := by
  intro result
  rw [bind_ok_iff, bind_ok_iff]
  exact exists_congr fun value => and_congr (agree value) (later value result)

theorem map {first second : Decoded α} (change : α → β) (agree : Agree first second) :
    Agree (first.map change) (second.map change) := by
  intro result
  rw [map_ok_iff, map_ok_iff]
  exact exists_congr fun value => and_congr_left' (agree value)

theorem error {first second : Decoded α} {fault : ManifestFault} (agree : Agree first second)
    (failed : first = .error fault) : ∃ other, second = .error other := by
  cases second with
  | error other => exact ⟨other, rfl⟩
  | ok value => exact absurd ((agree value).mpr rfl) (by simp [failed])

end Agree

@[simp] theorem under_ok_iff {step : FaultStep} {decoded : Decoded α} {value : α} :
    under step decoded = .ok value ↔ decoded = .ok value := by
  cases decoded <;> simp [under, Except.mapError]

theorem Agree.under {first second : Decoded α} (agree : Agree first second)
    (step other : FaultStep) : Agree (under step first) (under other second) := by
  intro value
  rw [under_ok_iff, under_ok_iff]
  exact agree value

theorem Agree.fill {first second : Decoded α} (agree : Agree first second) (name : String)
    (present : Option α) : Agree (fill name present first) (fill name present second) := by
  unfold Decode.fill
  split
  · exact refl _
  · exact agree.map some

theorem Agree.optional {decode other : Tree → Decoded α} (tree : Tree)
    (agree : ∀ tree, Agree (decode tree) (other tree)) :
    Agree (optional decode tree) (optional other tree) := by
  unfold Decode.optional
  refine bind (refl _) fun isLeftOut => ?_
  split
  · exact refl _
  · exact (agree tree).map some

theorem oneOrMany_agree (step other : FaultStep) (tree : Tree) :
    Agree (oneOrMany step tree) (oneOrMany other tree) :=
  Agree.bind ((Agree.refl _).under step other) fun _ => Agree.refl _

theorem first_ok {first : Decoded α} {next : α → Decoded β} {result : β}
    (whole : first >>= next = .ok result) : ∃ value, first = .ok value := by
  obtain ⟨value, found, _⟩ := bind_ok_iff.mp whole
  exact ⟨value, found⟩

@[simp] theorem fill_ok_iff {name : String} {present filled : Option α} {decoded : Decoded α} :
    fill name present decoded = .ok filled ↔
      present = none ∧ ∃ value, decoded = .ok value ∧ filled = some value := by
  cases present with
  | none =>
    rw [fill, if_neg (by simp), map_ok_iff]
    simp [eq_comm]
  | some value => simp [fill, fail]

abbrev MapEntry := Option String × Tree × Tree

/-- Entries are worked through one after the other, each from the state that is left by those before
it. -/
structure Accumulates (run : List MapEntry → σ → Decoded σ) : Prop where
  nil : ∀ state, run [] state = .ok state
  cons : ∀ entry rest state, run (entry :: rest) state = run [entry] state >>= run rest

namespace Accumulates

variable {run : List MapEntry → σ → Decoded σ} (accumulates : Accumulates run)
include accumulates

theorem append (before after : List MapEntry) (state : σ) :
    run (before ++ after) state = run before state >>= run after := by
  induction before generalizing state with
  | nil =>
    rw [accumulates.nil]
    rfl
  | cons entry rest ih =>
    rw [List.cons_append, accumulates.cons entry (rest ++ after), accumulates.cons entry rest,
      bind_assoc]
    exact bind_congr ih

theorem exchange (before after : List MapEntry) {entry other : MapEntry}
    (same : ∀ state, Agree (run [entry] state) (run [other] state)) (state : σ) :
    Agree (run (before ++ entry :: after) state) (run (before ++ other :: after) state) := by
  rw [accumulates.append, accumulates.append]
  refine Agree.bind (Agree.refl _) fun between => ?_
  rw [accumulates.cons entry, accumulates.cons other]
  exact (same between).bind fun _ => Agree.refl _

theorem insert (before after : List MapEntry) {entry : MapEntry}
    (idle : ∀ state, run [entry] state = .ok state) (state : σ) :
    run (before ++ entry :: after) state = run (before ++ after) state := by
  rw [accumulates.append, accumulates.append]
  refine bind_congr fun between => ?_
  rw [accumulates.cons, idle]
  rfl

theorem each {entries : List MapEntry} {entry : MapEntry} (member : entry ∈ entries)
    {state last : σ} (whole : run entries state = .ok last) :
    ∃ between next, run [entry] between = .ok next := by
  obtain ⟨before, after, rfl⟩ := List.append_of_mem member
  rw [accumulates.append] at whole
  obtain ⟨between, _, later⟩ := bind_ok_iff.mp whole
  rw [accumulates.cons] at later
  obtain ⟨next, decoded, _⟩ := bind_ok_iff.mp later
  exact ⟨between, next, decoded⟩

theorem preserves {invariant : σ → Prop}
    (each : ∀ entry state next, invariant state → run [entry] state = .ok next → invariant next)
    {entries : List MapEntry} {state last : σ} (holds : invariant state)
    (whole : run entries state = .ok last) : invariant last := by
  induction entries generalizing state with
  | nil =>
    rw [accumulates.nil] at whole
    cases whole
    exact holds
  | cons entry rest ih =>
    rw [accumulates.cons] at whole
    obtain ⟨between, decoded, later⟩ := bind_ok_iff.mp whole
    exact ih (each entry state between holds decoded) later

end Accumulates

def propertyField (step : FaultStep) (value : Tree) (fields : PropertyFields) :
    PropertyKey → Decoded PropertyFields
  | .paths => do
    let paths ← fill "xpath" fields.paths (optional (oneOrMany step) value)
    .ok { fields with paths }
  | .multiple => do
    let multiple ← fill "multiple" fields.multiple (under step (truth value))
    .ok { fields with multiple }
  | .attributes => do
    let attributes ← fill "attrib" fields.attributes (optional (oneOrMany step) value)
    .ok { fields with attributes }
  | .filter => do
    let filter ← fill "filter" fields.filter (optional (fun tree => under step (text tree)) value)
    .ok { fields with filter }
  | .nested => do
    let nested ← fill "properties" fields.nested
      (optional (fun tree => under step (nested tree)) value)
    .ok { fields with nested }

theorem propertyFields_cons (name : Option String) (key value : Tree) (rest : List MapEntry)
    (fields : PropertyFields) :
    propertyFields ((name, key, value) :: rest) fields =
      text key >>= propertyKey >>= propertyField (stepTo name) value fields >>=
        propertyFields rest := by
  rw [propertyFields]
  simp only [bind_assoc]
  refine bind_congr fun spelling => bind_congr fun found => ?_
  cases found with
  | nested =>
    -- Here the value is told to be left out by hand, before it counts as filling the field.
    simp only [propertyField, fill, optional]
    split
    · rfl
    · cases isLeftOut value with
      | error fault => rfl
      | ok leftOut =>
        cases leftOut
        · cases under (stepTo name) (nested value) <;> rfl
        · rfl
  | _ => simp only [propertyField, bind_assoc]; rfl

theorem propertyFields_accumulates : Accumulates propertyFields where
  nil fields := by rw [propertyFields]
  cons entry rest fields := by
    obtain ⟨name, key, value⟩ := entry
    rw [propertyFields_cons, propertyFields_cons]
    simp only [bind_assoc, propertyFields]
    rfl

theorem propertyFields_entry {spelling : String} {key : PropertyKey}
    (known : propertyKey spelling = .ok key) (name : Option String) (tag : Option Tag)
    (style : Style) (value : Tree) (fields : PropertyFields) :
    propertyFields [(name, .scalar tag style spelling, value)] fields =
      propertyField (stepTo name) value fields key := by
  have spelled : text (.scalar tag style spelling) >>= propertyKey = .ok key := known
  rw [propertyFields_cons, spelled]
  change propertyField (stepTo name) value fields key >>= propertyFields [] = _
  rw [show propertyFields [] = pure from funext propertyFields_accumulates.nil, bind_pure]

theorem properties_accumulates : Accumulates properties where
  nil decoded := by rw [properties]
  cons entry rest decoded := by
    obtain ⟨name, key, value⟩ := entry
    simp only [properties, bind_assoc]
    rfl

theorem entities_accumulates : Accumulates entities where
  nil decoded := by rw [entities]
  cons entry rest decoded := by
    obtain ⟨name, key, value⟩ := entry
    simp only [entities, bind_assoc]
    rfl

theorem entityFields_accumulates : Accumulates entityFields where
  nil fields := by rw [entityFields]
  cons entry rest fields := by
    obtain ⟨name, key, value⟩ := entry
    simp only [entityFields, bind_assoc]
    refine bind_congr fun spelling => ?_
    split
    case h_6 => rfl
    all_goals
      simp only [bind_assoc]
      rfl

theorem manifestFields_accumulates : Accumulates manifestFields where
  nil fields := by rw [manifestFields]
  cons entry rest fields := by
    obtain ⟨name, key, value⟩ := entry
    simp only [manifestFields, bind_assoc]
    refine bind_congr fun spelling => ?_
    split
    all_goals
      simp only [bind_assoc]
      rfl

section Single

variable (name : Option String) (tag : Option Tag) (style : Style) (spelling : String)
  (value : Tree)

theorem properties_entry (decoded : List (String × PropertyDescriptor)) :
    properties [(name, .scalar tag style spelling, value)] decoded =
      under (stepTo name) (property value) >>= fun property =>
        .ok (setEntry spelling property decoded) := by
  simp only [properties, text]
  rfl

theorem entities_entry (decoded : List (String × EntityDescriptor)) :
    entities [(name, .scalar tag style spelling, value)] decoded =
      under (stepTo name) (entity value) >>= fun entity =>
        .ok (setEntry spelling entity decoded) := by
  simp only [entities, text]
  rfl

theorem entityFields_properties (fields : EntityFields) :
    entityFields [(name, .scalar tag style "properties", value)] fields =
      fill "properties" fields.properties
          (under (stepTo name) (entries value >>= (properties · []))) >>= fun properties =>
        .ok { fields with properties } := by
  simp only [entityFields, text]
  rfl

theorem manifestFields_entities (fields : ManifestFields) :
    manifestFields [(name, .scalar tag style "entities", value)] fields =
      fill "entities" fields.entities
          (under (stepTo name) (entries value >>= (entities · []))) >>= fun entities =>
        .ok { fields with entities } := by
  simp only [manifestFields, text]
  rfl

end Single

/-- The parts of a manifest that a tree may stand for. -/
inductive Part where
  | manifest
  | entities
  | entity
  | properties
  | property
  | nested
  | texts

namespace Part

abbrev Value : Part → Type
  | manifest => ManifestDescriptor
  | entities => List (String × EntityDescriptor)
  | entity => EntityDescriptor
  | properties => List (String × PropertyDescriptor)
  | property => PropertyDescriptor
  | nested => Option (Nested (String × PropertyDescriptor))
  | texts => Option (List String)

def decode : (part : Part) → Tree → Decoded part.Value
  | manifest => Decode.manifest
  | entities => fun tree => entries tree >>= (Decode.entities · [])
  | entity => Decode.entity
  | properties => fun tree => entries tree >>= (Decode.properties · [])
  | property => Decode.property
  | nested => optional Decode.nested
  | texts => optional (oneOrMany .unnamed)

inductive Under : Part → String → Part → Prop
  | entities : Under manifest "entities" entities
  | entity (name : String) : Under entities name entity
  | properties : Under entity "properties" properties
  | property (name : String) : Under properties name property
  | paths {spelling : String} : propertyKey spelling = .ok .paths → Under property spelling texts
  | attributes {spelling : String} :
    propertyKey spelling = .ok .attributes → Under property spelling texts
  | nested {spelling : String} : propertyKey spelling = .ok .nested → Under property spelling nested
  | grouped (name : String) : Under nested name property

end Part

structure Folds (decode : Tree → Decoded α) (run : List MapEntry → σ → Decoded σ) : Prop where
  accumulates : Accumulates run
  mapping : ∀ tag, ∃ (start : σ) (close : σ → Decoded α), ∀ entries,
    Agree (decode (.mapping tag entries)) (run entries start >>= close)

namespace Folds

variable {decode : Tree → Decoded α} {run : List MapEntry → σ → Decoded σ}

theorem exchange (folds : Folds decode run) (tag : Option Tag) (before after : List MapEntry)
    {entry other : MapEntry} (same : ∀ state, Agree (run [entry] state) (run [other] state)) :
    Agree (decode (.mapping tag (before ++ entry :: after)))
      (decode (.mapping tag (before ++ other :: after))) := by
  obtain ⟨start, close, mapping⟩ := folds.mapping tag
  have runs := folds.accumulates.exchange before after same start
  exact (mapping _).trans ((runs.bind fun _ => Agree.refl _).trans (mapping _).symm)

theorem insert (folds : Folds decode run) (tag : Option Tag) (before after : List MapEntry)
    {entry : MapEntry} (idle : ∀ state, run [entry] state = .ok state) :
    Agree (decode (.mapping tag (before ++ entry :: after)))
      (decode (.mapping tag (before ++ after))) := by
  obtain ⟨start, close, mapping⟩ := folds.mapping tag
  have runs := folds.accumulates.insert before after idle start
  exact (mapping _).trans ((Agree.of_eq (congrArg (· >>= close) runs)).trans (mapping _).symm)

theorem each (folds : Folds decode run) {tag : Option Tag} {entries : List MapEntry}
    {entry : MapEntry} (member : entry ∈ entries) {whole : α}
    (decoded : decode (.mapping tag entries) = .ok whole) :
    ∃ between next, run [entry] between = .ok next := by
  obtain ⟨start, close, mapping⟩ := folds.mapping tag
  obtain ⟨last, ran, _⟩ := bind_ok_iff.mp ((mapping entries whole).mp decoded)
  exact folds.accumulates.each member ran

end Folds

namespace Part

theorem manifest_folds : Folds manifest.decode manifestFields where
  accumulates := manifestFields_accumulates
  mapping _ := ⟨_, _, fun _ => Agree.refl _⟩

theorem entities_folds : Folds entities.decode Decode.entities where
  accumulates := entities_accumulates
  mapping _ := ⟨[], .ok, fun entries => .of_eq (bind_pure (Decode.entities entries [])).symm⟩

theorem entity_folds : Folds entity.decode entityFields where
  accumulates := entityFields_accumulates
  mapping _ := ⟨_, _, fun _ => Agree.refl _⟩

theorem properties_folds : Folds properties.decode Decode.properties where
  accumulates := properties_accumulates
  mapping _ := ⟨[], .ok, fun entries => .of_eq (bind_pure (Decode.properties entries [])).symm⟩

theorem property_folds : Folds property.decode propertyFields where
  accumulates := propertyFields_accumulates
  mapping tag := by
    refine ⟨.none, fun fields => .ok fields.close, fun entries => .of_eq ?_⟩
    change Decode.property (.mapping tag entries) = _
    rw [Decode.property]
    cases propertyFields entries .none <;> rfl

theorem nested_folds : Folds nested.decode Decode.properties where
  accumulates := properties_accumulates
  mapping tag := by
    -- A mapping with a tag of the document's own is refused before its entries are looked at, which
    -- comes to the same as refusing it afterwards.
    by_cases own : tag.any Tag.isOwn
    · refine ⟨[], fun _ => fail (.unfit "tagged value" nestedKind), fun entries => ?_⟩
      intro result
      change optional Decode.nested (.mapping tag entries) = _ ↔ _
      simp [optional, isLeftOut, Decode.nested, own, fail, bind_ok_iff, map_ok_iff]
    · refine ⟨[], fun set => .ok (some (.group set)), fun entries => .of_eq ?_⟩
      change optional Decode.nested (.mapping tag entries) = _
      simp only [optional, isLeftOut, Decode.nested, own]
      cases Decode.properties entries [] <;> rfl

variable {part inner : Part} {spelling : String}

theorem texts_agree {value other : Tree} (agree : Agree (texts.decode value) (texts.decode other))
    (step after : FaultStep) :
    Agree (optional (oneOrMany step) value) (optional (oneOrMany after) other) :=
  (Agree.optional value (oneOrMany_agree step .unnamed)).trans
    (agree.trans (Agree.optional other (oneOrMany_agree .unnamed after)))

theorem nested_agree {value other : Tree}
    (agree : Agree (nested.decode value) (nested.decode other)) (step after : FaultStep) :
    Agree (optional (fun tree => Decode.under step (Decode.nested tree)) value)
      (optional (fun tree => Decode.under after (Decode.nested tree)) other) := by
  have placed (step : FaultStep) (tree : Tree) :
      Agree (Decode.under step (Decode.nested tree)) (Decode.nested tree) :=
    fun _ => under_ok_iff
  exact (Agree.optional value (placed step)).trans
    (agree.trans (Agree.optional other (placed after)).symm)

/-- A value may be exchanged for one that, as the part that it stands for, is decoded alike. -/
theorem Under.exchange (below : Under part spelling inner) {value other : Tree}
    (agree : Agree (inner.decode value) (inner.decode other)) (tag keyTag : Option Tag)
    (style : Style) (name : Option String) (before after : List MapEntry) :
    Agree
      (part.decode (.mapping tag (before ++ (name, .scalar keyTag style spelling, value) :: after)))
      (part.decode
        (.mapping tag (before ++ (name, .scalar keyTag style spelling, other) :: after))) := by
  -- What a mapping gives depends on its entries alone, so each case looks at one entry by itself.
  cases below with
  | entities =>
    refine manifest_folds.exchange tag before after fun fields => ?_
    rw [manifestFields_entities, manifestFields_entities]
    exact ((agree.under _ _).fill _ _).bind fun _ => Agree.refl _
  | entity name =>
    refine entities_folds.exchange tag before after fun decoded => ?_
    rw [entities_entry, entities_entry]
    exact (agree.under _ _).bind fun _ => Agree.refl _
  | properties =>
    refine entity_folds.exchange tag before after fun fields => ?_
    rw [entityFields_properties, entityFields_properties]
    exact ((agree.under _ _).fill _ _).bind fun _ => Agree.refl _
  | property name =>
    refine properties_folds.exchange tag before after fun decoded => ?_
    rw [properties_entry, properties_entry]
    exact (agree.under _ _).bind fun _ => Agree.refl _
  | grouped name =>
    refine nested_folds.exchange tag before after fun decoded => ?_
    rw [properties_entry, properties_entry]
    exact (agree.under _ _).bind fun _ => Agree.refl _
  | paths known =>
    refine property_folds.exchange tag before after fun fields => ?_
    simp only [propertyFields_entry known, propertyField]
    exact ((texts_agree agree _ _).fill _ _).bind fun _ => Agree.refl _
  | attributes known =>
    refine property_folds.exchange tag before after fun fields => ?_
    simp only [propertyFields_entry known, propertyField]
    exact ((texts_agree agree _ _).fill _ _).bind fun _ => Agree.refl _
  | nested known =>
    refine property_folds.exchange tag before after fun fields => ?_
    simp only [propertyFields_entry known, propertyField]
    exact ((nested_agree agree _ _).fill _ _).bind fun _ => Agree.refl _

theorem Under.each (below : Under part spelling inner) {tag keyTag : Option Tag} {style : Style}
    {name : Option String} {value : Tree} {entries : List MapEntry}
    (member : (name, .scalar keyTag style spelling, value) ∈ entries) {whole : part.Value}
    (decoded : part.decode (.mapping tag entries) = .ok whole) :
    ∃ found, inner.decode value = .ok found := by
  cases below with
  | entities =>
    obtain ⟨fields, next, ran⟩ := manifest_folds.each member decoded
    rw [manifestFields_entities] at ran
    obtain ⟨_, filled⟩ := first_ok ran
    obtain ⟨_, found, placed, _⟩ := fill_ok_iff.mp filled
    exact ⟨found, under_ok_iff.mp placed⟩
  | entity name =>
    obtain ⟨before, next, ran⟩ := entities_folds.each member decoded
    rw [entities_entry] at ran
    obtain ⟨found, placed⟩ := first_ok ran
    exact ⟨found, under_ok_iff.mp placed⟩
  | properties =>
    obtain ⟨fields, next, ran⟩ := entity_folds.each member decoded
    rw [entityFields_properties] at ran
    obtain ⟨_, filled⟩ := first_ok ran
    obtain ⟨_, found, placed, _⟩ := fill_ok_iff.mp filled
    exact ⟨found, under_ok_iff.mp placed⟩
  | property name =>
    obtain ⟨before, next, ran⟩ := properties_folds.each member decoded
    rw [properties_entry] at ran
    obtain ⟨found, placed⟩ := first_ok ran
    exact ⟨found, under_ok_iff.mp placed⟩
  | grouped name =>
    obtain ⟨before, next, ran⟩ := nested_folds.each member decoded
    rw [properties_entry] at ran
    obtain ⟨found, placed⟩ := first_ok ran
    exact ⟨found, under_ok_iff.mp placed⟩
  | paths known | attributes known =>
    obtain ⟨fields, next, ran⟩ := property_folds.each member decoded
    simp only [propertyFields_entry known, propertyField] at ran
    obtain ⟨_, filled⟩ := first_ok ran
    obtain ⟨_, found, placed, _⟩ := fill_ok_iff.mp filled
    exact ⟨found, (Agree.optional value (oneOrMany_agree _ .unnamed) found).mp placed⟩
  | nested known =>
    obtain ⟨fields, next, ran⟩ := property_folds.each member decoded
    simp only [propertyFields_entry known, propertyField] at ran
    obtain ⟨_, filled⟩ := first_ok ran
    obtain ⟨_, found, placed, _⟩ := fill_ok_iff.mp filled
    exact ⟨found, (Agree.optional value (fun _ _ => under_ok_iff) found).mp placed⟩

theorem template_eq (tree : Tree) : template tree = properties.decode tree := by
  change template tree = entries tree >>= (Decode.properties · [])
  cases tree with
  | mapping tag entries =>
    rw [template]
    rfl
  | void =>
    rw [template, entries]
    change _ = Decode.properties [] []
    rw [Decode.properties]
  | scalar tag style text =>
    rw [template]
    split
    · next bare =>
      obtain ⟨rfl, rfl⟩ : style = .plain ∧ text = "" := by simpa using bare
      rw [entries]
      change _ = Decode.properties [] []
      rw [Decode.properties]
    · next bare =>
      rw [entries]
      · rfl
      all_goals simp_all
  | sequence =>
    rw [template]
    · rfl
    all_goals simp
  | fault =>
    rw [template]
    · rfl
    all_goals simp

theorem templates_exchange {item other : Tree}
    (agree : Agree (properties.decode item) (properties.decode other)) (before after : List Tree)
    (index : Nat) :
    Agree (templates index (before ++ item :: after))
      (templates index (before ++ other :: after)) := by
  induction before generalizing index with
  | nil =>
    rw [List.nil_append, List.nil_append, templates, templates, template_eq, template_eq]
    exact (agree.under _ _).bind fun _ => Agree.refl _
  | cons first rest ih =>
    rw [List.cons_append, List.cons_append, templates, templates]
    exact Agree.bind (Agree.refl _) fun _ => (ih _).bind fun _ => Agree.refl _

theorem templates_each {index : Nat} {items : List Tree}
    {whole : List (List (String × PropertyDescriptor))}
    (decoded : templates index items = .ok whole) {item : Tree} (member : item ∈ items) :
    ∃ found, properties.decode item = .ok found := by
  induction items generalizing index whole with
  | nil => exact absurd member List.not_mem_nil
  | cons first rest ih =>
    rw [templates, template_eq] at decoded
    obtain ⟨found, placed, later⟩ := bind_ok_iff.mp decoded
    rcases List.mem_cons.mp member with rfl | further
    · exact ⟨found, under_ok_iff.mp placed⟩
    · obtain ⟨others, continued⟩ := first_ok later
      exact ih continued further

theorem nested_sequence (tag : Option Tag) (items : List Tree) :
    nested.decode (.sequence tag items) =
      if tag.any Tag.isOwn then fail (.unfit "tagged value" nestedKind)
      else (templates 0 items).map fun sets => some (.templates sets) := by
  change optional Decode.nested (.sequence tag items) = _
  simp only [optional, isLeftOut, Decode.nested]
  split
  · rfl
  · cases templates 0 items <;> rfl

end Part

end Regesta.Decode
