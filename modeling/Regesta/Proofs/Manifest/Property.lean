import Regesta.Proofs.Reported
import Regesta.Proofs.Manifest.Rules

namespace Regesta

namespace Rules

variable {rules : Rules} {location : String}

theorem paths_sound {texts : Option (List String)} {paths : List Path}
    (found : rules.paths location texts = .ok paths) :
    (∀ written, texts = some written → written ≠ [] ∧ ∀ text ∈ written, rules.Compiles text) ∧
      (paths = [] ↔ texts = none) := by
  cases texts with
  | none =>
    cases found
    simp
  | some written =>
    cases written with
    | nil => cases found
    | cons first rest =>
      have each := mapM_succeeds_iff.mp ⟨paths, found⟩
      have filled : paths ≠ [] := by
        intro same
        subst same
        have same := (mapM_ok_iff.mp found).length_eq
        cases same
      refine ⟨?_, by simp [filled]⟩
      intro written same
      cases same
      exact ⟨List.cons_ne_nil _ _, each⟩

theorem paths_complete (location : String) {texts : Option (List String)}
    (fits : ∀ written, texts = some written →
      written ≠ [] ∧ ∀ text ∈ written, rules.Compiles text) :
    ∃ paths, rules.paths location texts = .ok paths := by
  cases texts with
  | none => exact ⟨[], rfl⟩
  | some written =>
    obtain ⟨filled, each⟩ := fits written rfl
    cases written with
    | nil => exact absurd rfl filled
    | cons first rest => exact mapM_succeeds_iff.mpr each

theorem attributes_sound {texts : Option (List String)} {names : List Xml.ExpandedName}
    (found : rules.attributes texts = .ok names) :
    (∀ written, texts = some written → ∀ text ∈ written, rules.Names text) ∧
      (names = [] ↔ texts = none ∨ texts = some []) := by
  have each := mapM_succeeds_iff.mp ⟨names, found⟩
  have length := (mapM_ok_iff.mp found).length_eq
  rw [← List.length_eq_zero_iff, ← length, List.length_eq_zero_iff]
  cases texts with
  | none => simp
  | some written =>
    refine ⟨?_, by simp⟩
    intro other same
    cases same
    exact each

theorem attributes_complete {texts : Option (List String)}
    (fits : ∀ written, texts = some written → ∀ text ∈ written, rules.Names text) :
    ∃ names, rules.attributes texts = .ok names := by
  apply mapM_succeeds_iff.mpr
  cases texts with
  | none => exact fun _ member => absurd member List.not_mem_nil
  | some written => exact fits written rfl

theorem filter_sound {text : Option String} {filter : Option FilterRef}
    (found : (rules.filter location text).result = .ok filter) :
    (rules.mode = .strict → ∀ name, text = some name → ∃ known, Filter.ofName? name = some known) ∧
      (filter = none ↔ text = none) ∧
      ∀ known, filter = some (.known known) ↔
        ∃ name, text = some name ∧ Filter.ofName? name = some known := by
  cases text with
  | none =>
    cases found
    simp
  | some name =>
    cases looked : Filter.ofName? name with
    | some known =>
      simp only [Rules.filter, looked] at found
      cases found
      simp [looked]
    | none =>
      cases mode : rules.mode with
      | strict =>
        simp only [Rules.filter, looked, mode] at found
        cases found
      | lenient =>
        simp only [Rules.filter, looked, mode] at found
        cases found
        simp [looked]

theorem filter_complete (location : String) {text : Option String}
    (fits : rules.mode = .strict → ∀ name, text = some name →
      ∃ known, Filter.ofName? name = some known) :
    ∃ filter, (rules.filter location text).result = .ok filter := by
  cases text with
  | none => exact ⟨none, rfl⟩
  | some name =>
    cases looked : Filter.ofName? name with
    | some known => exact ⟨some (.known known), by simp [Rules.filter, looked]⟩
    | none =>
      cases mode : rules.mode with
      | strict =>
        obtain ⟨known, same⟩ := fits mode name rfl
        rw [looked] at same
        cases same
      | lenient => exact ⟨some (.unknown name), by simp [Rules.filter, looked, mode]⟩

theorem leaf_ok_iff {name : String} {paths : List Path} {multiple : Bool}
    {attributes : List Xml.ExpandedName} {filter : Option FilterRef} {property : Property} :
    leaf location name paths multiple attributes filter = .ok property ↔
      paths ≠ [] ∧
        (∀ known, filter = some (.known known) → attributes ≠ [] → known.acceptsText = true) ∧
        property = .leaf name paths multiple attributes filter := by
  have made : (Except.ok (.leaf name paths multiple attributes filter) : Except Error Property) =
      .ok property ↔ property = .leaf name paths multiple attributes filter := by
    rw [Except.ok.injEq, eq_comm]
  unfold leaf
  by_cases empty : paths = []
  · simp [empty]
  rw [if_neg (by simpa using empty)]
  rcases filter with _ | known | name
  · simp [empty, made]
  · simp only
    by_cases refused : attributes ≠ [] ∧ known.acceptsText = false
    · rw [if_pos (by simpa using refused)]
      simp [empty, refused]
    · rw [if_neg (by simpa using refused), made]
      have textual : attributes ≠ [] → known.acceptsText = true := by simpa using refused
      simpa [empty] using fun _ => textual
  · simp [empty, made]

theorem unmixed_ok_iff {attributes : List Xml.ExpandedName} {filter : Option FilterRef}
    {property result : Property} :
    unmixed location attributes filter property = .ok result ↔
      attributes = [] ∧ filter = none ∧ result = property := by
  have made : (Except.ok property : Except Error Property) = .ok result ↔ result = property := by
    rw [Except.ok.injEq, eq_comm]
  unfold unmixed
  cases attributes <;> cases filter <;> simp [made]

theorem checkDepth_ok_iff {depth : Nat} :
    checkDepth location depth = .ok () ↔ depth ≤ maximalDepth := by
  unfold checkDepth
  split
  · next deep => simpa using deep
  · next fits => simpa using fits

/-- What a property is made into, once its paths, attributes and filter are read. -/
inductive Finishes (rules : Rules) (location name : String) (depth : Nat) (paths : List Path)
    (multiple : Bool) (attributes : List Xml.ExpandedName) (filter : Option FilterRef) :
    Option (Nested (String × PropertyDescriptor)) → Property → Prop
  | leaf : paths ≠ [] →
    (∀ known, filter = some (.known known) → attributes ≠ [] → known.acceptsText = true) →
    Finishes rules location name depth paths multiple attributes filter none
      (.leaf name paths multiple attributes filter)
  | group {set : DescriptorSet} {properties : List Property} :
    attributes = [] → filter = none → depth + 1 ≤ maximalDepth →
    (rules.propertySet location (depth + 1) set).result = .ok properties →
    Finishes rules location name depth paths multiple attributes filter (some (.group set))
      (.group name paths multiple properties)
  | templates {sets : List DescriptorSet} {results : List (List Property)} :
    attributes = [] → filter = none → multiple = true → paths = [] →
    (rules.templateSets location (depth + 1) 0 sets).result = .ok results →
    Finishes rules location name depth paths multiple attributes filter (some (.templates sets))
      (.templates name results)

section

variable {name : String} {depth : Nat} {multiple : Bool} {paths : List Path}
  {attributes : List Xml.ExpandedName} {filter : Option FilterRef}
  {nested : Option (Nested (String × PropertyDescriptor))} {property : Property}

def finish (rules : Rules) (location name : String) (depth : Nat) (paths : List Path)
    (multiple : Bool) (attributes : List Xml.ExpandedName) (filter : Option FilterRef) :
    Option (Nested (String × PropertyDescriptor)) → Reported Property
  | none => Reported.ofExcept (leaf location name paths multiple attributes filter)
  | some (.group set) => do
    Reported.ofExcept (checkDepth location (depth + 1))
    let properties ← rules.propertySet location (depth + 1) set
    Reported.ofExcept (unmixed location attributes filter (.group name paths multiple properties))
  | some (.templates sets) => do
    if !multiple || !paths.isEmpty then Reported.fail (.invalidManifest location .templates)
    else
      let results ← rules.templateSets location (depth + 1) 0 sets
      Reported.ofExcept (unmixed location attributes filter (.templates name results))

theorem property_eq (pathTexts attributeTexts : Option (List String)) (multiple : Bool)
    (filterText : Option String) (nested : Option (Nested (String × PropertyDescriptor))) :
    rules.property location name depth (.mk pathTexts multiple attributeTexts filterText nested) =
      Reported.ofExcept (rules.paths location pathTexts) >>= fun paths =>
        Reported.ofExcept (rules.attributes attributeTexts) >>= fun attributes =>
          rules.filter location filterText >>= fun filter =>
            rules.finish location name depth paths multiple attributes filter nested := by
  rw [Rules.property]
  rcases nested with _ | ⟨set | sets⟩ <;> rfl

theorem finish_ok_iff :
    (rules.finish location name depth paths multiple attributes filter nested).result =
        .ok property ↔
      rules.Finishes location name depth paths multiple attributes filter nested property := by
  rcases nested with _ | ⟨set | sets⟩
  case none =>
    rw [finish, Reported.ofExcept_result, leaf_ok_iff]
    constructor
    · rintro ⟨filled, textual, rfl⟩
      exact .leaf filled textual
    · intro finishes
      cases finishes with
      | leaf filled textual => exact ⟨filled, textual, rfl⟩
  case some.group =>
    simp only [finish, Reported.bind_result, Reported.ofExcept_result, bind_ok_iff, unmixed_ok_iff]
    constructor
    · rintro ⟨_, deep, properties, inside, plain, unfiltered, rfl⟩
      exact .group plain unfiltered (checkDepth_ok_iff.mp deep) inside
    · intro finishes
      cases finishes with
      | group plain unfiltered deep inside =>
        exact ⟨(), checkDepth_ok_iff.mpr deep, _, inside, plain, unfiltered, rfl⟩
  case some.templates =>
    have fits : (!multiple || !paths.isEmpty) = false ↔ multiple = true ∧ paths = [] := by simp
    rw [finish]
    constructor
    · intro finished
      split at finished
      · cases finished
      · next fitting =>
        obtain ⟨several, pathless⟩ := fits.mp (Bool.eq_false_iff.mpr fitting)
        obtain ⟨results, inside, finished⟩ := Reported.bind_ok_iff.mp finished
        obtain ⟨plain, unfiltered, same⟩ := unmixed_ok_iff.mp finished
        subst same
        exact .templates plain unfiltered several pathless inside
    · intro finishes
      cases finishes with
      | templates plain unfiltered several pathless inside =>
        rw [fits.mpr ⟨several, pathless⟩]
        exact Reported.bind_ok_iff.mpr
          ⟨_, inside, unmixed_ok_iff.mpr ⟨plain, unfiltered, rfl⟩⟩

theorem property_ok_iff {pathTexts attributeTexts : Option (List String)}
    {filterText : Option String} :
    (rules.property location name depth
        (.mk pathTexts multiple attributeTexts filterText nested)).result = .ok property ↔
      ∃ paths attributes filter, rules.paths location pathTexts = .ok paths ∧
        rules.attributes attributeTexts = .ok attributes ∧
        (rules.filter location filterText).result = .ok filter ∧
        rules.Finishes location name depth paths multiple attributes filter nested property := by
  simp only [property_eq, Reported.bind_result, Reported.ofExcept_result, bind_ok_iff,
    finish_ok_iff]
  constructor
  · rintro ⟨paths, pathsRead, attributes, attributesRead, filter, filterRead, finishes⟩
    exact ⟨paths, attributes, filter, pathsRead, attributesRead, filterRead, finishes⟩
  · rintro ⟨paths, attributes, filter, pathsRead, attributesRead, filterRead, finishes⟩
    exact ⟨paths, pathsRead, attributes, attributesRead, filter, filterRead, finishes⟩

end

def NestedSucceeds (rules : Rules) (location : String) (depth : Nat) :
    Option (Nested (String × PropertyDescriptor)) → Prop
  | none => True
  | some (.group set) =>
    depth + 1 ≤ maximalDepth ∧
      ∃ properties, (rules.propertySet location (depth + 1) set).result = .ok properties
  | some (.templates sets) =>
    ∃ results, (rules.templateSets location (depth + 1) 0 sets).result = .ok results

theorem property_sound {descriptor : PropertyDescriptor} {name : String} {depth : Nat}
    {property : Property}
    (found : (rules.property location name depth descriptor).result = .ok property) :
    rules.Allows descriptor ∧ NestedSucceeds rules location depth descriptor.nested := by
  obtain ⟨pathTexts, multiple, attributeTexts, filterText, nested⟩ := descriptor
  obtain ⟨paths, attributes, filter, pathsFound, attributesFound, filterFound, finishes⟩ :=
    property_ok_iff.mp found
  obtain ⟨compiled, noPaths⟩ := paths_sound pathsFound
  obtain ⟨named, noAttributes⟩ := attributes_sound attributesFound
  obtain ⟨strict, noFilter, knownFilter⟩ := filter_sound filterFound
  -- A set and templates differ in one rule only; the others hold for the same reasons.
  have allows : ∀ inner, attributes = [] → filter = none →
      (∀ sets, some inner = some (.templates sets) → multiple = true ∧ pathTexts = none) →
      rules.Allows (.mk pathTexts multiple attributeTexts filterText (some inner)) := by
    intro inner plain unfiltered templates
    have unwritten : filterText = none := noFilter.mp unfiltered
    refine ⟨compiled, named, strict, ?_, ?_, templates, ?_⟩
    · exact fun none => by cases none
    · exact fun _ => ⟨noAttributes.mp plain, unwritten⟩
    · intro text known written given
      exact absurd (unwritten.symm.trans given) (by simp)
  cases finishes with
  | leaf sourced textual =>
    refine ⟨⟨compiled, named, strict, ?_, ?_, ?_, ?_⟩, trivial⟩
    · exact fun _ => mt noPaths.mpr sourced
    · exact fun nested => absurd rfl nested
    · exact fun _ nested => by cases nested
    · intro text known written given looked listed filled
      apply textual known ((knownFilter known).mpr ⟨text, given, looked⟩)
      intro empty
      rcases noAttributes.mp empty with none | nil
      · exact absurd (none.symm.trans listed) (by simp)
      · exact filled (Option.some.inj (listed.symm.trans nil))
  | group plain unfiltered deep inside =>
    exact ⟨allows _ plain unfiltered (fun _ same => by cases same), deep, _, inside⟩
  | templates plain unfiltered several pathless inside =>
    exact ⟨allows _ plain unfiltered fun _ _ => ⟨several, noPaths.mp pathless⟩, _, inside⟩

theorem property_complete {descriptor : PropertyDescriptor} {name : String} {depth : Nat}
    (allows : rules.Allows descriptor)
    (inside : NestedSucceeds rules location depth descriptor.nested) :
    ∃ property, (rules.property location name depth descriptor).result = .ok property := by
  obtain ⟨pathTexts, multiple, attributeTexts, filterText, nested⟩ := descriptor
  obtain ⟨paths, pathsFound⟩ := paths_complete location allows.paths
  obtain ⟨attributes, attributesFound⟩ := attributes_complete allows.attributes
  obtain ⟨filter, filterFound⟩ := filter_complete location allows.filter
  obtain ⟨_, noPaths⟩ := paths_sound pathsFound
  obtain ⟨_, noAttributes⟩ := attributes_sound attributesFound
  obtain ⟨_, noFilter, knownFilter⟩ := filter_sound filterFound
  have finished : ∀ property,
      rules.Finishes location name depth paths multiple attributes filter nested property →
      ∃ property, (rules.property location name depth
        (.mk pathTexts multiple attributeTexts filterText nested)).result = .ok property :=
    fun property finishes => ⟨property, property_ok_iff.mpr
      ⟨paths, attributes, filter, pathsFound, attributesFound, filterFound, finishes⟩⟩
  cases nested with
  | none =>
    refine finished _ (.leaf (fun empty => allows.source rfl (noPaths.mp empty)) ?_)
    intro known same filled
    obtain ⟨text, given, looked⟩ := (knownFilter known).mp same
    cases attributeTexts with
    | none => exact absurd (noAttributes.mpr (.inl rfl)) filled
    | some written =>
      apply allows.textual text known written given looked rfl
      intro same
      subst same
      exact filled (noAttributes.mpr (.inr rfl))
  | some inner =>
    obtain ⟨unnamed, unwritten⟩ := allows.unmixed (by simp [PropertyDescriptor.nested])
    have plain : attributes = [] := noAttributes.mpr unnamed
    have unfiltered : filter = none := noFilter.mpr unwritten
    cases inner with
    | group set =>
      obtain ⟨deep, properties, nestedFound⟩ := inside
      exact finished _ (.group plain unfiltered deep nestedFound)
    | templates sets =>
      obtain ⟨many, unpathed⟩ := allows.templates sets rfl
      obtain ⟨results, nestedFound⟩ := inside
      exact finished _ (.templates plain unfiltered many (noPaths.mpr unpathed) nestedFound)

theorem property_succeeds_iff {descriptor : PropertyDescriptor} {name : String} {depth : Nat} :
    (∃ property, (rules.property location name depth descriptor).result = .ok property) ↔
      rules.Allows descriptor ∧ NestedSucceeds rules location depth descriptor.nested :=
  ⟨fun ⟨_, found⟩ => property_sound found, fun both => property_complete both.1 both.2⟩

end Rules

end Regesta
