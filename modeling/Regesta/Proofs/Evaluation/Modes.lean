import Regesta.Proofs.Evaluation.Visits
import Regesta.Proofs.Path.Selection
import Regesta.Proofs.Reported
import Regesta.Record

namespace Regesta

open Xml (Document Place)

def firstUnmatched (visits : List (Property × Place)) : Option (Property × Place) :=
  visits.find? fun visit => visit.1.isUnmatched visit.2

def noMatchOf (property : Property) : Error := .noMatch (joinPaths property.paths) property.name

/-- What strict work does beside lenient work with the same visits. -/
structure Follows {α : Type} (visits : List (Property × Place)) (strict lenient : Reported α) :
    Prop where
  total : ∃ value, lenient.result = .ok value
  matched : firstUnmatched visits = none → strict = lenient
  unmatched : ∀ property place, firstUnmatched visits = some (property, place) →
    strict.result = .error (noMatchOf property)

namespace Follows

variable {α β : Type}

theorem same {work : Reported α} (total : ∃ value, work.result = .ok value) :
    Follows [] work work := by
  refine ⟨total, fun _ => rfl, ?_⟩
  intro property place found
  cases found

theorem pure (value : α) : Follows [] (Pure.pure value : Reported α) (Pure.pure value) :=
  same ⟨value, rfl⟩

theorem bind {before after : List (Property × Place)} {strict lenient : Reported α}
    {strictNext lenientNext : α → Reported β} (first : Follows before strict lenient)
    (next : ∀ value, Follows after (strictNext value) (lenientNext value)) :
    Follows (before ++ after) (strict >>= strictNext) (lenient >>= lenientNext) := by
  obtain ⟨value, done⟩ := first.total
  have later := next value
  have lenientEnd : (lenient >>= lenientNext).result = (lenientNext value).result := by
    change (Reported.bind lenient lenientNext).result = _
    simp only [Reported.bind, done]
  constructor
  · rw [lenientEnd]
    exact later.total
  · intro none
    rw [firstUnmatched, List.find?_append, Option.or_eq_none_iff] at none
    rw [first.matched none.1]
    change Reported.bind lenient strictNext = Reported.bind lenient lenientNext
    simp only [Reported.bind, done, later.matched none.2]
  · -- Either the first part breaks off, or it is lenient work and the second part does.
    intro property place found
    rw [firstUnmatched, List.find?_append] at found
    change (Reported.bind strict strictNext).result = _
    cases early : firstUnmatched before with
    | some visit =>
      rw [firstUnmatched] at early
      rw [early, Option.some_or, Option.some.injEq] at found
      subst found
      have stopped := first.unmatched property place early
      simp only [Reported.bind, stopped]
    | none =>
      rw [first.matched early]
      rw [firstUnmatched] at early
      rw [early, Option.none_or] at found
      simp only [Reported.bind, done, later.unmatched property place found]

theorem map {visits : List (Property × Place)} {strict lenient : Reported α}
    (first : Follows visits strict lenient) (change : α → β) :
    Follows visits (strict >>= fun value => Pure.pure (change value))
      (lenient >>= fun value => Pure.pure (change value)) := by
  have whole := first.bind fun value => pure (change value)
  rwa [List.append_nil] at whole

theorem forEach {items : List Place} {visits : Place → List (Property × Place)}
    {strict lenient : Place → Reported β}
    (each : ∀ item, Follows (visits item) (strict item) (lenient item)) :
    Follows (items.flatMap visits) (Reported.forEach items strict)
      (Reported.forEach items lenient) := by
  induction items with
  | nil => exact pure []
  | cons item rest ih =>
    rw [List.flatMap_cons]
    exact (each item).bind fun value => ih.map fun others => value :: others

theorem matchedVisit {visits : List (Property × Place)} {property : Property} {place : Place}
    {strict lenient : Reported α} (matched : property.isUnmatched place = false)
    (later : Follows visits strict lenient) :
    Follows ((property, place) :: visits) strict lenient := by
  have skipped : firstUnmatched ((property, place) :: visits) = firstUnmatched visits := by
    rw [firstUnmatched, List.find?_cons_of_neg (by simp [matched])]
    rfl
  constructor
  · exact later.total
  · rw [skipped]
    exact later.matched
  · rw [skipped]
    exact later.unmatched

theorem unmatchedVisit {property : Property} {place : Place}
    (missed : property.isUnmatched place = true) (later : List (Property × Place)) (value : α) :
    Follows ((property, place) :: later) (Reported.fail (noMatchOf property))
      (Pure.pure value) := by
  have first : firstUnmatched ((property, place) :: later) = some (property, place) :=
    List.find?_cons_of_pos missed
  constructor
  · exact ⟨value, rfl⟩
  · intro clear
    cases first.symm.trans clear
  · intro other next same
    cases first.symm.trans same
    rfl

theorem ok_iff {visits : List (Property × Place)} {strict lenient : Reported α}
    (follows : Follows visits strict lenient) :
    (∃ value, strict.result = .ok value) ↔ firstUnmatched visits = none := by
  constructor
  · intro ⟨value, done⟩
    cases found : firstUnmatched visits with
    | none => rfl
    | some visit =>
      have stopped := follows.unmatched visit.1 visit.2 found
      rw [done] at stopped
      cases stopped
  · intro clear
    rw [follows.matched clear]
    exact follows.total

theorem isOk_eq {visits : List (Property × Place)} {strict lenient : Reported α}
    (follows : Follows visits strict lenient) :
    strict.result.isOk = (firstUnmatched visits).isNone := by
  rw [Bool.eq_iff_iff, Option.isNone_iff_eq_none, ← follows.ok_iff]
  cases strict.result <;> simp [Except.isOk, Except.toBool]

end Follows

theorem extract_total (property : String) (attributes : List Xml.ExpandedName)
    (filter : Option FilterRef) (place : Place) :
    ∃ text, (extract property attributes filter place).result = .ok text := by
  have derived : ∀ (derive : Filter → Option String) (known : FilterRef),
      ∃ text, (filtered property derive known).result = .ok text := by
    intro derive known
    cases known with
    | known filter => exact ⟨derive filter, rfl⟩
    | unknown name => exact ⟨none, rfl⟩
  unfold extract
  split
  · split
    · exact derived _ _
    · exact ⟨_, rfl⟩
  · split
    · exact ⟨none, rfl⟩
    · split
      · exact derived _ _
      · exact ⟨_, rfl⟩

theorem texts_total (property : String) (attributes : List Xml.ExpandedName)
    (filter : Option FilterRef) (places : List Place) :
    ∃ texts, (Reported.forEach places (extract property attributes filter)).result = .ok texts := by
  have each : ∀ place, Follows [] (extract property attributes filter place)
      (extract property attributes filter place) :=
    fun place => .same (extract_total property attributes filter place)
  exact (Follows.forEach each).total

theorem leaf_follows (context : Place) (name : String) (paths : List Path) (multiple : Bool)
    (attributes : List Xml.ExpandedName) (filter : Option FilterRef) :
    Follows [] (Property.evaluate .strict context (.leaf name paths multiple attributes filter))
      (Property.evaluate .lenient context (.leaf name paths multiple attributes filter)) := by
  rw [Property.evaluate, Property.evaluate]
  cases multiple with
  | true => exact (Follows.same (texts_total name attributes filter _)).map _
  | false =>
    simp only [Bool.false_eq_true, if_false]
    split
    · exact .pure _
    · exact (Follows.same (extract_total name attributes filter _)).map _

theorem group_follows {name : String} {paths : List Path} {multiple : Bool}
    {properties : List Property} (context : Place)
    (inside : ∀ place, Follows (setVisits place properties) (evaluateSet .strict place properties)
      (evaluateSet .lenient place properties)) :
    Follows (Property.visits context (.group name paths multiple properties))
      (Property.evaluate .strict context (.group name paths multiple properties))
      (Property.evaluate .lenient context (.group name paths multiple properties)) := by
  rw [Property.visits, Property.evaluate, Property.evaluate]
  by_cases empty : paths = []
  · subst empty
    apply Follows.matchedVisit (by cases multiple <;> rfl)
    rw [groupPlaces, if_pos List.isEmpty_nil, List.flatMap_singleton]
    exact (inside context).map _
  have filled : paths.isEmpty = false := List.isEmpty_eq_false_iff.mpr empty
  simp only [groupPlaces, filled, Bool.false_eq_true, if_false]
  cases multiple with
  | true => exact .matchedVisit rfl ((Follows.forEach inside).map _)
  | false =>
    simp only [Bool.false_eq_true, if_false]
    cases found : (selectAll paths context).head? with
    | none =>
      have none : selectAll paths context = [] := List.head?_eq_none_iff.mp found
      exact Follows.unmatchedVisit (by simp [Property.isUnmatched, filled, none]) _ Value.null
    | some place =>
      have selected : selectAll paths context ≠ [] := by
        intro nothing
        rw [nothing] at found
        cases found
      apply Follows.matchedVisit (by simp [Property.isUnmatched, selected])
      rw [Option.toList_some, List.flatMap_singleton]
      exact (inside place).map _

mutual
theorem property_follows (context : Place) (property : Property) :
    Follows (property.visits context) (property.evaluate .strict context)
      (property.evaluate .lenient context) := by
  match property with
  | .leaf name paths multiple attributes filter =>
    rw [Property.visits]
    exact .matchedVisit rfl (leaf_follows context name paths multiple attributes filter)
  | .group name paths multiple properties =>
    exact group_follows context fun place => set_follows place properties
  | .templates name sets =>
    rw [Property.visits, Property.evaluate, Property.evaluate]
    exact .matchedVisit rfl ((templates_follow context sets).map _)

theorem set_follows (context : Place) (properties : List Property) :
    Follows (setVisits context properties) (evaluateSet .strict context properties)
      (evaluateSet .lenient context properties) := by
  match properties with
  | [] =>
    rw [setVisits, evaluateSet, evaluateSet]
    exact .pure []
  | property :: rest =>
    rw [setVisits, evaluateSet, evaluateSet]
    apply (property_follows context property).bind
    intro value
    exact (set_follows context rest).map _

theorem templates_follow (context : Place) (sets : List (List Property)) :
    Follows (templateVisits context sets) (evaluateSets .strict context sets)
      (evaluateSets .lenient context sets) := by
  match sets with
  | [] =>
    rw [templateVisits, evaluateSets, evaluateSets]
    exact .pure []
  | set :: rest =>
    rw [templateVisits, evaluateSets, evaluateSets]
    apply (set_follows context set).bind
    intro members
    exact (templates_follow context rest).map _
end

theorem firstUnmatched_eq_none_iff (context : Place) (properties : List Property) :
    firstUnmatched (setVisits context properties) = none ↔
      ∀ property place, Reaches context properties property place → ¬ property.Unmatched place := by
  rw [firstUnmatched, List.find?_eq_none]
  simp only [isUnmatched_iff, setVisits_iff, Prod.forall]

namespace Entity

theorem record_follows (entity : Entity) (place : Place) :
    Follows (setVisits place entity.properties) (entity.record .strict place)
      (entity.record .lenient place) := by
  have named : ∀ work : Reported String, (∃ id, work.result = .ok id) →
      Follows ([] ++ setVisits place entity.properties)
        (work >>= fun id => evaluateSet .strict place entity.properties >>= fun properties =>
          pure ⟨id, entity.name, none, properties⟩)
        (work >>= fun id => evaluateSet .lenient place entity.properties >>= fun properties =>
          pure (⟨id, entity.name, none, properties⟩ : Record)) := by
    intro work total
    exact (Follows.same total).bind fun id => (set_follows place entity.properties).map _
  unfold record
  split
  · exact named _ ⟨_, rfl⟩
  · exact (Follows.same ⟨(), rfl⟩).bind fun _ => named (pure "") ⟨"", rfl⟩

theorem record_ok_iff {entity : Entity} {mode : Mode} {place : Place} {record : Record} :
    (entity.record mode place).result = .ok record ↔
      ∃ members, (evaluateSet mode place entity.properties).result = .ok members ∧
        ⟨(entity.id? place).getD "", entity.name, none, members⟩ = record := by
  rw [Entity.record]
  cases entity.id? place with
  | some id => simp
  | none => simp

theorem records_eq (entity : Entity) (mode : Mode) (document : Document) :
    (entity.records mode document).2 =
      (entity.places document).filterMap fun place =>
        (entity.record mode place).result.toOption := by
  have kept : ∀ place, (entity.recordOrSkip mode place).2 =
      (entity.record mode place).result.toOption := by
    intro place
    simp only [recordOrSkip]
    cases (entity.record mode place).result <;> rfl
  rw [records, List.filterMap_map]
  simp only [Function.comp_def, kept]

theorem records_filter {entity : Entity} {recordOf : Place → Record}
    (found : ∀ place, (entity.record .lenient place).result = .ok (recordOf place))
    (document : Document) :
    (entity.records .strict document).2 =
      ((entity.places document).filter fun place =>
        (evaluateSet .strict place entity.properties).result.isOk).map recordOf := by
  have each : ∀ place, (entity.record .strict place).result.toOption =
      (Option.guard (fun place => (evaluateSet .strict place entity.properties).result.isOk)
        place).map recordOf := by
    intro place
    have follows := entity.record_follows place
    have same := (set_follows place entity.properties).isOk_eq
    cases first : firstUnmatched (setVisits place entity.properties) with
    | none =>
      rw [first] at same
      rw [follows.matched first, found place, Option.guard, same]
      rfl
    | some visit =>
      rw [first] at same
      rw [follows.unmatched visit.1 visit.2 first, Option.guard, same]
      rfl
  rw [records_eq, ← List.filterMap_eq_filter, List.map_filterMap]
  simp only [each]

end Entity

/-- Lenient evaluation always succeeds. Strict evaluation succeeds just when no single group with
paths that is reached selects nothing, and then does all that lenient evaluation does; otherwise it
names the first such group. So strict records are the lenient ones without those that fail. -/
theorem strict_beside_lenient (context : Place) (properties : List Property) (entity : Entity)
    (document : Document) :
    (∃ members, (evaluateSet .lenient context properties).result = .ok members) ∧
    ((∃ members, (evaluateSet .strict context properties).result = .ok members) ↔
      ∀ property place, Reaches context properties property place → ¬ property.Unmatched place) ∧
    (match firstUnmatched (setVisits context properties) with
      | none => evaluateSet .strict context properties = evaluateSet .lenient context properties
      | some (property, _) =>
        (evaluateSet .strict context properties).result =
          .error (.noMatch (joinPaths property.paths) property.name)) ∧
    ∃ recordOf : Place → Record,
      (∀ place, (entity.record .lenient place).result = .ok (recordOf place)) ∧
      (entity.places document).Pairwise (fun a b => a.number < b.number) ∧
      (entity.records .lenient document).2 = (entity.places document).map recordOf ∧
      (entity.records .strict document).2 =
        ((entity.places document).filter fun place =>
          (evaluateSet .strict place entity.properties).result.isOk).map recordOf := by
  have follows := set_follows context properties
  refine ⟨follows.total, ?_, ?_, ?_⟩
  · rw [follows.ok_iff, firstUnmatched_eq_none_iff]
  · split
    · next clear => exact follows.matched clear
    · next property place first => exact follows.unmatched property place first
  · have total : ∀ place, ∃ record, (entity.record .lenient place).result = .ok record :=
      fun place => (entity.record_follows place).total
    choose recordOf found using total
    refine ⟨recordOf, found, entity.root.select_ordered document.root, ?_,
      entity.records_filter found document⟩
    rw [entity.records_eq]
    simp only [found, Except.toOption]
    rw [List.filterMap_eq_map']

end Regesta
