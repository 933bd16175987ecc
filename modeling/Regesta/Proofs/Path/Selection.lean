import Regesta.Proofs.Path.Semantics

namespace Regesta

open Xml (Document Place)
open Xml.Document
open Relation (TransGen ReflTransGen)

namespace Axis

theorem ancestors_ordered {document : Document} (origin : Place)
    (member : origin ∈ document.places) :
    origin.ancestors.Pairwise fun a b => b.number < a.number := by
  induction origin with
  | document content => exact .nil
  | inside parent number node ih =>
    have up : parent.Holds (.inside parent number node) := rfl
    have above := (encloses_of_holds member up).1
    rw [Place.ancestors, List.pairwise_cons]
    refine ⟨?_, ih above⟩
    intro place higher
    have chain := (Place.mem_ancestors_iff _ _).mp higher
    exact Place.number_lt_of_encloses (chain_of_holds above chain).2

theorem places_ordered {document : Document} {origin : Place} (member : origin ∈ document.places)
    (axis : Axis) : (axis.places origin).Pairwise axis.Nearer := by
  have below : ∀ place ∈ origin.descendants, origin.number < place.number := by
    intro place inner
    exact Place.number_lt_of_encloses ((Place.mem_descendants_iff _ _).mp inner)
  have above : ∀ place ∈ origin.ancestors, place.number < origin.number := by
    intro place outer
    have chain := (Place.mem_ancestors_iff _ _).mp outer
    exact Place.number_lt_of_encloses (chain_of_holds member chain).2
  cases axis with
  | child => exact origin.children_ordered
  | descendant => exact origin.descendants_ordered
  | descendantOrSelf => exact List.pairwise_cons.mpr ⟨below, origin.descendants_ordered⟩
  | self => exact List.pairwise_singleton _ _
  | parent => cases origin <;> simp [places, Place.parent?]
  | ancestor => exact ancestors_ordered origin member
  | ancestorOrSelf => exact List.pairwise_cons.mpr ⟨above, ancestors_ordered origin member⟩
  | followingSibling =>
    cases origin with
    | document content => exact .nil
    | inside parent number node => exact parent.children_ordered.filter _
  | precedingSibling =>
    cases origin with
    | document content => exact .nil
    | inside parent number node =>
      exact List.pairwise_reverse.mpr (parent.children_ordered.filter _)

theorem forward_ordered {document : Document} {origin : Place} (member : origin ∈ document.places)
    {axis : Axis} (forward : axis.isReverse = false) :
    (axis.places origin).Pairwise fun a b => a.number < b.number := by
  apply (axis.places_ordered member).imp
  intro a b nearer
  simpa [Nearer, forward] using nearer

theorem reverse_ordered {document : Document} {origin : Place} (member : origin ∈ document.places)
    {axis : Axis} (backward : axis.isReverse = true) :
    (axis.places origin).Pairwise fun a b => b.number < a.number := by
  apply (axis.places_ordered member).imp
  intro a b nearer
  simpa [Nearer, backward] using nearer

theorem mem_children_iff {document : Document} {origin : Place} (member : origin ∈ document.places)
    (place : Place) : place ∈ origin.children ↔ place ∈ document.places ∧ origin.Holds place :=
  ⟨fun inner => ⟨mem_of_encloses member inner, Place.Encloses.holds inner⟩,
    fun ⟨placed, holds⟩ => (encloses_iff_holds placed).mpr holds⟩

theorem mem_descendants_iff {document : Document} {origin : Place}
    (member : origin ∈ document.places) (place : Place) :
    place ∈ origin.descendants ↔
      place ∈ document.places ∧ TransGen Place.Holds origin place := by
  rw [Place.mem_descendants_iff]
  constructor
  · intro chain
    exact ⟨mem_of_chain member chain, TransGen.mono (fun _ _ => Place.Encloses.holds) _ _ chain⟩
  · intro ⟨placed, chain⟩
    exact (chain_of_holds placed chain).2

theorem mem_ancestors_iff {document : Document} {origin : Place} (member : origin ∈ document.places)
    (place : Place) :
    place ∈ origin.ancestors ↔ place ∈ document.places ∧ TransGen Place.Holds place origin := by
  rw [Place.mem_ancestors_iff]
  exact ⟨fun chain => ⟨(chain_of_holds member chain).1, chain⟩, And.right⟩

theorem mem_siblings_iff {document : Document} {parent : Place} {number : Nat} {node : Xml.Node}
    (member : Place.inside parent number node ∈ document.places) (place : Place) :
    place ∈ parent.children ↔
      place ∈ document.places ∧
        ∃ shared : Place, shared.Holds (.inside parent number node) ∧ shared.Holds place := by
  have up : parent.Holds (.inside parent number node) := rfl
  have above := (encloses_of_holds member up).1
  rw [mem_children_iff above]
  constructor
  · intro ⟨placed, holds⟩
    exact ⟨placed, parent, rfl, holds⟩
  · intro ⟨placed, shared, same, holds⟩
    cases same
    exact ⟨placed, holds⟩

theorem mem_places_iff {document : Document} {origin : Place} (member : origin ∈ document.places)
    (axis : Axis) (place : Place) :
    place ∈ axis.places origin ↔ place ∈ document.places ∧ axis.Joins origin place := by
  cases axis with
  | child => exact mem_children_iff member place
  | descendant => exact mem_descendants_iff member place
  | descendantOrSelf =>
    rw [places, List.mem_cons, mem_descendants_iff member, Joins,
      Relation.reflTransGen_iff_eq_or_transGen]
    constructor
    · intro found
      rcases found with rfl | ⟨placed, chain⟩
      · exact ⟨member, .inl rfl⟩
      · exact ⟨placed, .inr chain⟩
    · intro found
      rcases found with ⟨placed, same | chain⟩
      · exact .inl same
      · exact .inr ⟨placed, chain⟩
  | self =>
    rw [places, List.mem_singleton, Joins]
    constructor
    · intro same
      subst same
      exact ⟨member, rfl⟩
    · rintro ⟨_, same⟩
      exact same.symm
  | parent =>
    rw [places, Option.mem_toList]
    exact ⟨fun holds => ⟨(encloses_of_holds member holds).1, holds⟩, And.right⟩
  | ancestor => exact mem_ancestors_iff member place
  | ancestorOrSelf =>
    rw [places, List.mem_cons, mem_ancestors_iff member, Joins,
      Relation.reflTransGen_iff_eq_or_transGen]
    constructor
    · intro found
      rcases found with rfl | ⟨placed, chain⟩
      · exact ⟨member, .inl rfl⟩
      · exact ⟨placed, .inr chain⟩
    · intro found
      rcases found with ⟨placed, same | chain⟩
      · exact .inl same.symm
      · exact .inr ⟨placed, chain⟩
  | followingSibling =>
    cases origin with
    | document content => simp [places, Place.following, Joins, Place.Holds, Place.parent?]
    | inside parent number node =>
      rw [places, Place.following, List.mem_filter, mem_siblings_iff member, Joins,
        decide_eq_true_eq, and_assoc]
      rfl
  | precedingSibling =>
    cases origin with
    | document content => simp [places, Place.preceding, Joins, Place.Holds, Place.parent?]
    | inside parent number node =>
      rw [places, Place.preceding, List.mem_reverse, List.mem_filter, mem_siblings_iff member,
        Joins, decide_eq_true_eq, and_assoc]
      rfl

theorem Nearer.asymm {axis : Axis} {a b : Place} (nearer : axis.Nearer a b) :
    ¬ axis.Nearer b a := by
  unfold Nearer at nearer ⊢
  split at nearer <;> simp only [*, if_true, if_false, Bool.false_eq_true] <;> omega

end Axis

theorem NodeTest.accepts_iff (test : NodeTest) (place : Place) :
    test.accepts place = true ↔ test.Passes place := by
  cases test with
  | tag localName =>
    cases h : place.name? with
    | none => simp [accepts, Passes, h]
    | some name =>
      obtain ⟨uri, stem⟩ := name
      simp [accepts, Passes, h]
  | name uri localName => simp [accepts, Passes]
  | element =>
    cases h : place.node? with
    | none => simp [accepts, Passes, Place.isElement, Place.name?, h]
    | some node => cases node <;> simp [accepts, Passes, Place.isElement, Place.name?, h,
        Xml.Node.isElement, Xml.Node.name?]
  | within uri =>
    cases h : place.name? with
    | none => simp [accepts, Passes, h]
    | some name =>
      obtain ⟨namespaceUri, stem⟩ := name
      simp [accepts, Passes, h]
  | node => simp [accepts, Passes]
  | text =>
    cases h : place.node? with
    | none => simp [accepts, Passes, Place.isText, h]
    | some node => cases node <;> simp [accepts, Passes, Place.isText, h, Xml.Node.isText]

theorem Sifts.iff_filter {condition : Place → Prop} {decides : Place → Bool}
    {candidates : List Place}
    (agrees : ∀ place ∈ candidates, decides place = true ↔ condition place)
    (kept : List Place) : Sifts condition candidates kept ↔ kept = candidates.filter decides := by
  induction candidates generalizing kept with
  | nil =>
    constructor
    · intro sifts; cases sifts; rfl
    · intro same
      subst same
      exact .nil
  | cons place rest ih =>
    have first := agrees place List.mem_cons_self
    have others := ih fun place member => agrees place (List.mem_cons_of_mem _ member)
    constructor
    · intro sifts
      cases sifts with
      | keep holds sifts => rw [List.filter_cons_of_pos (first.mpr holds), (others _).mp sifts]
      | drop fails sifts =>
        rw [List.filter_cons_of_neg fun accepted => fails (first.mp accepted), (others _).mp sifts]
    · intro same
      subst same
      by_cases accepted : decides place = true
      · rw [List.filter_cons_of_pos accepted]
        exact .keep (first.mp accepted) ((others _).mpr rfl)
      · rw [List.filter_cons_of_neg accepted]
        exact .drop (fun holds => accepted (first.mpr holds)) ((others _).mpr rfl)

/-- Positions count from one. -/
def Predicate.Counted : Predicate → Prop
  | position n => 1 ≤ n
  | _ => True

theorem Predicate.keep_subset (predicate : Predicate) (candidates : List Place) :
    predicate.keep candidates ⊆ candidates := by
  cases predicate with
  | position n =>
    intro place member
    rw [keep, Option.mem_toList] at member
    exact List.mem_of_getElem? member
  | last =>
    intro place member
    rw [keep, Option.mem_toList] at member
    exact List.mem_of_getLast? member
  | hasAttribute name => exact List.filter_subset_self _
  | attributeIs name value => exact List.filter_subset_self _
  | hasChild test => exact List.filter_subset_self _

theorem Predicate.keepAll_subset (predicates : List Predicate) (candidates : List Place) :
    predicates.foldl (fun candidates predicate => predicate.keep candidates) candidates ⊆
      candidates := by
  induction predicates generalizing candidates with
  | nil => exact List.Subset.refl _
  | cons predicate rest ih => exact List.Subset.trans (ih _) (predicate.keep_subset candidates)

theorem Predicate.keeps_position_iff (document : Document) (index : Nat)
    (candidates kept : List Place) :
    Keeps document (.position (index + 1)) candidates kept ↔ kept = candidates[index]?.toList := by
  constructor
  · intro keeps
    cases keeps with
    | @position before after place _ count =>
      have same : before.length = index := Nat.succ.inj count
      rw [← same, List.getElem?_append_right (Nat.le_refl _), Nat.sub_self]
      rfl
    | beyond short =>
      rw [List.getElem?_eq_none (Nat.le_of_lt_succ short)]
      rfl
  · intro same
    subst same
    by_cases bound : index < candidates.length
    · have parts : candidates.take index ++ candidates[index] :: candidates.drop (index + 1) =
          candidates := by
        rw [← List.drop_eq_getElem_cons bound, List.take_append_drop]
      have count : (candidates.take index).length + 1 = index + 1 := by
        rw [List.length_take_of_le (Nat.le_of_lt bound)]
      have keeps : Keeps document (.position (index + 1))
          (candidates.take index ++ candidates[index] :: candidates.drop (index + 1))
          [candidates[index]] := .position count
      rw [List.getElem?_eq_getElem bound]
      rwa [parts] at keeps
    · rw [List.getElem?_eq_none (Nat.le_of_not_lt bound)]
      exact .beyond (by omega)

theorem Predicate.keeps_last_iff (document : Document) (candidates kept : List Place) :
    Keeps document .last candidates kept ↔ kept = candidates.getLast?.toList := by
  constructor
  · intro keeps
    cases keeps <;> simp
  · intro same
    subst same
    rcases List.eq_nil_or_concat candidates with rfl | ⟨before, place, rfl⟩
    · exact .lastOfNone
    · simpa using Keeps.last

theorem Predicate.keeps_iff {document : Document} {predicate : Predicate}
    (counted : predicate.Counted) {candidates : List Place}
    (placed : ∀ place ∈ candidates, place ∈ document.places) (kept : List Place) :
    predicate.Keeps document candidates kept ↔ kept = predicate.keep candidates := by
  cases predicate with
  | position n =>
    obtain ⟨index, rfl⟩ := Nat.exists_eq_add_of_le' counted
    exact keeps_position_iff document index candidates kept
  | last => exact keeps_last_iff document candidates kept
  | hasAttribute name =>
    rw [keep, ← Sifts.iff_filter fun place _ => Option.isSome_iff_exists]
    exact ⟨fun | .hasAttribute sifts => sifts, .hasAttribute⟩
  | attributeIs name value =>
    rw [keep, ← Sifts.iff_filter fun place _ => beq_iff_eq]
    exact ⟨fun | .attributeIs sifts => sifts, .attributeIs⟩
  | hasChild test =>
    have agrees : ∀ place ∈ candidates, place.children.any test.accepts = true ↔
        ∃ child ∈ document.places, place.Holds child ∧ test.Passes child := by
      intro place member
      rw [List.any_eq_true]
      simp only [Axis.mem_children_iff (placed place member), NodeTest.accepts_iff, and_assoc]
    rw [keep, ← Sifts.iff_filter agrees]
    exact ⟨fun | .hasChild sifts => sifts, .hasChild⟩

theorem Predicate.keepInTurn_iff {document : Document} {predicates : List Predicate}
    (counted : ∀ predicate ∈ predicates, predicate.Counted) {candidates : List Place}
    (placed : ∀ place ∈ candidates, place ∈ document.places) (left : List Place) :
    KeepInTurn document predicates candidates left ↔
      left = predicates.foldl (fun candidates predicate => predicate.keep candidates) candidates := by
  induction predicates generalizing candidates with
  | nil =>
    constructor
    · intro turn; cases turn; rfl
    · intro same
      subst same
      exact .nil
  | cons predicate rest ih =>
    have first := keeps_iff (counted predicate List.mem_cons_self) placed
    have others := ih (fun other member => counted other (List.mem_cons_of_mem _ member))
      fun place member => placed place (predicate.keep_subset candidates member)
    rw [List.foldl_cons, ← others]
    constructor
    · intro turn
      cases turn with
      | cons keeps turn => rwa [(first _).mp keeps] at turn
    · exact .cons ((first _).mpr rfl)

namespace Step

def Counted (step : Step) : Prop := ∀ predicate ∈ step.predicates, predicate.Counted

theorem candidates_iff {document : Document} {origin : Place} (member : origin ∈ document.places)
    (step : Step) (candidates : List Place) :
    step.Candidates document origin candidates ↔
      candidates = (step.axis.places origin).filter step.test.accepts := by
  have ordered : ((step.axis.places origin).filter step.test.accepts).Pairwise step.axis.Nearer :=
    (step.axis.places_ordered member).filter _
  have complete : ∀ place, place ∈ (step.axis.places origin).filter step.test.accepts ↔
      place ∈ document.places ∧ step.axis.Joins origin place ∧ step.test.Passes place := by
    intro place
    rw [List.mem_filter, Axis.mem_places_iff member, NodeTest.accepts_iff, and_assoc]
  constructor
  · intro found
    -- Two ordered lists of the same places are the same list.
    have : Std.Irrefl step.axis.Nearer := ⟨fun place nearer => nearer.asymm nearer⟩
    have : Std.Antisymm step.axis.Nearer := ⟨fun a b ab ba => absurd ba ab.asymm⟩
    exact found.ordered.eq_of_mem_iff ordered fun place =>
      (found.complete place).trans (complete place).symm
  · intro same
    subst same
    exact ⟨ordered, complete⟩

theorem places_subset {document : Document} {origin : Place} (member : origin ∈ document.places)
    (step : Step) : ∀ place ∈ step.places origin, place ∈ document.places := by
  intro place found
  have candidate := List.mem_of_mem_filter (Predicate.keepAll_subset _ _ found)
  exact ((Axis.mem_places_iff member _ _).mp candidate).1

theorem leads_iff {document : Document} {origin : Place} (member : origin ∈ document.places)
    {step : Step} (counted : step.Counted) (place : Place) :
    step.Leads document origin place ↔ place ∈ step.places origin := by
  have placed : ∀ place ∈ (step.axis.places origin).filter step.test.accepts,
      place ∈ document.places := fun place found =>
    ((Axis.mem_places_iff member _ _).mp (List.mem_of_mem_filter found)).1
  have turn := Predicate.keepInTurn_iff counted placed
  constructor
  · intro ⟨candidates, kept, found, turns, inside⟩
    rw [(candidates_iff member step candidates).mp found] at turns
    rwa [(turn kept).mp turns] at inside
  · intro inside
    exact ⟨_, _, (candidates_iff member step _).mpr rfl, (turn _).mpr rfl, inside⟩

end Step

theorem dropRepeats_subset (places : List Place) : dropRepeats places ⊆ places := by
  fun_induction dropRepeats places with
  | case1 => exact List.Subset.refl _
  | case2 place => exact List.Subset.refl _
  | case3 place next rest _ ih =>
    intro other member
    rcases List.mem_cons.mp (ih member) with rfl | member
    · exact List.mem_cons_self
    · exact List.mem_cons_of_mem _ (List.mem_cons_of_mem _ member)
  | case4 place next rest _ ih => exact List.cons_subset_cons _ ih

theorem dropRepeats_ordered (places : List Place)
    (sorted : places.Pairwise fun a b => a.number ≤ b.number) :
    (dropRepeats places).Pairwise fun a b => a.number < b.number := by
  fun_induction dropRepeats places with
  | case1 => exact .nil
  | case2 place => exact List.pairwise_singleton _ _
  | case3 place next rest _ ih =>
    exact ih (sorted.sublist ((List.sublist_cons_self next rest).cons_cons place))
  | case4 place next rest differ ih =>
    obtain ⟨first, others⟩ := List.pairwise_cons.mp sorted
    refine List.pairwise_cons.mpr ⟨?_, ih others⟩
    intro other member
    have low := first next List.mem_cons_self
    have high : next.number ≤ other.number := by
      rcases List.mem_cons.mp (dropRepeats_subset _ member) with rfl | member
      · exact Nat.le_refl _
      · exact (List.pairwise_cons.mp others).1 other member
    omega

theorem mem_dropRepeats {places : List Place}
    (known : ∀ a ∈ places, ∀ b ∈ places, a.number = b.number → a = b) (place : Place) :
    place ∈ dropRepeats places ↔ place ∈ places := by
  refine ⟨fun member => dropRepeats_subset _ member, ?_⟩
  fun_induction dropRepeats places with
  | case1 => exact id
  | case2 other => exact id
  | case3 other next rest same ih =>
    have equal := known other List.mem_cons_self next (by simp) same
    subst equal
    intro member
    refine ih (fun a ha b hb => known a (List.mem_cons_of_mem _ ha) b (List.mem_cons_of_mem _ hb)) ?_
    simpa using member
  | case4 other next rest _ ih =>
    intro member
    rcases List.mem_cons.mp member with rfl | member
    · exact List.mem_cons_self
    · exact List.mem_cons_of_mem _ (ih (fun a ha b hb =>
        known a (List.mem_cons_of_mem _ ha) b (List.mem_cons_of_mem _ hb)) member)

theorem inDocumentOrder_ordered (places : List Place) :
    (inDocumentOrder places).Pairwise fun a b => a.number < b.number := by
  apply dropRepeats_ordered
  have transitive : ∀ a b c : Place, decide (a.number ≤ b.number) = true →
      decide (b.number ≤ c.number) = true → decide (a.number ≤ c.number) = true := by
    intro a b c ab bc
    rw [decide_eq_true_eq] at *
    omega
  have total : ∀ a b : Place,
      (decide (a.number ≤ b.number) || decide (b.number ≤ a.number)) = true := by
    intro a b
    rw [Bool.or_eq_true, decide_eq_true_eq, decide_eq_true_eq]
    omega
  simpa only [decide_eq_true_eq] using List.pairwise_mergeSort transitive total places

theorem mem_inDocumentOrder {document : Document} {places : List Place}
    (placed : ∀ place ∈ places, place ∈ document.places) (place : Place) :
    place ∈ inDocumentOrder places ↔ place ∈ places := by
  rw [inDocumentOrder, mem_dropRepeats, List.mem_mergeSort]
  intro a ha b hb same
  exact document.number_injective (placed a (List.mem_mergeSort.mp ha))
    (placed b (List.mem_mergeSort.mp hb)) same

namespace Step

theorem mem_advance {document : Document} {places : List Place}
    (placed : ∀ place ∈ places, place ∈ document.places) (step : Step) (place : Place) :
    place ∈ step.advance places ↔ place ∈ places.flatMap step.places := by
  have found : ∀ other ∈ places.flatMap step.places, other ∈ document.places := by
    intro other member
    obtain ⟨origin, inside, reached⟩ := List.mem_flatMap.mp member
    exact step.places_subset (placed origin inside) other reached
  exact mem_inDocumentOrder found place

theorem advance_subset {document : Document} {places : List Place}
    (placed : ∀ place ∈ places, place ∈ document.places) (step : Step) :
    ∀ place ∈ step.advance places, place ∈ document.places := by
  intro place member
  obtain ⟨origin, inside, found⟩ := List.mem_flatMap.mp ((step.mem_advance placed place).mp member)
  exact step.places_subset (placed origin inside) place found

theorem image_eq_advance {document : Document} {step : Step} (counted : step.Counted)
    {places : List Place} (placed : ∀ place ∈ places, place ∈ document.places) :
    step.image document {place | place ∈ places} = {place | place ∈ step.advance places} := by
  ext place
  rw [Set.mem_ofPred_eq, step.mem_advance placed, List.mem_flatMap]
  constructor
  · intro ⟨origin, inside, leads⟩
    exact ⟨origin, inside, (leads_iff (placed origin inside) counted place).mp leads⟩
  · intro ⟨origin, inside, found⟩
    exact ⟨origin, inside, (leads_iff (placed origin inside) counted place).mpr found⟩

end Step

theorem followSteps_early (step : Step) (rest : List Step) (places : List Place) :
    followSteps (step :: rest) places =
      if step.advance places = [] then [] else followSteps rest (step.advance places) := by
  rw [followSteps]
  by_cases empty : step.advance places = []
  · simp only [empty, List.isEmpty_nil, if_true]
  · have filled : (step.advance places).isEmpty = false := by simpa using empty
    simp only [filled, empty, if_false, Bool.false_eq_true]

theorem followSteps_nil (steps : List Step) : followSteps steps [] = [] := by
  cases steps with
  | nil => rfl
  | cons step rest =>
    have none : step.advance [] = [] := by simp [Step.advance, inDocumentOrder, dropRepeats]
    rw [followSteps_early, if_pos none]

/-- Looking at no further step where nothing is left changes nothing. -/
@[simp] theorem followSteps_cons (step : Step) (rest : List Step) (places : List Place) :
    followSteps (step :: rest) places = followSteps rest (step.advance places) := by
  rw [followSteps_early]
  split
  next empty => rw [empty, followSteps_nil]
  next => rfl

theorem followSteps_ordered (steps : List Step) (places : List Place)
    (ordered : places.Pairwise fun a b => a.number < b.number) :
    (followSteps steps places).Pairwise fun a b => a.number < b.number := by
  induction steps generalizing places with
  | nil => exact ordered
  | cons step rest ih =>
    rw [followSteps_cons]
    exact ih _ (inDocumentOrder_ordered _)

theorem followSteps_subset {document : Document} (steps : List Step) {places : List Place}
    (placed : ∀ place ∈ places, place ∈ document.places) :
    ∀ place ∈ followSteps steps places, place ∈ document.places := by
  induction steps generalizing places with
  | nil => exact placed
  | cons step rest ih =>
    rw [followSteps_cons]
    exact ih (step.advance_subset placed)

theorem followSteps_meaning {document : Document} {steps : List Step}
    (counted : ∀ step ∈ steps, step.Counted) {places : List Place}
    (placed : ∀ place ∈ places, place ∈ document.places) :
    {place | place ∈ followSteps steps places} =
      Step.imageInTurn document steps {place | place ∈ places} := by
  induction steps generalizing places with
  | nil => rfl
  | cons step rest ih =>
    rw [followSteps_cons, ih (fun other member => counted other (List.mem_cons_of_mem _ member))
        (step.advance_subset placed),
      ← Step.image_eq_advance (counted step List.mem_cons_self) placed]
    rfl

/-- Sorting and dropping repeats after each step do not change what is reached in the end. -/
theorem mem_followSteps {document : Document} (steps : List Step) {places others : List Place}
    (placed : ∀ place ∈ places, place ∈ document.places)
    (same : ∀ place, place ∈ places ↔ place ∈ others) (place : Place) :
    place ∈ followSteps steps places ↔
      place ∈ steps.foldl (fun places step => places.flatMap step.places) others := by
  -- The two lists may differ in order and repeats all the way, only not in what they hold.
  induction steps generalizing places others with
  | nil => exact same place
  | cons step rest ih =>
    rw [followSteps_cons, List.foldl_cons]
    apply ih (step.advance_subset placed)
    intro other
    rw [step.mem_advance placed, List.mem_flatMap, List.mem_flatMap]
    simp only [same]

namespace Path

theorem start_mem {document : Document} {context : Place} (member : context ∈ document.places)
    (absolute : Bool) :
    ∀ place ∈ [if absolute then context.root else context], place ∈ document.places := by
  intro place start
  rw [List.mem_singleton.mp start, Document.root_of_mem member]
  split
  · exact document.root_mem
  · exact member

theorem select_ordered (path : Path) (start : Place) :
    (path.select start).Pairwise fun a b => a.number < b.number := by
  unfold select
  split
  · exact List.pairwise_singleton _ _
  · exact followSteps_ordered _ _ (List.pairwise_singleton _ _)

theorem select_subset (path : Path) (document : Document) :
    ∀ place ∈ path.select document.root, place ∈ document.places := by
  have root : ∀ place ∈ [document.root], place ∈ document.places := by
    intro place member
    rw [List.mem_singleton.mp member]
    exact document.root_mem
  unfold select
  split
  · exact root
  · rw [show document.root.root = document.root from rfl, ite_self]
    exact followSteps_subset _ root

end Path

end Regesta
