import Regesta.Path.Reader
import Regesta.Proofs.Except

namespace Regesta

variable {α β : Type}

/-- Where this fails, the manifest is at fault. -/
def Configures (outcome : Except Error α) : Prop :=
  ∀ error, outcome = .error error → error.isConfiguration = true

namespace Configures

theorem ok (value : α) : Configures (.ok value) := by
  intro error failed
  cases failed

theorem error {error : Error} (known : error.isConfiguration = true) :
    Configures (.error error : Except Error α) := by
  intro other failed
  cases failed
  exact known

theorem bind {first : Except Error α} {next : α → Except Error β} (start : Configures first)
    (later : ∀ value, Configures (next value)) : Configures (first >>= next) := by
  intro final failed
  cases first with
  | error early =>
    cases failed
    exact start final rfl
  | ok value => exact later value final failed

theorem map {first : Except Error α} (start : Configures first) (change : α → β) :
    Configures (first.map change) := by
  intro final failed
  cases first with
  | error early =>
    cases failed
    exact start final rfl
  | ok value => cases failed

theorem mapM {items : List α} {action : α → Except Error β}
    (each : ∀ item, Configures (action item)) : Configures (items.mapM action) := by
  induction items with
  | nil => exact ok []
  | cons item rest ih =>
    rw [List.mapM_cons]
    exact bind (each item) fun value => bind ih fun values => ok (value :: values)

end Configures

namespace Namespaces

variable (namespaces : Namespaces)

theorem resolve_configures (label : String) : Configures (namespaces.resolve label) := by
  unfold resolve
  split
  · exact .ok _
  · split
    · exact .ok _
    · exact .error rfl

theorem checkedName_configures (uri : Option String) (stem whole : List Char) :
    Configures (checkedName uri stem whole) := by
  unfold checkedName
  split
  · exact .error rfl
  · exact .ok _

theorem name_configures (text : String) : Configures (namespaces.name text) := by
  unfold name trimmedName
  split
  · split
    · exact .error rfl
    · exact checkedName_configures _ _ _
  · split
    · exact checkedName_configures _ _ _
    · exact .bind (namespaces.resolve_configures _) fun _ => checkedName_configures _ _ _

end Namespaces

namespace Path

variable (namespaces : Namespaces) (path : String)

theorem refuse_configures (flaw : PathFlaw) : Configures (refuse path flaw : Except Error α) :=
  .error rfl

theorem nodeTest_configures (test : List Char) : Configures (nodeTest namespaces path test) := by
  have label : ∀ part, Configures (labelUri namespaces path part) := by
    intro part
    unfold labelUri
    split
    · exact namespaces.resolve_configures _
    · exact refuse_configures _ _
  unfold nodeTest
  split
  · exact .ok _
  split
  · exact .ok _
  split
  · exact .ok _
  split
  · apply Configures.bind (label _)
    intro uri
    split
    · exact .ok _
    · split
      · exact .ok _
      · exact refuse_configures _ _
  · split
    · exact .ok _
    · exact refuse_configures _ _

theorem positionTest_configures (digits : List Char) : Configures (positionTest path digits) := by
  unfold positionTest
  split
  · exact refuse_configures _ _
  · split
    · exact refuse_configures _ _
    · split
      · exact refuse_configures _ _
      · exact .ok _

theorem predicate_configures (body : List Char) : Configures (predicate namespaces path body) := by
  unfold predicate
  simp only
  split
  · exact refuse_configures _ _
  split
  · exact positionTest_configures _ _
  split
  · exact .ok _
  split
  · split
    · exact refuse_configures _ _
    · apply Configures.bind (namespaces.name_configures _)
      intro name
      split <;> exact .ok _
  · split
    · exact .ok _
    · exact refuse_configures _ _

theorem predicates_configures (text : List Char) :
    Configures (predicates namespaces path text) := by
  unfold predicates
  apply Configures.bind (.mapM (predicate_configures namespaces path))
  intro values
  split
  · exact refuse_configures _ _
  · exact .ok _

theorem step_configures (segment : List Char) : Configures (step namespaces path segment) := by
  have axis : ∀ part, Configures (axisAndTest path part) := by
    intro part
    unfold axisAndTest
    split
    · exact .ok _
    · split
      · exact .ok _
      · exact refuse_configures _ _
  unfold step
  split
  · exact .ok _
  split
  · exact .ok _
  split
  · exact refuse_configures _ _
  · apply Configures.bind (axis _)
    intro found
    apply Configures.bind (nodeTest_configures namespaces path _)
    intro test
    exact .bind (predicates_configures namespaces path _) fun _ => .ok _

theorem steps_configures (parts : List (List Char)) :
    Configures (steps namespaces path parts) := by
  fun_induction steps namespaces path parts with
  | case1 => exact .ok _
  | case2 => exact refuse_configures _ _
  | case3 => exact (step_configures _ _ _).map _
  | case4 _ _ _ _ _ ih => exact .bind (.ok _) fun _ => .bind ih fun _ => .ok _
  | case5 _ _ _ _ _ ih => exact .bind (step_configures _ _ _) fun _ => .bind ih fun _ => .ok _

theorem read_configures (text : String) : Configures (read namespaces text) := by
  apply Configures.map
  unfold readRoute
  split
  · exact refuse_configures _ _
  split
  · exact .ok _
  split
  · exact refuse_configures _ _
  · simp only
    split
    · split
      · exact .ok _
      · exact (steps_configures _ _ _).map _
    · exact (steps_configures _ _ _).map _

end Path

end Regesta
