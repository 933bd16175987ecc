import Mathlib.Data.List.Nodup
import Mathlib.Logic.Function.Basic
import Regesta.Value

namespace Regesta

theorem eraseDups_concat (names : List String) (name : String) :
    (names ++ [name]).eraseDups =
      if name ∈ names then names.eraseDups else names.eraseDups ++ [name] := by
  rw [List.eraseDups_append]
  split
  · next present => simp [List.removeAll, present]
  · next absent => simp [List.removeAll, absent, List.eraseDups_cons]

theorem eraseDups_nodup (names : List String) : names.eraseDups.Nodup := by
  cases names with
  | nil => exact .nil
  | cons name rest =>
    rw [List.eraseDups_cons, List.nodup_cons]
    constructor
    · simp [List.mem_eraseDups]
    · exact eraseDups_nodup _
termination_by names.length
decreasing_by
  exact Nat.lt_succ_of_le (List.length_filter_le _ _)

theorem eraseDups_sublist (names : List String) : names.eraseDups.Sublist names := by
  cases names with
  | nil => exact .slnil
  | cons name rest =>
    rw [List.eraseDups_cons]
    exact ((eraseDups_sublist _).trans List.filter_sublist).cons_cons name
termination_by names.length
decreasing_by
  exact Nat.lt_succ_of_le (List.length_filter_le _ _)

theorem eraseDups_of_nodup {names : List String} (apart : names.Nodup) :
    names.eraseDups = names := by
  induction names with
  | nil => rfl
  | cons name rest ih =>
    obtain ⟨fresh, apart⟩ := List.nodup_cons.mp apart
    have kept : (rest.filter fun other => !other == name) = rest := by
      rw [List.filter_eq_self]
      intro other member
      simp only [Bool.not_eq_true', beq_eq_false_iff_ne]
      exact fun same => fresh (same ▸ member)
    rw [List.eraseDups_cons, kept, ih apart]

theorem eraseDups_length_iff (names : List String) :
    names.eraseDups.length = names.length ↔ names.Nodup := by
  constructor
  · intro same
    rw [← (eraseDups_sublist names).eq_of_length same]
    exact eraseDups_nodup names
  · intro apart
    rw [eraseDups_of_nodup apart]

namespace Members

def upsert (name : String) (value : Value) (change : Value → Value) : Members → Members
  | [] => [(name, value)]
  | (other, present) :: rest =>
    if other = name then (other, change present) :: rest
    else (other, present) :: upsert name value change rest

def table (names : List String) (value : String → Value) : Members :=
  names.map fun name => (name, value name)

@[simp] theorem table_names (names : List String) (value : String → Value) :
    (table names value).map Prod.fst = names := by
  simp [table, Function.comp_def]

theorem set_eq_upsert (name : String) (value : Value) (members : Members) :
    set name value members = upsert name value (fun _ => value) members := by
  induction members with
  | nil => rfl
  | cons member rest ih =>
    simp only [set, upsert, ih, beq_iff_eq]
    split
    · next same => rw [same]
    · rfl

variable {name : String} {value : Value} {change : Value → Value}

theorem upsert_append {front : Members} (absent : name ∉ front.map Prod.fst) (back : Members) :
    upsert name value change (front ++ back) = front ++ upsert name value change back := by
  induction front with
  | nil => rfl
  | cons member rest ih =>
    rw [List.map_cons, List.mem_cons, not_or] at absent
    rw [List.cons_append, upsert, if_neg (Ne.symm absent.1), ih absent.2, List.cons_append]

theorem upsert_absent {members : Members} (absent : name ∉ members.map Prod.fst) :
    upsert name value change members = members ++ [(name, value)] := by
  have whole : upsert name value change (members ++ []) = members ++ [(name, value)] :=
    upsert_append absent []
  rwa [List.append_nil] at whole

@[simp] theorem table_append (front back : List String) (held : String → Value) :
    table (front ++ back) held = table front held ++ table back held :=
  List.map_append

theorem table_congr {names : List String} {held other : String → Value}
    (same : ∀ name ∈ names, held name = other name) : table names held = table names other := by
  apply List.map_congr_left
  intro name member
  rw [same name member]

theorem table_update {names : List String} (absent : name ∉ names) (held : String → Value) :
    table names (Function.update held name value) = table names held := by
  apply table_congr
  intro other member
  have differ : other ≠ name := by
    rintro rfl
    exact absent member
  exact Function.update_of_ne differ _ _

theorem upsert_table {names : List String} (apart : names.Nodup) (present : name ∈ names)
    (held : String → Value) :
    upsert name value change (table names held) =
      table names (Function.update held name (change (held name))) := by
  obtain ⟨front, back, rfl⟩ := List.append_of_mem present
  obtain ⟨_, apartBack, disjoint⟩ := List.nodup_append.mp apart
  have before : name ∉ front := fun member => disjoint _ member _ List.mem_cons_self rfl
  have after : name ∉ back := (List.nodup_cons.mp apartBack).1
  have fresh : name ∉ (table front held).map Prod.fst := by simpa using before
  rw [table_append, table_append, upsert_append fresh, table_update before]
  change _ ++ upsert name value change ((name, held name) :: table back held) =
    _ ++ (name, Function.update held name (change (held name)) name) :: table back _
  rw [upsert, if_pos rfl, Function.update_self, table_update after]

theorem get?_eq_some_iff {members : Members} (apart : (members.map Prod.fst).Nodup) :
    members.get? name = some value ↔ (name, value) ∈ members := by
  induction members with
  | nil => simp [get?]
  | cons member rest ih =>
    obtain ⟨other, held⟩ := member
    obtain ⟨fresh, apart⟩ := List.nodup_cons.mp apart
    have inner := ih apart
    simp only [get?] at inner
    by_cases same : other = name
    · subst same
      have absent : (other, value) ∉ rest :=
        fun member => fresh (List.mem_map.mpr ⟨_, member, rfl⟩)
      simp [get?, absent, eq_comm]
    · simp [get?, same, inner, Ne.symm same]

end Members

end Regesta
