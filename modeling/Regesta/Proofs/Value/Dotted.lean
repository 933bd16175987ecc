import Mathlib.Logic.ExistsUnique
import Regesta.Proofs.Text.Split
import Regesta.Record

namespace Regesta

namespace Value

/-- Names lead from a value to another through objects, each to the member that it names. -/
inductive Leads : Value → List String → Value → Prop
  | here {value : Value} : Leads value [] value
  | member {members : Members} {name : String} {rest : List String} {inner found : Value} :
    Members.get? members name = some inner → Leads inner rest found →
    Leads (.object members) (name :: rest) found

/-- Names that a path can list: at least one of them, and no dot in any. -/
structure Listable (names : List String) : Prop where
  filled : names ≠ []
  dotless : ∀ name ∈ names, '.' ∉ name.toList

@[simp] theorem follow?_cons (value : Value) (name : String) (rest : List String) :
    value.follow? (name :: rest) = (value.member? name).bind fun inner => inner.follow? rest := by
  rw [follow?, List.foldlM_cons]
  rfl

@[simp] theorem follow?_append (value : Value) (front back : List String) :
    value.follow? (front ++ back) =
      (value.follow? front).bind fun inner => inner.follow? back := by
  rw [follow?, List.foldlM_append]
  rfl

theorem follow?_iff {value found : Value} {names : List String} :
    value.follow? names = some found ↔ value.Leads names found := by
  induction names generalizing value with
  | nil =>
    change some value = some found ↔ _
    constructor
    · intro same
      cases same
      exact .here
    · intro leads
      cases leads
      rfl
  | cons name rest ih =>
    rw [follow?_cons, Option.bind_eq_some_iff]
    simp only [ih]
    constructor
    · intro ⟨inner, present, later⟩
      cases value with
      | object members => exact .member present later
      | null | text _ | list _ => cases present
    · intro leads
      cases leads with
      | member present later => exact ⟨_, present, later⟩

theorem pathNames_cut {path : String} {name rest : List Char}
    (cut : Text.splitFirst ['.'] path.toList = some (name, rest)) :
    pathNames path = String.ofList name :: pathNames (String.ofList rest) := by
  have parts := Text.splitFirst_sound cut
  rw [List.append_assoc, List.singleton_append] at parts
  rw [pathNames, parts, Text.splitEvery_append (Text.splitFirst_fresh cut), List.map_cons, pathNames,
    String.toList_ofList]

theorem pathNames_uncut {path : String} (uncut : Text.splitFirst ['.'] path.toList = none) :
    pathNames path = [path] := by
  rw [pathNames, Text.splitEvery_alone (Text.not_mem_of_splitFirst uncut), List.map_singleton,
    String.ofList_toList]

theorem pathNames_append (left right : String) :
    pathNames (left ++ "." ++ right) = pathNames left ++ pathNames right := by
  have whole : (left ++ "." ++ right).toList = left.toList ++ '.' :: right.toList := by simp
  rw [pathNames, whole, Text.splitEvery_between, List.map_append]
  rfl

theorem pathNames_joined {names : List String} (listable : Listable names) :
    pathNames (".".intercalate names) = names := by
  have dot : ".".toList = ['.'] := by decide
  have filled : names.map String.toList ≠ [] := by simpa using listable.filled
  have dotless : ∀ part ∈ names.map String.toList, '.' ∉ part := by simpa using listable.dotless
  rw [pathNames, String.toList_intercalate, dot, Text.splitEvery_intercalate filled dotless,
    List.map_map]
  simp [Function.comp_def]

theorem pathNames_listable (path : String) : Listable (pathNames path) := by
  constructor
  · simpa [pathNames] using Text.splitEvery_filled '.' path.toList
  · intro name member
    obtain ⟨part, among, rfl⟩ := List.mem_map.mp member
    rw [String.toList_ofList]
    exact Text.splitEvery_fresh '.' path.toList part among

@[simp] theorem joined_pathNames (path : String) : ".".intercalate (pathNames path) = path := by
  have dot : ".".toList = ['.'] := by decide
  apply String.toList_injective
  rw [String.toList_intercalate, dot, pathNames, List.map_map]
  simp [Function.comp_def, Text.splitEvery_joined]

theorem existsUnique_listed (path : String) :
    ∃! names, Listable names ∧ ".".intercalate names = path := by
  refine ⟨pathNames path, ⟨pathNames_listable path, joined_pathNames path⟩, ?_⟩
  intro names listed
  rw [← listed.2, pathNames_joined listed.1]

end Value

theorem Record.get?_eq (record : Record) (path : String) :
    record.get? path = (Value.object record.properties).get? path := by
  rw [Value.get?]
  cases cut : Text.splitFirst ['.'] path.toList with
  | none =>
    rw [Record.get?, cut, Value.pathNames_uncut cut, Value.follow?_cons]
    exact (Option.bind_fun_some _).symm
  | some parts =>
    rw [Record.get?, cut, Value.pathNames_cut cut, Value.follow?_cons]
    rfl

/-- A record is looked into as the object of its properties is. Two paths with a dot between them are
followed one after the other. A path leads where the names do that it lists, and each path lists
names in one way only. -/
theorem Value.get?_leads (record : Record) (value : Value) (left right : String)
    {names : List String} (listable : Listable names) :
    (∀ path, record.get? path = (Value.object record.properties).get? path) ∧
    value.get? (left ++ "." ++ right) = (value.get? left).bind (fun inner => inner.get? right) ∧
    (∀ found, value.get? (".".intercalate names) = some found ↔ value.Leads names found) ∧
    ∀ path, ∃! parts, Listable parts ∧ ".".intercalate parts = path := by
  refine ⟨record.get?_eq, ?_, ?_, existsUnique_listed⟩
  · rw [get?, pathNames_append, follow?_append]
    rfl
  · intro found
    rw [get?, pathNames_joined listable, follow?_iff]

theorem Value.get?_leads_unnamed :
    let record : Record := ⟨"", "letters", none, [("", .object [("a", .text "b")])]⟩
    let value : Value := .object record.properties
    Listable ["", "a"] ∧ record.get? ".a" = some (.text "b") ∧
      value.Leads ["", "a"] (.text "b") ∧ value.get? (".a" ++ "." ++ "") = none := by
  intro record value
  have listable : Listable ["", "a"] := ⟨List.cons_ne_nil _ _, by decide⟩
  obtain ⟨alike, after, leads, _⟩ := get?_leads record value ".a" "" listable
  have found : value.get? ".a" = some (.text "b") := by rfl
  refine ⟨listable, ?_, (leads _).mp found, ?_⟩
  · rw [alike]
    exact found
  · rw [after, found]
    rfl

end Regesta
