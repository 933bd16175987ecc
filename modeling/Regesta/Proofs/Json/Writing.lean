import Regesta.Proofs.Json.Grammar
import Regesta.Value.Json

namespace Regesta

namespace Value

mutual
def json : Value → Json
  | .null => .null
  | .text value => .string value
  | .list items => .array (jsonItems items)
  | .object members => .object (jsonMembers members)

def jsonItems : List Value → List Json
  | [] => []
  | item :: rest => item.json :: jsonItems rest

def jsonMembers : Members → List (String × Json)
  | [] => []
  | (name, value) :: rest => (name, value.json) :: jsonMembers rest
end

end Value

namespace Json

mutual
def value? : Json → Option Value
  | .null => some .null
  | .string value => some (.text value)
  | .array items => (itemValues? items).map .list
  | .object members => (memberValues? members).map .object
  | .boolean _ | .number _ => none

def itemValues? : List Json → Option (List Value)
  | [] => some []
  | item :: rest =>
    item.value?.bind fun first => (itemValues? rest).map fun others => first :: others

def memberValues? : List (String × Json) → Option Members
  | [] => some []
  | (name, json) :: rest =>
    json.value?.bind fun value => (memberValues? rest).map fun others => (name, value) :: others
end

theorem Gap.nil : Gap [] := fun _ member => absurd member List.not_mem_nil

section

variable {α β : Type} {spells : List Char → α → Prop} {text : List Char} {value : α}

theorem Padded.between {before after : List Char} (gap : Gap before) (spelled : spells text value)
    (trailing : Gap after) : Padded spells (before ++ (text ++ after)) value := by
  rw [← List.append_assoc]
  exact .intro gap spelled trailing

theorem Padded.bare (spelled : spells text value) : Padded spells text value := by
  have padded := Padded.between .nil spelled .nil
  rwa [List.nil_append, List.append_nil] at padded

def row (write : β → List Char) (back : List Char) : List β → List Char
  | [] => back
  | [item] => write item ++ back
  | item :: next :: rest => write item ++ ',' :: row write back (next :: rest)

theorem row_separated {write : β → List Char} {meaning : β → α} {items : List β}
    (filled : items ≠ [])
    (each : ∀ item ∈ items, ∀ gap, Gap gap → spells (write item ++ gap) (meaning item))
    {gap : List Char} (trailing : Gap gap) (closing : List Char) :
    ∃ inner, row write (gap ++ closing) items = inner ++ closing ∧
      Separated spells inner (items.map meaning) := by
  induction items with
  | nil => exact absurd rfl filled
  | cons item rest ih =>
    obtain ⟨first, later⟩ := List.forall_mem_cons.mp each
    cases rest with
    | nil => exact ⟨write item ++ gap, (List.append_assoc ..).symm, .last (first gap trailing)⟩
    | cons next others =>
      obtain ⟨inner, shape, separated⟩ := ih (List.cons_ne_nil _ _) later
      have bare := first [] .nil
      rw [List.append_nil] at bare
      refine ⟨write item ++ ',' :: inner, ?_, .more bare separated⟩
      rw [row, shape, List.append_assoc]
      rfl

end

end Json

namespace Value

open Json (Gap IsUnit Member Padded Separated Spells SpellsChar SpellsChars SpellsString)

mutual
@[simp] theorem value?_json (value : Value) : value.json.value? = some value := by
  match value with
  | .null => rfl
  | .text _ => rfl
  | .list items => rw [json, Json.value?, itemValues?_json items]; rfl
  | .object members => rw [json, Json.value?, memberValues?_json members]; rfl

@[simp] theorem itemValues?_json (items : List Value) :
    Json.itemValues? (jsonItems items) = some items := by
  match items with
  | [] => rfl
  | item :: rest => rw [jsonItems, Json.itemValues?, value?_json item, itemValues?_json rest]; rfl

@[simp] theorem memberValues?_json (members : Members) :
    Json.memberValues? (jsonMembers members) = some members := by
  match members with
  | [] => rfl
  | (name, value) :: rest =>
    rw [jsonMembers, Json.memberValues?, value?_json value, memberValues?_json rest]; rfl
end

theorem json_injective {value other : Value} (same : value.json = other.json) : value = other := by
  have decoded := value?_json value
  rw [same, value?_json] at decoded
  exact (Option.some.inj decoded).symm

theorem isUnit_escaped {n : Nat} (control : n < 32) :
    IsUnit ['0', '0', hexDigit (n / 16), hexDigit n] n := by
  have counted : ∀ n < 32, Text.natural? 16 ['0', '0', hexDigit (n / 16), hexDigit n] = some n := by
    decide
  exact ⟨rfl, counted n control⟩

theorem escapeChar_spells (c : Char) : SpellsChar (escapeChar c) c := by
  have short : ∀ {sign d : Char}, c = d → (sign, d) ∈ Json.shortEscapes →
      SpellsChar ['\\', sign] c := fun same listed => .short (same ▸ listed)
  unfold escapeChar
  split_ifs with quote backslash backspace feed newline carriage tab control
  · exact short quote (by decide)
  · exact short backslash (by decide)
  · exact short backspace (by decide)
  · exact short feed (by decide)
  · exact short newline (by decide)
  · exact short carriage (by decide)
  · exact short tab (by decide)
  · have spelled : SpellsChar ('\\' :: 'u' :: _) (Char.ofNat c.toNat) :=
      .unit (isUnit_escaped control) (by unfold Json.IsHigh; omega) (by unfold Json.IsLow; omega)
    rwa [Char.ofNat_toNat] at spelled
  · exact .plain quote backslash (Nat.le_of_not_lt control)

theorem stringText_spells (value : String) : SpellsString (stringText value) value := by
  have inside : ∀ text : List Char, SpellsChars (text.flatMap escapeChar) text := by
    intro text
    induction text with
    | nil => exact .nil
    | cons c rest ih =>
      rw [List.flatMap_cons]
      exact .cons (escapeChar_spells c) ih
  have quoted := SpellsString.quoted (inside value.toList)
  rwa [String.ofList_toList] at quoted

def memberText (front inner : List Char) (write : Value → List Char) (member : String × Value) :
    List Char :=
  front ++ (stringText member.1 ++ ':' :: (inner ++ write member.2))

theorem itemsText_eq (items : List Value) : itemsText items = Json.row lineText [']'] items := by
  induction items with
  | nil => rw [itemsText, Json.row]
  | cons item rest ih =>
    cases rest with
    | nil => rw [itemsText, Json.row]
    | cons => rw [itemsText, ih, Json.row]; exact List.cons_ne_nil _ _

theorem membersText_eq (members : Members) :
    membersText members = Json.row (memberText [] [] lineText) ['\x7d'] members := by
  induction members with
  | nil => rw [membersText, Json.row]
  | cons member rest ih =>
    cases rest with
    | nil => simp [membersText, Json.row, memberText]
    | cons => simp [membersText, ih, Json.row, memberText]

theorem pageItems_eq (depth : Nat) (items : List Value) :
    pageItems depth items =
      Json.row (fun item => lineBreak depth ++ pageText depth item)
        (lineBreak (depth - 1) ++ [']']) items := by
  induction items with
  | nil => rw [pageItems, Json.row]
  | cons item rest ih =>
    cases rest with
    | nil => simp [pageItems, Json.row]
    | cons => simp [pageItems, ih, Json.row]

theorem pageMembers_eq (depth : Nat) (members : Members) :
    pageMembers depth members =
      Json.row (memberText (lineBreak depth) [' '] (pageText depth))
        (lineBreak (depth - 1) ++ ['\x7d']) members := by
  induction members with
  | nil => rw [pageMembers, Json.row]
  | cons member rest ih =>
    cases rest with
    | nil => simp [pageMembers, Json.row, memberText]
    | cons => simp [pageMembers, ih, Json.row, memberText]

@[simp] theorem jsonItems_eq (items : List Value) : jsonItems items = items.map json := by
  induction items with
  | nil => rfl
  | cons item rest ih => rw [jsonItems, ih, List.map_cons]

@[simp] theorem jsonMembers_eq (members : Members) :
    jsonMembers members = members.map fun member => (member.1, member.2.json) := by
  induction members with
  | nil => rfl
  | cons member rest ih => rw [jsonMembers, ih, List.map_cons]

theorem lineBreak_gap (depth : Nat) : Gap (lineBreak depth) := by
  intro c member
  rcases List.mem_cons.mp member with rfl | member
  · decide
  · rw [List.eq_of_mem_replicate member]
    decide

structure Written (value : Value) : Prop where
  line : Spells (lineText value) value.json
  page : ∀ depth, Spells (pageText depth value) value.json

section

variable {front inner gap : List Char} {write : Value → List Char} (leading : Gap front)
  (trailing : Gap gap)

include leading trailing

theorem array_spelled {items : List Value} (filled : items ≠ [])
    (each : ∀ item ∈ items, Spells (write item) item.json) :
    Spells ('[' :: Json.row (fun item => front ++ write item) (gap ++ [']']) items)
      (.array (jsonItems items)) := by
  have padded : ∀ item ∈ items, ∀ gap, Gap gap →
      Padded Spells (front ++ write item ++ gap) item.json :=
    fun item member _ blanks => .intro leading (each item member) blanks
  obtain ⟨inner, shape, separated⟩ := Json.row_separated filled padded trailing [']']
  rw [shape, jsonItems_eq]
  exact .array separated

theorem object_spelled {members : Members} (filled : members ≠ []) (between : Gap inner)
    (each : ∀ member ∈ members, Spells (write member.2) member.2.json) :
    Spells ('\x7b' :: Json.row (memberText front inner write) (gap ++ ['\x7d']) members)
      (.object (jsonMembers members)) := by
  have padded : ∀ member ∈ members, ∀ gap, Gap gap →
      Member Spells (memberText front inner write member ++ gap) (member.1, member.2.json) := by
    intro member among gap blanks
    have label := Padded.between leading (stringText_spells member.1) .nil
    have value := Padded.between between (each member among) blanks
    have whole := Member.intro label value
    simp only [List.append_nil, List.append_assoc] at whole
    simpa only [memberText, List.append_assoc, List.cons_append] using whole
  obtain ⟨inner, shape, separated⟩ := Json.row_separated filled padded trailing ['\x7d']
  rw [shape, jsonMembers_eq]
  exact .object separated

end

theorem list_written {items : List Value} (each : ∀ item ∈ items, item.Written) :
    (list items).Written := by
  cases items with
  | nil => exact ⟨.emptyArray .nil, fun _ => .emptyArray .nil⟩
  | cons item rest =>
    have filled := List.cons_ne_nil item rest
    constructor
    · rw [lineText, itemsText_eq]
      exact array_spelled .nil .nil filled fun item member => (each item member).line
    · intro depth
      rw [pageText, pageItems_eq]
      exact array_spelled (lineBreak_gap _) (lineBreak_gap _) filled
        fun item member => (each item member).page _

theorem object_written {members : Members} (each : ∀ member ∈ members, member.2.Written) :
    (object members).Written := by
  cases members with
  | nil => exact ⟨.emptyObject .nil, fun _ => .emptyObject .nil⟩
  | cons member rest =>
    have filled := List.cons_ne_nil member rest
    have blank : Gap [' '] := List.forall_mem_singleton.mpr rfl
    constructor
    · rw [lineText, membersText_eq]
      exact object_spelled .nil .nil filled .nil fun member among => (each member among).line
    · intro depth
      rw [pageText, pageMembers_eq]
      exact object_spelled (lineBreak_gap _) (lineBreak_gap _) filled blank
        fun member among => (each member among).page _

mutual
theorem written (value : Value) : value.Written := by
  match value with
  | .null => exact ⟨.null, fun _ => .null⟩
  | .text value =>
    have spells := stringText_spells value
    exact ⟨.string spells, fun _ => .string spells⟩
  | .list items => exact list_written (items_written items)
  | .object members => exact object_written (members_written members)

theorem items_written (items : List Value) : ∀ item ∈ items, item.Written := by
  match items with
  | [] => exact fun _ member => absurd member List.not_mem_nil
  | item :: rest =>
    have first := written item
    exact List.forall_mem_cons.mpr ⟨first, items_written rest⟩

theorem members_written (members : Members) : ∀ member ∈ members, member.2.Written := by
  match members with
  | [] => exact fun _ member => absurd member List.not_mem_nil
  | (name, value) :: rest =>
    have first := written value
    exact List.forall_mem_cons.mpr ⟨first, members_written rest⟩
end

end Value
end Regesta
