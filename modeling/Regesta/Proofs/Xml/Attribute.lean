import Regesta.Proofs.Xml.Data

namespace Regesta

def Value.attributeEntries : Value → Members
  | object members => members.filter fun member => member.1.toList.head? == some '@'
  | _ => []

namespace Xml

variable {attributes : List Attribute} {node : Node}

def localNames (attributes : List Attribute) : List String :=
  attributes.map fun entry => entry.name.localName

@[simp] theorem attributeKey_inj {left right : Attribute} :
    attributeKey left = attributeKey right ↔ left.name.localName = right.name.localName := by
  rw [attributeKey, attributeKey, String.append_right_inj]

@[simp] theorem attributeKeys_nodup_iff :
    (attributes.map attributeKey).Nodup ↔ (localNames attributes).Nodup := by
  simp only [localNames, List.Nodup, List.pairwise_map, ne_eq, attributeKey_inj]

theorem attributeEntries_eq (element : node.isElement = true) (named : node.Named) :
    (contentValue node).attributeEntries = attributeMembers node.attributes := by
  rw [contentValue_eq element named]
  by_cases bare : membersOf node = []
  · obtain ⟨none, _⟩ := membersOf_eq_nil_iff.mp bare
    rw [bare, none]
    cases trimmedText node <;> rfl
  have marked : ∀ member ∈ attributeMembers node.attributes,
      (member.1.toList.head? == some '@') = true := by
    intro member inside
    rw [attributeMembers_eq, Members.table] at inside
    obtain ⟨key, present, rfl⟩ := List.mem_map.mp inside
    obtain ⟨entry, _, rfl⟩ := List.mem_map.mp (List.mem_eraseDups.mp present)
    rw [beq_iff_eq, attributeKey_sign]
  have unmarked : ∀ member ∈ elementMembers node.content,
      ¬ (member.1.toList.head? == some '@') = true := by
    intro member inside
    obtain ⟨name, present, rfl⟩ := List.mem_map.mp inside
    intro sign
    have starts := startsName_of_sign (beq_iff_eq.mp sign)
    rw [startsName_of_mem named.content present] at starts
    cases starts
  have own : ∀ member ∈ ownMembers (trimmedText node),
      ¬ (member.1.toList.head? == some '@') = true := by
    intro member inside
    rw [ownMembers] at inside
    split at inside
    · cases inside
    · rw [List.mem_singleton.mp inside]
      simp
  rw [assemble_filled bare (membersOf_apart named).2, membersOf, Value.attributeEntries,
    List.filter_append, List.filter_append, List.filter_eq_self.mpr marked,
    List.filter_eq_nil_iff.mpr unmarked, List.filter_eq_nil_iff.mpr own, List.append_nil,
    List.append_nil]

theorem lastValue_of_last {before after : List Attribute} {entry : Attribute}
    (last : ∀ later ∈ after, later.name.localName ≠ entry.name.localName) :
    lastValue (before ++ entry :: after) (attributeKey entry) = .text entry.value := by
  have none : (after.filter fun later => attributeKey later == attributeKey entry) = [] := by
    rw [List.filter_eq_nil_iff]
    intro later member
    rw [beq_iff_eq, attributeKey_inj]
    exact last later member
  rw [lastValue, List.filter_append, List.filter_cons_of_pos (by simp), none,
    List.getLast?_concat]
  rfl

theorem attributeMembers_of_nodup (apart : (localNames attributes).Nodup) :
    attributeMembers attributes =
      attributes.map fun entry => (attributeKey entry, .text entry.value) := by
  rw [attributeMembers_eq, eraseDups_of_nodup (attributeKeys_nodup_iff.mpr apart), Members.table,
    List.map_map]
  apply List.map_congr_left
  intro entry member
  obtain ⟨before, after, rfl⟩ := List.append_of_mem member
  have last : ∀ later ∈ after, later.name.localName ≠ entry.name.localName := by
    intro later inside same
    rw [localNames, List.map_append, List.map_cons] at apart
    have tail := (List.nodup_append.mp apart).2.1
    exact (List.nodup_cons.mp tail).1 (same ▸ List.mem_map_of_mem inside)
  rw [Function.comp_apply, lastValue_of_last last]

theorem attributeMembers_length_iff :
    (attributeMembers attributes).length = attributes.length ↔ (localNames attributes).Nodup := by
  rw [attributeMembers_eq, Members.table, List.length_map, ← attributeKeys_nodup_iff,
    ← eraseDups_length_iff, List.length_map]

/-- What is kept of the attributes of an element: one entry for each local name, with the value of
the last attribute that has it. So all are kept just when no two of them share a local name. -/
theorem attributes_kept_iff {source : String} {document : Document} {place : Place}
    (read : Document.read? source = some document) (member : place ∈ document.places)
    (found : place.node? = some node) (element : node.isElement = true) :
    (contentValue node).attributeEntries.map Prod.fst =
        (node.attributes.map attributeKey).eraseDups ∧
      (∀ before entry after, node.attributes = before ++ entry :: after →
        (∀ later ∈ after, later.name.localName ≠ entry.name.localName) →
        (attributeKey entry, .text entry.value) ∈ (contentValue node).attributeEntries) ∧
      ((contentValue node).attributeEntries.length = node.attributes.length ↔
        (localNames node.attributes).Nodup) ∧
      (((contentValue node).attributeEntries.map Prod.snd).Perm
          (node.attributes.map fun entry => .text entry.value) ↔
        (localNames node.attributes).Nodup) := by
  rw [attributeEntries_eq element (named_of_read read member found)]
  refine ⟨?_, ?_, attributeMembers_length_iff, ?_, ?_⟩
  · rw [attributeMembers_eq, Members.table_names]
  · intro before entry after split last
    rw [attributeMembers_eq, split]
    have present :
        attributeKey entry ∈ ((before ++ entry :: after).map attributeKey).eraseDups := by
      simp [List.mem_eraseDups]
    have held := List.mem_map_of_mem
      (f := fun key => (key, lastValue (before ++ entry :: after) key)) present
    rwa [lastValue_of_last last] at held
  · intro same
    have lengths := same.length_eq
    rw [List.length_map, List.length_map] at lengths
    exact attributeMembers_length_iff.mp lengths
  · intro apart
    rw [attributeMembers_of_nodup apart, List.map_map]
    exact List.Perm.refl _

namespace Identifiers

def text : String := "<p id='a' xml:id='b' n='c'/>"

def person : Node :=
  .element ⟨none, "p"⟩ [⟨⟨none, "id"⟩, "a"⟩, ⟨⟨some xmlUri, "id"⟩, "b"⟩, ⟨⟨none, "n"⟩, "c"⟩]
    (some text) []

theorem read : Document.read? text = some ⟨[person]⟩ := by rfl

theorem member : Place.inside (.document [person]) 1 person ∈ (Document.mk [person]).places :=
  Document.mem_of_encloses (Document.root_mem ⟨[person]⟩) List.mem_cons_self

theorem repeated_local_name_lost :
    Document.read? text = some ⟨[person]⟩ ∧
      Place.inside (.document [person]) 1 person ∈ (Document.mk [person]).places ∧
      (contentValue person).attributeEntries = [("@id", .text "b"), ("@n", .text "c")] ∧
      (contentValue person).attributeEntries.length ≠ person.attributes.length ∧
      ¬ ((contentValue person).attributeEntries.map Prod.snd).Perm
        (person.attributes.map fun entry => .text entry.value) := by
  have kept : (contentValue person).attributeEntries = [("@id", .text "b"), ("@n", .text "c")] := by
    cbv
  refine ⟨read, member, kept, ?_, ?_⟩
  · rw [kept]
    decide
  · intro same
    have lengths := same.length_eq
    rw [kept] at lengths
    cases lengths

theorem attributes_kept_iff_person :
    Document.read? text = some ⟨[person]⟩ ∧
      ("@id", .text "b") ∈ (contentValue person).attributeEntries ∧
      (contentValue person).attributeEntries.length ≠ person.attributes.length := by
  obtain ⟨_, last, all, _⟩ := attributes_kept_iff read member rfl rfl
  refine ⟨read, last [⟨⟨none, "id"⟩, "a"⟩] _ [⟨⟨none, "n"⟩, "c"⟩] rfl (by decide), ?_⟩
  intro same
  exact absurd (all.mp same) (by decide)

end Identifiers

end Xml
end Regesta
