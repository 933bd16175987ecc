import Mathlib.Data.List.Forall2
import Mathlib.Data.List.Induction
import Regesta.Proofs.Members
import Regesta.Proofs.Xml.Invariant
import Regesta.Xml.Data

namespace Regesta

namespace Xml

def elementNames (content : List Node) : List String :=
  ((content.filter Node.isElement).map Node.tag).eraseDups

def elementsNamed (content : List Node) (name : String) : List Node :=
  content.filter fun node => node.isElement && node.tag == name

def valuesOf (content : List Node) (name : String) : List Value :=
  (elementsNamed content name).map contentValue

def together : List Value → Value
  | [value] => value
  | values => .list values

def elementMembers (content : List Node) : Members :=
  Members.table (elementNames content) (together ∘ valuesOf content)

def extended (value : Value) : Value → Value
  | .list items => .list (items ++ [value])
  | first => .list [first, value]

theorem gather_eq_upsert (name : String) (value : Value) (members : Members) :
    gather name value members = Members.upsert name value (extended value) members := by
  induction members with
  | nil => rfl
  | cons member rest ih =>
    obtain ⟨other, present⟩ := member
    cases present <;> simp [gather, Members.upsert, extended, ih]

theorem assemble_not_list (members : Members) (text : List Char) (items : List Value) :
    assemble members text ≠ .list items := by
  unfold assemble
  split <;> simp

theorem contentValue_not_list (node : Node) (items : List Value) :
    contentValue node ≠ .list items := by
  cases node with
  | element => exact assemble_not_list _ _ _
  | text | comment | instruction => simp [contentValue]

/-- Since no value of an element is a list, a list under a name is one of several values. -/
theorem extended_together {content : List Node} {name : String}
    (present : valuesOf content name ≠ []) (value : Value) :
    extended value (together (valuesOf content name)) =
      together (valuesOf content name ++ [value]) := by
  match found : valuesOf content name with
  | [] => exact absurd found present
  | [first] =>
    have member : first ∈ valuesOf content name := by simp [found]
    obtain ⟨node, _, same⟩ := List.mem_map.mp member
    have single := contentValue_not_list node
    rw [same] at single
    cases first with
    | list items => exact absurd rfl (single items)
    | null | text | object => rfl
  | first :: second :: rest => rfl

theorem elementNames_nodup (content : List Node) : (elementNames content).Nodup :=
  eraseDups_nodup _

@[simp] theorem mem_elementNames {content : List Node} {name : String} :
    name ∈ elementNames content ↔ ∃ node ∈ content, node.isElement = true ∧ node.tag = name := by
  simp [elementNames, List.mem_eraseDups, and_assoc]

theorem elementNames_concat {content : List Node} {node : Node} (element : node.isElement = true) :
    elementNames (content ++ [node]) =
      if node.tag ∈ elementNames content then elementNames content
      else elementNames content ++ [node.tag] := by
  have added : (content ++ [node]).filter Node.isElement =
      content.filter Node.isElement ++ [node] := by
    rw [List.filter_append, List.filter_cons_of_pos element, List.filter_nil]
  simp only [elementNames, added, List.map_append, List.map_singleton, eraseDups_concat,
    List.mem_eraseDups]

theorem valuesOf_concat {content : List Node} {node : Node} (element : node.isElement = true) :
    valuesOf (content ++ [node]) =
      Function.update (valuesOf content) node.tag
        (valuesOf content node.tag ++ [contentValue node]) := by
  funext name
  by_cases same : name = node.tag
  · subst same
    simp [valuesOf, elementsNamed, element]
  · rw [Function.update_of_ne same]
    simp [valuesOf, elementsNamed, Ne.symm same]

@[simp] theorem valuesOf_eq_nil_iff {content : List Node} {name : String} :
    valuesOf content name = [] ↔ name ∉ elementNames content := by
  simp [valuesOf, elementsNamed, elementNames, List.mem_eraseDups]

theorem elementMembers_concat {content : List Node} {node : Node}
    (element : node.isElement = true) :
    elementMembers (content ++ [node]) =
      gather node.tag (contentValue node) (elementMembers content) := by
  rw [gather_eq_upsert, elementMembers, elementMembers, valuesOf_concat element,
    Function.comp_update, elementNames_concat element]
  by_cases present : node.tag ∈ elementNames content
  · have filled : valuesOf content node.tag ≠ [] := by simpa using present
    rw [if_pos present, Members.upsert_table (elementNames_nodup content) present,
      Function.comp_apply, extended_together filled]
  · have none : valuesOf content node.tag = [] := valuesOf_eq_nil_iff.mpr present
    have fresh : node.tag ∉ (Members.table (elementNames content)
        (together ∘ valuesOf content)).map Prod.fst := by simpa using present
    rw [if_neg present, Members.table_append, Members.table_update present,
      Members.upsert_absent fresh, none]
    simp [Members.table, together]

theorem elementMembers_skip {content : List Node} {node : Node}
    (other : node.isElement = false) :
    elementMembers (content ++ [node]) = elementMembers content := by
  have values : valuesOf (content ++ [node]) = valuesOf content := by
    funext name
    simp [valuesOf, elementsNamed, other]
  rw [elementMembers, elementMembers, values]
  simp [elementNames, other]

@[simp] theorem gatherAll_append (members : Members) (front back : List Node) :
    gatherAll members (front ++ back) = gatherAll (gatherAll members front) back := by
  induction front generalizing members with
  | nil => rw [List.nil_append, gatherAll]
  | cons node rest ih =>
    rw [List.cons_append, gatherAll, gatherAll]
    split
    · exact ih _
    · exact ih _

theorem gatherAll_single (members : Members) (node : Node) :
    gatherAll members [node] =
      if node.isElement then gather node.tag (contentValue node) members else members := by
  cases node <;> simp [gatherAll, Node.name?, Node.isElement, Node.tag]

theorem gatherAll_eq {members : Members} {content : List Node}
    (apart : ∀ name ∈ elementNames content, name ∉ members.map Prod.fst) :
    gatherAll members content = members ++ elementMembers content := by
  induction content using List.reverseRecOn with
  | nil => simp [gatherAll, elementMembers, elementNames, Members.table]
  | append_singleton content node ih =>
    simp only [mem_elementNames, List.mem_append] at apart ih
    have earlier : ∀ name, (∃ inner ∈ content, inner.isElement = true ∧ inner.tag = name) →
        name ∉ members.map Prod.fst := by
      rintro name ⟨inner, member, found⟩
      exact apart name ⟨inner, .inl member, found⟩
    rw [gatherAll_append, ih earlier, gatherAll_single]
    by_cases element : node.isElement = true
    · have fresh := apart node.tag ⟨node, .inr List.mem_cons_self, element, rfl⟩
      rw [if_pos element, elementMembers_concat element, gather_eq_upsert, gather_eq_upsert,
        Members.upsert_append fresh]
    · rw [if_neg element, elementMembers_skip (by simpa using element)]

def attributeKey (entry : Attribute) : String := "@" ++ entry.name.localName

def lastValue (attributes : List Attribute) (key : String) : Value :=
  ((attributes.filter fun entry => attributeKey entry == key).getLast?.map fun entry =>
    Value.text entry.value).getD .null

theorem attributeMembers_concat (attributes : List Attribute) (entry : Attribute) :
    attributeMembers (attributes ++ [entry]) =
      Members.set (attributeKey entry) (.text entry.value) (attributeMembers attributes) := by
  rw [attributeMembers, List.foldl_append]
  rfl

theorem lastValue_concat (attributes : List Attribute) (entry : Attribute) :
    lastValue (attributes ++ [entry]) =
      Function.update (lastValue attributes) (attributeKey entry) (.text entry.value) := by
  funext key
  by_cases same : key = attributeKey entry
  · subst same
    simp [lastValue]
  · rw [Function.update_of_ne same]
    simp [lastValue, Ne.symm same]

theorem attributeMembers_eq (attributes : List Attribute) :
    attributeMembers attributes =
      Members.table (attributes.map attributeKey).eraseDups (lastValue attributes) := by
  induction attributes using List.reverseRecOn with
  | nil => rfl
  | append_singleton attributes entry ih =>
    rw [attributeMembers_concat, Members.set_eq_upsert, ih, List.map_append, List.map_singleton,
      eraseDups_concat, lastValue_concat]
    by_cases present : attributeKey entry ∈ attributes.map attributeKey
    · rw [if_pos present, Members.upsert_table (eraseDups_nodup _) (List.mem_eraseDups.mpr present)]
    · have absent : attributeKey entry ∉ (attributes.map attributeKey).eraseDups := by
        rwa [List.mem_eraseDups]
      rw [if_neg present, Members.table_append, Members.table_update absent,
        Members.upsert_absent (by simpa using present)]
      simp [Members.table]

def trimmedText (node : Node) : List Char := Text.trim (ownText node.content)

inductive Renders : Node → Value → Prop
  | nothing {node : Node} : node.attributes = [] → elementNames node.content = [] →
    trimmedText node = [] → Renders node .null
  | text {node : Node} : node.attributes = [] → elementNames node.content = [] →
    trimmedText node ≠ [] → Renders node (.text (String.ofList (trimmedText node)))
  | object {node : Node} {members : Members} {values : String → List Value}
    (filled : node.attributes ≠ [] ∨ elementNames node.content ≠ [])
    (names : members.map Prod.fst =
      (node.attributes.map attributeKey).eraseDups ++ elementNames node.content ++
        if trimmedText node = [] then [] else ["#text"])
    (apart : (members.map Prod.fst).Nodup)
    (children : ∀ name ∈ elementNames node.content,
      List.Forall₂ Renders (elementsNamed node.content name) (values name))
    (held : ∀ name ∈ elementNames node.content,
      members.get? name = some (together (values name)))
    (own : trimmedText node ≠ [] →
      members.get? "#text" = some (.text (String.ofList (trimmedText node)))) :
    Renders node (.object members)

theorem startsName_of_sign {text : List Char} (sign : text.head? = some '@') :
    startsName text = false := by
  cases text with
  | nil => rfl
  | cons c rest =>
    cases sign
    rfl

theorem attributeKey_sign (entry : Attribute) : (attributeKey entry).toList.head? = some '@' := by
  rw [attributeKey, String.toList_append]
  rfl

theorem startsName_of_mem {content : List Node} {name : String}
    (named : ∀ node ∈ content, node.Named) (member : name ∈ elementNames content) :
    startsName name.toList = true := by
  obtain ⟨node, inside, element, rfl⟩ := mem_elementNames.mp member
  cases named node inside with
  | element starts _ => exact starts
  | text | comment | instruction => cases element

def membersOf (node : Node) : Members :=
  attributeMembers node.attributes ++ elementMembers node.content

@[simp] theorem membersOf_names (node : Node) :
    (membersOf node).map Prod.fst =
      (node.attributes.map attributeKey).eraseDups ++ elementNames node.content := by
  rw [membersOf, List.map_append, attributeMembers_eq, elementMembers, Members.table_names,
    Members.table_names]

theorem membersOf_apart {node : Node} (named : node.Named) :
    ((membersOf node).map Prod.fst).Nodup ∧ "#text" ∉ (membersOf node).map Prod.fst := by
  have starts : ∀ name ∈ elementNames node.content, startsName name.toList = true :=
    fun name member => startsName_of_mem named.content member
  rw [membersOf_names]
  constructor
  · refine List.nodup_append.mpr ⟨eraseDups_nodup _, elementNames_nodup _, ?_⟩
    rintro key fromAttribute name member rfl
    obtain ⟨entry, _, rfl⟩ := List.mem_map.mp (List.mem_eraseDups.mp fromAttribute)
    have sign := startsName_of_sign (attributeKey_sign entry)
    rw [starts _ member] at sign
    cases sign
  · intro member
    rcases List.mem_append.mp member with fromAttribute | member
    · obtain ⟨entry, _, same⟩ := List.mem_map.mp (List.mem_eraseDups.mp fromAttribute)
      have sign := attributeKey_sign entry
      rw [same] at sign
      exact absurd sign (by decide)
    · have sign := starts _ member
      exact absurd sign (by decide)

theorem contentValue_eq {node : Node} (element : node.isElement = true) (named : node.Named) :
    contentValue node = assemble (membersOf node) (trimmedText node) := by
  cases node with
  | element name attributes source content =>
    have distinct := (membersOf_apart named).1
    rw [membersOf, List.map_append, elementMembers, Members.table_names] at distinct
    have apart : ∀ name ∈ elementNames content,
        name ∉ (attributeMembers attributes).map Prod.fst :=
      fun name member already => (List.nodup_append.mp distinct).2.2 _ already _ member rfl
    rw [contentValue, gatherAll_eq apart]
    rfl
  | text | comment | instruction => cases element

@[simp] theorem membersOf_eq_nil_iff {node : Node} :
    membersOf node = [] ↔ node.attributes = [] ∧ elementNames node.content = [] := by
  rw [← List.map_eq_nil_iff, membersOf_names, List.append_eq_nil_iff]
  cases node.attributes with
  | nil => simp
  | cons entry rest => simp [List.eraseDups_cons]

def ownMembers (text : List Char) : Members :=
  if text = [] then [] else [("#text", .text (String.ofList text))]

theorem assemble_filled {members : Members} {text : List Char} (filled : members ≠ [])
    (fresh : "#text" ∉ members.map Prod.fst) :
    assemble members text = .object (members ++ ownMembers text) := by
  cases members with
  | nil => exact absurd rfl filled
  | cons member rest =>
    cases text with
    | nil => simp [assemble, ownMembers]
    | cons c text =>
      rw [assemble, Members.set_eq_upsert, Members.upsert_absent fresh]
      · simp [ownMembers]
      all_goals simp

theorem mem_elementMembers {content : List Node} {name : String}
    (member : name ∈ elementNames content) :
    (name, together (valuesOf content name)) ∈ elementMembers content :=
  List.mem_map.mpr ⟨name, member, rfl⟩

theorem renders_of_children {node : Node} (element : node.isElement = true) (named : node.Named)
    (children : ∀ inner ∈ node.content, inner.isElement = true →
      Renders inner (contentValue inner)) : Renders node (contentValue node) := by
  rw [contentValue_eq element named]
  by_cases bare : node.attributes = [] ∧ elementNames node.content = []
  · rw [membersOf_eq_nil_iff.mpr bare]
    by_cases silent : trimmedText node = []
    · rw [silent]
      exact .nothing bare.1 bare.2 silent
    · have same : assemble [] (trimmedText node) = .text (String.ofList (trimmedText node)) := by
        cases found : trimmedText node with
        | nil => exact absurd found silent
        | cons => rfl
      rw [same]
      exact .text bare.1 bare.2 silent
  obtain ⟨apart, fresh⟩ := membersOf_apart named
  have filled : membersOf node ≠ [] := fun none => bare (membersOf_eq_nil_iff.mp none)
  rw [assemble_filled filled fresh]
  have distinct : ((membersOf node ++ ownMembers (trimmedText node)).map Prod.fst).Nodup := by
    rw [List.map_append, ownMembers]
    split
    · simpa using apart
    · refine List.nodup_append.mpr ⟨apart, List.nodup_singleton _, ?_⟩
      rintro name member _ own rfl
      rw [List.map_singleton, List.mem_singleton] at own
      subst own
      exact fresh member
  refine @Renders.object node _ (valuesOf node.content) ?_ ?_ distinct ?_ ?_ ?_
  · rwa [ne_eq, ne_eq, ← not_and_or]
  · rw [List.map_append, membersOf_names, ownMembers]
    split <;> rfl
  · intro name _
    rw [valuesOf, List.forall₂_map_right_iff, List.forall₂_same]
    intro inner member
    obtain ⟨inside, kind⟩ := List.mem_filter.mp member
    exact children inner inside (Bool.and_eq_true_iff.mp kind).1
  · intro name member
    rw [Members.get?_eq_some_iff distinct]
    exact List.mem_append_left _ (List.mem_append_right _ (mem_elementMembers member))
  · intro spoken
    rw [Members.get?_eq_some_iff distinct]
    simp [ownMembers, spoken]

mutual
theorem contentValue_renders (node : Node) (element : node.isElement = true) (named : node.Named) :
    Renders node (contentValue node) := by
  match node with
  | .element name attributes source content =>
    exact renders_of_children element named (content_renders content named.content)

theorem content_renders (content : List Node) (named : ∀ node ∈ content, node.Named) :
    ∀ node ∈ content, node.isElement = true → Renders node (contentValue node) := by
  match content with
  | [] => exact fun _ member => absurd member List.not_mem_nil
  | first :: rest =>
    obtain ⟨here, later⟩ := List.forall_mem_cons.mp named
    exact List.forall_mem_cons.mpr
      ⟨fun element => contentValue_renders first element here, content_renders rest later⟩
end

section

variable {source : String} {document : Document} {place : Place} {node : Node}

theorem named_of_read (read : Document.read? source = some document)
    (member : place ∈ document.places) (found : place.node? = some node) : node.Named :=
  Document.node_of_inherited Node.Named.content (Document.read?_named read) member found

/-- An element becomes an object with its local name as the only key, and what is under it follows
from the attributes, the elements and the text in it, down to the innermost ones. -/
theorem toValue_renders (read : Document.read? source = some document)
    (member : place ∈ document.places) (found : place.node? = some node)
    (element : node.isElement = true) :
    ∃ content, place.toValue = .object [(node.tag, content)] ∧
      (∀ items, content ≠ .list items) ∧ Renders node content := by
  refine ⟨contentValue node, ?_, contentValue_not_list node,
    contentValue_renders node element (named_of_read read member found)⟩
  cases place with
  | document => cases found
  | inside parent number other =>
    cases found
    rfl

end

namespace Itinerary

def text : String := "<l xml:id='l1'>Rom, <b/><d/><b>x</b> den</l>"

def first : Node := .element ⟨none, "b"⟩ [] (some "<b/>") []

def other : Node := .element ⟨none, "d"⟩ [] (some "<d/>") []

def second : Node := .element ⟨none, "b"⟩ [] (some "<b>x</b>") [.text "x"]

def list : Node :=
  .element ⟨none, "l"⟩ [⟨⟨some xmlUri, "id"⟩, "l1"⟩] (some text)
    [.text "Rom, ", first, other, second, .text " den"]

def content : Value :=
  .object
    [("@id", .text "l1"), ("b", .list [.null, .text "x"]), ("d", .null),
      ("#text", .text "Rom,  den")]

theorem toValue_renders_list :
    Document.read? text = some ⟨[list]⟩ ∧
      Place.toValue (.inside (.document [list]) 1 list) = .object [("l", content)] ∧
      Renders list content := by
  have read : Document.read? text = some ⟨[list]⟩ := by rfl
  have inside : Place.Encloses (Document.mk [list]).root (.inside (.document [list]) 1 list) :=
    List.mem_cons_self
  have member := Document.mem_of_encloses (Document.root_mem ⟨[list]⟩) inside
  have shown : Place.toValue (.inside (.document [list]) 1 list) = .object [("l", content)] := by
    cbv
  obtain ⟨_, same, _, renders⟩ := toValue_renders read member rfl rfl
  rw [shown] at same
  cases same
  exact ⟨read, shown, renders⟩

end Itinerary

end Xml
end Regesta
