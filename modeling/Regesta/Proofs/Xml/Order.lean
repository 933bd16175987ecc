import Mathlib.Data.List.Nodup
import Mathlib.Logic.Relation
import Regesta.Xml.Place

namespace Regesta.Xml

open Relation (TransGen ReflTransGen)

def Document.places (document : Document) : List Place := document.root :: document.root.descendants

namespace Place

def Holds (outer inner : Place) : Prop := inner.parent? = some outer

def Encloses (outer inner : Place) : Prop := inner ∈ outer.children

theorem within_eq_descendants (parent : Place) (number : Nat) (node : Node) :
    within (inside parent number node) node = (inside parent number node).descendants := by
  cases node <;> simp [within, descendants, content, Node.content, withinAll]

theorem withinAll_eq_flatMap (parent : Place) (next : Nat) (nodes : List Node) :
    withinAll parent next nodes =
      (numbered parent next nodes).flatMap fun place => place :: place.descendants := by
  induction nodes generalizing next with
  | nil => simp [withinAll, numbered]
  | cons node rest ih =>
    rw [withinAll, numbered, List.flatMap_cons, ih, within_eq_descendants, List.cons_append]

theorem descendants_eq_flatMap (place : Place) :
    place.descendants = place.children.flatMap fun child => child :: child.descendants :=
  withinAll_eq_flatMap _ _ _

theorem mem_descendants (outer inner : Place) :
    inner ∈ outer.descendants ↔
      ∃ child ∈ outer.children, inner = child ∨ inner ∈ child.descendants := by
  rw [descendants_eq_flatMap]
  simp only [List.mem_flatMap, List.mem_cons]

mutual
theorem within_numbers (place : Place) (node : Node) :
    (within place node).map number = List.range' (place.number + 1) (node.size - 1) := by
  cases node with
  | element name attributes source content =>
    rw [within, withinAll_numbers, Node.size, Nat.add_sub_cancel_left]
  | text value => simp [within, Node.size]
  | comment value => simp [within, Node.size]
  | instruction target value => simp [within, Node.size]

theorem withinAll_numbers (parent : Place) (next : Nat) (nodes : List Node) :
    (withinAll parent next nodes).map number = List.range' next (Node.sizeAll nodes) := by
  cases nodes with
  | nil => simp [withinAll, Node.sizeAll]
  | cons node rest =>
    have positive : 1 ≤ node.size := by cases node <;> simp [Node.size]
    have split : Node.sizeAll (node :: rest) = 1 + ((node.size - 1) + Node.sizeAll rest) := by
      rw [Node.sizeAll]
      omega
    have after : next + node.size = next + 1 + (node.size - 1) := by omega
    rw [withinAll, List.map_cons, List.map_append, within_numbers, withinAll_numbers, split, after,
      ← List.range'_append_1, ← List.range'_append_1]
    rfl
end

@[simp] theorem descendants_numbers (place : Place) :
    place.descendants.map number =
      List.range' (place.number + 1) (Node.sizeAll place.content) :=
  withinAll_numbers _ _ _

theorem descendants_ordered (place : Place) :
    place.descendants.Pairwise fun a b => a.number < b.number := by
  have ordered := List.pairwise_lt_range' (s := place.number + 1) (n := Node.sizeAll place.content) 1
  rw [← descendants_numbers, List.pairwise_map] at ordered
  exact ordered

theorem numbered_sublist (parent : Place) (next : Nat) (nodes : List Node) :
    (numbered parent next nodes).Sublist (withinAll parent next nodes) := by
  induction nodes generalizing next with
  | nil => simp [numbered, withinAll]
  | cons node rest ih =>
    rw [numbered, withinAll]
    exact ((ih _).trans (List.sublist_append_right _ _)).cons_cons _

theorem children_sublist (place : Place) : place.children.Sublist place.descendants :=
  numbered_sublist _ _ _

theorem children_ordered (place : Place) :
    place.children.Pairwise fun a b => a.number < b.number :=
  place.descendants_ordered.sublist place.children_sublist

theorem numbered_node {parent place : Place} {next : Nat} {nodes : List Node}
    (member : place ∈ numbered parent next nodes) : ∃ node ∈ nodes, place.node? = some node := by
  induction nodes generalizing next with
  | nil => cases member
  | cons node rest ih =>
    rcases List.mem_cons.mp member with rfl | member
    · exact ⟨node, List.mem_cons_self, rfl⟩
    · obtain ⟨other, inside, same⟩ := ih member
      exact ⟨other, List.mem_cons_of_mem _ inside, same⟩

theorem Encloses.holds {outer inner : Place} (encloses : Encloses outer inner) :
    Holds outer inner := by
  have parents : ∀ (nodes : List Node) (next : Nat) (place : Place),
      place ∈ numbered outer next nodes → place.parent? = some outer := by
    intro nodes
    induction nodes with
    | nil => intro next place member; simp [numbered] at member
    | cons node rest ih =>
      intro next place member
      rcases List.mem_cons.mp member with rfl | member
      · rfl
      · exact ih _ _ member
  exact parents _ _ _ encloses

theorem family_sublist {outer child : Place} (encloses : Encloses outer child) :
    (child :: child.descendants).Sublist outer.descendants := by
  rw [descendants_eq_flatMap outer, List.flatMap_def]
  exact List.sublist_flatten_of_mem (List.mem_map_of_mem encloses)

/-- The descendants of a place are reached by going from places to what is directly inside. -/
@[simp] theorem mem_descendants_iff (outer inner : Place) :
    inner ∈ outer.descendants ↔ TransGen Encloses outer inner := by
  constructor
  · intro member
    -- A child's descendants are fewer than those of the place that holds it.
    induction size : outer.descendants.length using Nat.strongRecOn generalizing outer with
    | _ n ih =>
      obtain ⟨child, encloses, same | below⟩ := (mem_descendants outer inner).mp member
      · exact same ▸ .single encloses
      · have shorter := (family_sublist encloses).length_le
        rw [List.length_cons] at shorter
        exact .head encloses (ih _ (by omega) child below rfl)
  · intro chain
    induction chain using TransGen.head_induction_on with
    | single encloses => exact (mem_descendants _ _).mpr ⟨_, encloses, .inl rfl⟩
    | head encloses _ ih => exact (mem_descendants _ _).mpr ⟨_, encloses, .inr ih⟩

theorem number_lt_of_encloses {outer inner : Place} (chain : TransGen Encloses outer inner) :
    outer.number < inner.number := by
  have member := List.mem_map_of_mem (f := number) ((mem_descendants_iff outer inner).mpr chain)
  rw [descendants_numbers, List.mem_range'_1] at member
  omega

@[simp] theorem mem_ancestors_iff (inner outer : Place) :
    outer ∈ inner.ancestors ↔ TransGen Holds outer inner := by
  induction inner with
  | document content =>
    simp only [ancestors, List.not_mem_nil, false_iff]
    intro chain
    obtain ⟨_, _, holds⟩ := TransGen.tail'_iff.mp chain
    cases holds
  | inside parent number node ih =>
    have up : Holds parent (inside parent number node) := rfl
    rw [ancestors, List.mem_cons, ih]
    constructor
    · intro found
      rcases found with rfl | chain
      · exact .single up
      · exact chain.tail up
    · intro chain
      obtain ⟨middle, reach, holds⟩ := TransGen.tail'_iff.mp chain
      cases holds
      rcases Relation.reflTransGen_iff_eq_or_transGen.mp reach with same | chain
      · exact .inl same.symm
      · exact .inr chain

end Place

namespace Document

open Place

/-- Numbers count the places of a document, itself first. -/
@[simp] theorem places_numbers (document : Document) :
    document.places.map number = List.range document.places.length := by
  have inner := descendants_numbers document.root
  have length := congrArg List.length inner
  rw [List.length_map, List.length_range'] at length
  rw [places, List.map_cons, inner, List.length_cons, length, List.range_eq_range', List.range'_succ]
  rfl

theorem number_injective (document : Document) {a b : Place} (ha : a ∈ document.places)
    (hb : b ∈ document.places) (same : a.number = b.number) : a = b := by
  have distinct : (document.places.map number).Nodup := by
    rw [places_numbers]
    exact List.nodup_range
  exact List.inj_on_of_nodup_map distinct ha hb same

@[simp] theorem mem_places_iff (document : Document) (place : Place) :
    place ∈ document.places ↔ ReflTransGen Encloses document.root place := by
  rw [places, List.mem_cons, mem_descendants_iff, Relation.reflTransGen_iff_eq_or_transGen]

theorem root_mem (document : Document) : document.root ∈ document.places := List.mem_cons_self

theorem mem_of_encloses {document : Document} {outer inner : Place}
    (member : outer ∈ document.places) (encloses : Encloses outer inner) :
    inner ∈ document.places := by
  rw [mem_places_iff] at member ⊢
  exact member.tail encloses

theorem encloses_of_holds {document : Document} {outer inner : Place}
    (member : inner ∈ document.places) (holds : Holds outer inner) :
    outer ∈ document.places ∧ Encloses outer inner := by
  rw [mem_places_iff] at member
  cases member with
  | refl => cases holds
  | @tail middle _ reach encloses =>
    have same : middle = outer := Option.some.inj (encloses.holds.symm.trans holds)
    subst same
    exact ⟨(mem_places_iff _ _).mpr reach, encloses⟩

theorem encloses_iff_holds {document : Document} {outer inner : Place}
    (member : inner ∈ document.places) : Encloses outer inner ↔ Holds outer inner :=
  ⟨Encloses.holds, fun holds => (encloses_of_holds member holds).2⟩

theorem chain_of_holds {document : Document} {outer inner : Place}
    (member : inner ∈ document.places) (chain : TransGen Holds outer inner) :
    outer ∈ document.places ∧ TransGen Encloses outer inner := by
  induction chain with
  | single holds =>
    obtain ⟨above, encloses⟩ := encloses_of_holds member holds
    exact ⟨above, .single encloses⟩
  | tail _ holds ih =>
    obtain ⟨above, encloses⟩ := encloses_of_holds member holds
    obtain ⟨top, chain⟩ := ih above
    exact ⟨top, chain.tail encloses⟩

theorem mem_of_chain {document : Document} {outer inner : Place}
    (member : outer ∈ document.places) (chain : TransGen Encloses outer inner) :
    inner ∈ document.places := by
  rw [mem_places_iff] at member ⊢
  exact member.trans chain.to_reflTransGen

theorem root_of_mem {document : Document} {place : Place} (member : place ∈ document.places) :
    place.root = document.root := by
  rw [mem_places_iff] at member
  induction member with
  | refl => rfl
  | @tail outer inner _ encloses ih =>
    cases inner with
    | document content => cases encloses.holds
    | inside parent number node =>
      cases encloses.holds
      exact ih

theorem node_of_inherited {holds : Node → Prop} {document : Document} {place : Place} {node : Node}
    (inherited : ∀ {node : Node}, holds node → ∀ inner ∈ node.content, holds inner)
    (outermost : ∀ node ∈ document.content, holds node) (member : place ∈ document.places)
    (found : place.node? = some node) : holds node := by
  have both : (∀ inner ∈ place.content, holds inner) ∧
      ∀ node, place.node? = some node → holds node := by
    clear found
    rw [mem_places_iff] at member
    induction member with
    | refl =>
      refine ⟨outermost, ?_⟩
      rintro node ⟨⟩
    | @tail outer inner _ encloses ih =>
      obtain ⟨other, among, same⟩ := numbered_node encloses
      have kept := ih.1 other among
      cases inner with
      | document content => cases same
      | inside parent number node =>
        cases same
        refine ⟨inherited kept, ?_⟩
        rintro _ ⟨⟩
        exact kept
  exact both.2 node found

end Document
end Regesta.Xml
