import Regesta.Proofs.Path.Selection

namespace Regesta

open Xml (Document Node Place)
open Relation (TransGen)

theorem dropWhile_of_pairwise {α : Type} {before : α → α → Prop} [DecidableRel before]
    (asymm : ∀ a b, before a b → ¬ before b a) {items : List α} {item : α}
    (ordered : items.Pairwise before) (member : item ∈ items) :
    items.dropWhile (fun other => before other item) =
      item :: items.filter fun other => before item other := by
  have irreflexive : ¬ before item item := fun itself => asymm item item itself itself
  induction items with
  | nil => cases member
  | cons first rest ih =>
    obtain ⟨later, ordered⟩ := List.pairwise_cons.mp ordered
    rcases List.mem_cons.mp member with rfl | inside
    · have kept : (rest.filter fun other => before item other) = rest := by
        simpa using later
      rw [List.dropWhile_cons_of_neg (by simpa using irreflexive),
        List.filter_cons_of_neg (by simpa using irreflexive), kept]
    · have early := later item inside
      have after := asymm first item early
      rw [List.dropWhile_cons_of_pos (by simpa using early),
        List.filter_cons_of_neg (by simpa using after), ih ordered inside]

/-- A walk over the neighbours after a place begins at the place itself. -/
def Xml.Place.onward : Place → List Place
  | .document content => [.document content]
  | .inside parent number _ => parent.children.dropWhile fun other => other.number < number

/-- A walk over the neighbours before a place begins at the place itself. -/
def Xml.Place.backward : Place → List Place
  | .document content => [.document content]
  | .inside parent number _ =>
    parent.children.reverse.dropWhile fun other => number < other.number

section

variable {document : Document} {place : Place}

theorem Xml.Place.onward_eq (member : place ∈ document.places) :
    place.onward = place :: place.following := by
  cases place with
  | document content => rfl
  | inside parent number node =>
    have up : parent.Holds (.inside parent number node) := rfl
    have inside := (Document.encloses_iff_holds member).mpr up
    have asymm : ∀ a b : Place, a.number < b.number → ¬ b.number < a.number := by omega
    exact dropWhile_of_pairwise asymm parent.children_ordered inside

theorem Xml.Place.backward_eq (member : place ∈ document.places) :
    place.backward = place :: place.preceding := by
  cases place with
  | document content => rfl
  | inside parent number node =>
    have up : parent.Holds (.inside parent number node) := rfl
    have inside := (Document.encloses_iff_holds member).mpr up
    have asymm : ∀ a b : Place, b.number < a.number → ¬ a.number < b.number := by omega
    have ordered := List.pairwise_reverse.mpr parent.children_ordered
    rw [preceding, ← List.filter_reverse]
    exact dropWhile_of_pairwise asymm ordered (List.mem_reverse.mpr inside)

end

namespace Axis

theorem descendant_places (place : Place) :
    descendant.places place = (descendantOrSelf.places place).tail := rfl

theorem ancestor_places (place : Place) :
    ancestor.places place = (ancestorOrSelf.places place).tail := rfl

theorem followingSibling_places {document : Document} {place : Place}
    (member : place ∈ document.places) : followingSibling.places place = place.onward.tail := by
  rw [Place.onward_eq member]
  rfl

theorem precedingSibling_places {document : Document} {place : Place}
    (member : place ∈ document.places) : precedingSibling.places place = place.backward.tail := by
  rw [Place.backward_eq member]
  rfl

theorem find?_places (place : Place) (tag : String) :
    place.find? tag = (descendantOrSelf.places place).tail.find? fun other =>
      other.isElement && other.tag == tag := rfl

def inverse : Axis → Axis
  | child => parent
  | descendant => ancestor
  | descendantOrSelf => ancestorOrSelf
  | self => self
  | parent => child
  | ancestor => descendant
  | ancestorOrSelf => descendantOrSelf
  | followingSibling => precedingSibling
  | precedingSibling => followingSibling

theorem siblings_comm (a b : Place) :
    (∃ parent : Place, parent.Holds a ∧ parent.Holds b) ↔
      ∃ parent : Place, parent.Holds b ∧ parent.Holds a :=
  exists_congr fun _ => and_comm

@[simp] theorem joins_inverse (axis : Axis) (origin place : Place) :
    axis.inverse.Joins place origin ↔ axis.Joins origin place := by
  cases axis with
  | self => exact eq_comm
  | followingSibling => exact and_congr_left fun _ => siblings_comm place origin
  | precedingSibling => exact and_congr_left fun _ => siblings_comm place origin
  | _ => exact Iff.rfl

theorem not_holds_itself {document : Document} {place : Place} (member : place ∈ document.places) :
    ¬ TransGen Place.Holds place place := by
  intro chain
  have lower := Place.number_lt_of_encloses (Document.chain_of_holds member chain).2
  omega

theorem joins_itself_iff {document : Document} {place : Place} (member : place ∈ document.places)
    (axis : Axis) : axis.Joins place place ↔ axis ∈ [self, descendantOrSelf, ancestorOrSelf] := by
  have apart := not_holds_itself member
  have direct : ¬ place.Holds place := fun holds => apart (.single holds)
  cases axis with
  | child => simpa [Joins] using direct
  | descendant => simpa [Joins] using apart
  | descendantOrSelf => simpa [Joins] using Relation.ReflTransGen.refl
  | self => simp [Joins]
  | parent => simpa [Joins] using direct
  | ancestor => simpa [Joins] using apart
  | ancestorOrSelf => simpa [Joins] using Relation.ReflTransGen.refl
  | followingSibling => simp [Joins]
  | precedingSibling => simp [Joins]

theorem mem_places_inverse_iff {document : Document} {origin place : Place}
    (start : origin ∈ document.places) (member : place ∈ document.places) (axis : Axis) :
    place ∈ axis.places origin ↔ origin ∈ axis.inverse.places place := by
  rw [mem_places_iff start, mem_places_iff member, joins_inverse]
  exact ⟨fun ⟨_, joins⟩ => ⟨start, joins⟩, fun ⟨_, joins⟩ => ⟨member, joins⟩⟩

theorem places_nodup {document : Document} {origin : Place} (member : origin ∈ document.places)
    (axis : Axis) : (axis.places origin).Nodup := by
  apply (axis.places_ordered member).imp
  rintro a _ nearer rfl
  exact nearer.asymm nearer

/-- An axis lists what it joins to a place, each once, and leads back along its inverse. Its places
stand in document order on forward axes and against it on the others, and the place itself is among
them only where the axis is named so. -/
theorem places_consistent {document : Document} {origin place : Place}
    (start : origin ∈ document.places) (member : place ∈ document.places) :
    (∀ axis : Axis, place ∈ axis.places origin ↔ axis.Joins origin place) ∧
    (∀ axis : Axis, place ∈ axis.places origin ↔ origin ∈ axis.inverse.places place) ∧
    (∀ axis : Axis, (axis.places origin).Nodup) ∧
    (∀ axis ∈ [child, descendant, descendantOrSelf, followingSibling],
      (axis.places origin).Pairwise fun a b => a.number < b.number) ∧
    (∀ axis ∈ [parent, ancestor, ancestorOrSelf, precedingSibling],
      (axis.places origin).Pairwise fun a b => b.number < a.number) ∧
    ∀ axis : Axis, origin ∈ axis.places origin ↔ axis ∈ [self, descendantOrSelf, ancestorOrSelf] := by
  have joined : ∀ axis : Axis, ∀ other ∈ document.places,
      other ∈ axis.places origin ↔ axis.Joins origin other := by
    intro axis other placed
    rw [mem_places_iff start]
    exact and_iff_right placed
  refine ⟨fun axis => joined axis place member, mem_places_inverse_iff start member,
    places_nodup start, ?_, ?_, ?_⟩
  · intro axis among
    have forward : ∀ axis ∈ [child, descendant, descendantOrSelf, followingSibling],
        axis.isReverse = false := by decide
    exact forward_ordered start (forward axis among)
  · intro axis among
    have backward : ∀ axis ∈ [parent, ancestor, ancestorOrSelf, precedingSibling],
        axis.isReverse = true := by decide
    exact reverse_ordered start (backward axis among)
  · intro axis
    rw [joined axis origin start, joins_itself_iff start]

/-- An element between a text and a remark, and the remark before it: the places before a sibling are
listed from there on back. -/
theorem places_consistent_remark :
    let middle : Node := .element ⟨none, "b"⟩ [] none [.text "2"]
    let outer : Node := .element ⟨none, "a"⟩ [] none
      [.text "1", .comment "note", middle, .instruction "target" "value"]
    let document : Document := ⟨[outer]⟩
    let whole : Place := .inside document.root 1 outer
    let remark : Place := .inside whole 3 (.comment "note")
    let place : Place := .inside whole 4 middle
    place ∈ document.places ∧ remark ∈ document.places ∧
      (precedingSibling.places place).map Place.number = [3, 2] ∧
      remark ∈ precedingSibling.places place ∧ place ∈ followingSibling.places remark ∧
      (precedingSibling.places place).Pairwise fun a b => b.number < a.number := by
  intro middle outer document whole remark place
  have above : whole ∈ document.places :=
    Document.mem_of_encloses document.root_mem List.mem_cons_self
  have first : remark ∈ document.places :=
    Document.mem_of_encloses above (List.mem_cons_of_mem _ List.mem_cons_self)
  have second : place ∈ document.places :=
    Document.mem_of_encloses above
      (List.mem_cons_of_mem _ (List.mem_cons_of_mem _ List.mem_cons_self))
  obtain ⟨joined, back, _, _, backward, _⟩ := places_consistent second first
  have before : remark ∈ precedingSibling.places place :=
    (joined precedingSibling).mpr ⟨⟨whole, rfl, rfl⟩, by decide⟩
  exact ⟨second, first, by rfl, before, (back precedingSibling).mp before,
    backward precedingSibling (by decide)⟩

end Axis
end Regesta
