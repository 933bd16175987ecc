import Regesta.Proofs.Path.Reading

namespace Regesta

open Text (trim)

namespace Path

inductive LabelUse where
  | test (label : String)
  | name (label : String)
  /-- A test of a child is a whole predicate. -/
  | child (label body : String)
  deriving DecidableEq, Repr

namespace LabelUse

def label : LabelUse → String
  | test label => label
  | name label => label
  | child label _ => label

def refusal (path : String) : LabelUse → Error
  | test label => .unboundLabel label
  | name label => .unboundLabel label
  | child _ body => .invalidPath path (.predicate body)

end LabelUse

def labelOf? (text : List Char) : Option String :=
  (Text.splitFirst [':'] text).map fun parts => String.ofList parts.1

/-- The label in the name of an attribute. There is none with the namespace itself. -/
def attributeLabel? (name : List Char) : Option String :=
  match name with
  | '{' :: _ => none
  | _ => labelOf? name

def bodyUses (body : List Char) : List LabelUse :=
  match body with
  | '@' :: rest =>
    ((attributeParts? rest).bind fun parts => attributeLabel? parts.1).toList.map .name
  | _ => (labelOf? body).toList.map fun label => .child label (String.ofList body)

def testText (front : List Char) : List Char :=
  match Text.splitFirst [':', ':'] front with
  | none => trim front
  | some (_, test) => trim test

def stepUses (segment : List Char) : List LabelUse :=
  let (front, rest) := segment.span (· ≠ '[')
  (labelOf? (testText front)).toList.map .test ++
    (predicateBodies rest).1.flatMap fun body => bodyUses (trim body)

def labelUses (text : List Char) : List LabelUse :=
  match segments 0 none text with
  | .ok parts => (parts.map trim).flatMap stepUses
  | .error _ => []

theorem label_within {text : List Char} {label : String} (found : labelOf? text = some label) :
    label.toList ++ [':'] <:+: text := by
  obtain ⟨⟨before, after⟩, cut, same⟩ := Option.map_eq_some_iff.mp found
  subst same
  rw [String.toList_ofList, Text.splitFirst_sound cut]
  exact (List.prefix_append _ _).isInfix

theorem bodyUses_within {body : List Char} :
    ∀ use ∈ bodyUses body, use.label.toList ++ [':'] <:+: body := by
  intro use member
  unfold bodyUses at member
  split at member
  · next rest =>
    obtain ⟨label, found, rfl⟩ := List.mem_map.mp member
    obtain ⟨⟨name, value⟩, parts, found⟩ := Option.bind_eq_some_iff.mp (Option.mem_toList.mp found)
    have inside : name <+: rest := by
      cases attributeParts?_sound parts with
      | alone => exact List.prefix_append _ _
      | compared =>
        simp only [List.append_assoc]
        exact List.prefix_append _ _
    unfold attributeLabel? at found
    split at found
    · cases found
    · exact (label_within found).trans (inside.isInfix.trans (List.suffix_cons _ _).isInfix)
  · obtain ⟨label, found, rfl⟩ := List.mem_map.mp member
    exact label_within (Option.mem_toList.mp found)

theorem testText_within (front : List Char) : testText front <:+: front := by
  unfold testText
  split
  · exact Text.trim_within front
  · next name back cut =>
    rw [Text.splitFirst_sound cut]
    exact (Text.trim_within back).trans (List.suffix_append _ _).isInfix

theorem stepUses_within {segment : List Char} :
    ∀ use ∈ stepUses segment, use.label.toList ++ [':'] <:+: segment := by
  intro use member
  unfold stepUses at member
  generalize cut : segment.span (· ≠ '[') = spanned at member
  obtain ⟨front, rest⟩ := spanned
  obtain ⟨rfl, _⟩ := Text.span_sound cut
  rcases List.mem_append.mp member with test | predicate
  · obtain ⟨label, found, rfl⟩ := List.mem_map.mp test
    have inside := (label_within (Option.mem_toList.mp found)).trans (testText_within front)
    exact inside.trans (List.prefix_append _ _).isInfix
  · obtain ⟨body, among, used⟩ := List.mem_flatMap.mp predicate
    have inside := (bodyUses_within use used).trans (Text.trim_within body)
    exact (inside.trans ((bodies_within rest).1 body among)).trans (List.suffix_append _ _).isInfix

theorem labelUses_within {text : List Char} :
    ∀ use ∈ labelUses text, use.label.toList ++ [':'] <:+: text := by
  intro use member
  unfold labelUses at member
  split at member
  · next parts cut =>
    obtain ⟨segment, among, used⟩ := List.mem_flatMap.mp member
    obtain ⟨part, cutOff, rfl⟩ := List.mem_map.mp among
    have inside := (stepUses_within use used).trans (Text.trim_within part)
    rw [← (segments_join cut).2]
    exact inside.trans (Text.intercalate_within ['/'] part cutOff)
  · cases member

end Path
end Regesta
