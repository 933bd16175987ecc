import Regesta.Proofs.Text.Split
import Regesta.Xml.Reader

namespace Regesta.Xml

structure IsNCName (text : List Char) : Prop where
  starts : startsName text = true
  characters : ∀ c ∈ text, isNameChar c = true
  plain : ':' ∉ text

theorem writtenName?_stem {text rest : List Char} {name : WrittenName}
    (read : writtenName? text = some (name, rest)) : IsNCName name.stem := by
  rw [writtenName?] at read
  split at read
  next written back cut =>
  have proper : ∀ stem ∈ Text.splitEvery ':' written, startsName stem = true → IsNCName stem := by
    intro stem part starts
    refine ⟨starts, ?_, Text.splitEvery_fresh ':' written stem part⟩
    intro c member
    exact (Text.span_sound cut).2.1 c (Text.splitEvery_subset ':' written stem part member)
  split at read
  · next stem parts =>
    obtain ⟨starts, same⟩ := Option.ite_none_right_eq_some.mp read
    cases same
    exact proper stem (by simp [parts]) starts
  · next label stem parts =>
    obtain ⟨starts, same⟩ := Option.ite_none_right_eq_some.mp read
    cases same
    exact proper stem (by simp [parts]) (Bool.and_eq_true_iff.mp starts).2
  · cases read

theorem writtenAttribute?_stem {text rest : List Char} {name : WrittenName} {value : List Char}
    (read : writtenAttribute? text = some ((name, value), rest)) : IsNCName name.stem := by
  obtain ⟨⟨_, _⟩, named, read⟩ := Option.bind_eq_some_iff.mp read
  obtain ⟨_, _, read⟩ := Option.bind_eq_some_iff.mp read
  obtain ⟨⟨_, _⟩, _, same⟩ := Option.bind_eq_some_iff.mp read
  cases same
  exact writtenName?_stem named

namespace TagAttributes

def Proper (tag : TagAttributes) : Prop := ∀ entry ∈ tag.written, IsNCName entry.1.stem

theorem empty_proper : empty.Proper := by simp [Proper, empty]

theorem Proper.add? {tag after : TagAttributes} {name : WrittenName} {value : String}
    (proper : tag.Proper) (named : IsNCName name.stem) (added : tag.add? name value = some after) :
    after.Proper := by
  unfold TagAttributes.add? at added
  split at added
  · obtain ⟨_, added⟩ := Option.ite_none_left_eq_some.mp added
    split at added
    · obtain ⟨_, same⟩ := Option.ite_none_right_eq_some.mp added
      cases same
      exact proper
    · obtain ⟨_, added⟩ := Option.ite_none_left_eq_some.mp added
      obtain ⟨_, same⟩ := Option.ite_none_left_eq_some.mp added
      cases same
      exact proper
  · split at added
    · obtain ⟨_, same⟩ := Option.ite_none_left_eq_some.mp added
      cases same
      exact proper
    · cases added
      intro entry member
      rcases List.mem_append.mp member with earlier | new
      · exact proper entry earlier
      · rw [List.mem_singleton.mp new]
        exact named

end TagAttributes

theorem tagAttributes?_proper {scope : Scope} {fuel count counted : Nat} {tag after : TagAttributes}
    {tagEnd : TagEnd} {text rest : List Char} (proper : tag.Proper)
    (read : tagAttributes? scope fuel count tag text = some ((after, tagEnd, counted), rest)) :
    after.Proper := by
  induction fuel generalizing count tag text with
  | zero => cases read
  | succ fuel ih =>
    cases text with
    | nil =>
      cases read
      exact proper
    | cons c text =>
      rw [tagAttributes?] at read
      · split at read
        · cases read
          exact proper
        · cases read
          exact proper
        · obtain ⟨_, read⟩ := Option.ite_none_left_eq_some.mp read
          obtain ⟨⟨⟨_, _⟩, _⟩, written, read⟩ := Option.bind_eq_some_iff.mp read
          obtain ⟨⟨_, _⟩, _, read⟩ := Option.bind_eq_some_iff.mp read
          obtain ⟨next, added, read⟩ := Option.bind_eq_some_iff.mp read
          exact ih (proper.add? (writtenAttribute?_stem written) added) read
      · simp

theorem attributeName?_stem {bindings : Bindings} {written : WrittenName} {name : ExpandedName}
    (resolved : attributeName? bindings written = some name) :
    name.localName.toList = written.stem := by
  rw [attributeName?] at resolved
  split at resolved
  · cases resolved
    exact String.toList_ofList
  · split at resolved
    · cases resolved
      exact String.toList_ofList
    · obtain ⟨uri, _, rfl⟩ := Option.map_eq_some_iff.mp resolved
      exact String.toList_ofList

theorem elementName?_stem {bindings : Bindings} {written : WrittenName} {name : ExpandedName}
    (resolved : elementName? bindings written = some name) :
    name.localName.toList = written.stem := by
  rw [elementName?] at resolved
  split at resolved
  · cases resolved
    exact String.toList_ofList
  · obtain ⟨uri, _, rfl⟩ := Option.map_eq_some_iff.mp resolved
    exact String.toList_ofList

theorem resolveAttributes?_named {bindings : Bindings} {written : List (WrittenName × String)}
    {attributes resolved : List Attribute}
    (proper : ∀ entry ∈ written, IsNCName entry.1.stem)
    (before : ∀ entry ∈ attributes, IsNCName entry.name.localName.toList)
    (read : resolveAttributes? bindings written attributes = some resolved) :
    ∀ entry ∈ resolved, IsNCName entry.name.localName.toList := by
  induction written generalizing attributes with
  | nil =>
    cases read
    exact before
  | cons first rest ih =>
    obtain ⟨named, later⟩ := List.forall_mem_cons.mp proper
    obtain ⟨name, expanded, read⟩ := Option.bind_eq_some_iff.mp read
    obtain ⟨_, read⟩ := Option.ite_none_left_eq_some.mp read
    apply ih later ?_ read
    intro entry member
    rcases List.mem_append.mp member with earlier | new
    · exact before entry earlier
    · rw [List.mem_singleton.mp new, attributeName?_stem expanded]
      exact named

end Regesta.Xml
