import Regesta.Proofs.Text.Split
import Regesta.Xml.Prolog

namespace Regesta

theorem Text.splitFirst_suffix {separator text before after : List Char}
    (cut : splitFirst separator text = some (before, after)) : after <:+ text :=
  ⟨_, (splitFirst_sound cut).symm⟩

theorem Text.span_suffix {kind : Char → Bool} {text front back : List Char}
    (cut : text.span kind = (front, back)) : back <:+ text :=
  ⟨_, (span_sound cut).1.symm⟩

theorem Text.isPrefixOf?_sound {front text rest : List Char}
    (found : front.isPrefixOf? text = some rest) : front ++ rest = text := by
  induction front generalizing text with
  | nil =>
    cases found
    rfl
  | cons c front ih =>
    cases text with
    | nil => cases found
    | cons d text =>
      change (if c == d then front.isPrefixOf? text else none) = some rest at found
      obtain ⟨same, found⟩ := Option.ite_none_right_eq_some.mp found
      rw [List.cons_append, ih found, eq_of_beq same]

namespace Xml

theorem skipSpaces_suffix (text : List Char) : skipSpaces text <:+ text :=
  List.dropWhile_suffix _

theorem exactly?_suffix {expected : String} {text rest : List Char}
    (read : exactly? expected text = some rest) : rest <:+ text :=
  ⟨_, Text.isPrefixOf?_sound read⟩

theorem name?_suffix {text name rest : List Char} (read : name? text = some (name, rest)) :
    rest <:+ text := by
  cases text with
  | nil => cases read
  | cons c text =>
    rw [name?] at read
    split at read
    · exact Text.span_suffix (Option.some.inj read)
    · cases read

theorem writtenName?_suffix {text rest : List Char} {name : WrittenName}
    (read : writtenName? text = some (name, rest)) : rest <:+ text := by
  rw [writtenName?] at read
  split at read
  next written back cut =>
  have kept : back = rest := by
    split at read
    · obtain ⟨_, same⟩ := Option.ite_none_right_eq_some.mp read
      cases same
      rfl
    · obtain ⟨_, same⟩ := Option.ite_none_right_eq_some.mp read
      cases same
      rfl
    · cases read
  rw [← kept]
  exact Text.span_suffix cut

theorem quoted?_suffix {text value rest : List Char} (read : quoted? text = some (value, rest)) :
    rest <:+ text := by
  cases text with
  | nil => cases read
  | cons c text =>
    rw [quoted?] at read
    split at read
    · exact (Text.splitFirst_suffix read).trans (List.suffix_cons _ _)
    · cases read

theorem equals?_suffix {text rest : List Char} (read : equals? text = some rest) :
    rest <:+ text := by
  rw [equals?] at read
  split at read
  · next inner skipped =>
    cases read
    have shorter : inner <:+ text :=
      (List.suffix_cons _ _).trans (skipped ▸ skipSpaces_suffix text)
    exact (skipSpaces_suffix inner).trans shorter
  · cases read

theorem attributeValue?_suffix {text value rest : List Char}
    (read : attributeValue? text = some (value, rest)) : rest <:+ text := by
  obtain ⟨⟨_, _⟩, quoted, kept⟩ := Option.bind_eq_some_iff.mp read
  obtain ⟨_, same⟩ := Option.ite_none_right_eq_some.mp kept
  cases same
  exact quoted?_suffix quoted

theorem writtenAttribute?_suffix {text rest : List Char} {found : WrittenName × List Char}
    (read : writtenAttribute? text = some (found, rest)) : rest <:+ text := by
  obtain ⟨⟨_, afterName⟩, named, read⟩ := Option.bind_eq_some_iff.mp read
  obtain ⟨afterSign, signed, read⟩ := Option.bind_eq_some_iff.mp read
  obtain ⟨⟨_, _⟩, valued, kept⟩ := Option.bind_eq_some_iff.mp read
  cases kept
  exact ((attributeValue?_suffix valued).trans (equals?_suffix signed)).trans
    (writtenName?_suffix named)

theorem terminated_suffix {first reference : Reference} {back rest : List Char}
    (read : (match back with
      | ';' :: rest => some (first, rest)
      | _ => none) = some (reference, rest)) : rest <:+ back := by
  split at read <;> cases read
  exact List.suffix_cons _ _

theorem reference?_suffix {text rest : List Char} {reference : Reference}
    (read : reference? text = some (reference, rest)) : rest <:+ text := by
  unfold reference? at read
  split at read
  · obtain ⟨_, referred, terminated⟩ := Option.bind_eq_some_iff.mp read
    obtain ⟨_, _, rfl⟩ := Option.map_eq_some_iff.mp referred
    have digits := (terminated_suffix terminated).trans (Text.span_suffix rfl)
    exact digits.trans ((List.suffix_cons _ _).trans (List.suffix_cons _ _))
  · obtain ⟨_, referred, terminated⟩ := Option.bind_eq_some_iff.mp read
    obtain ⟨_, _, rfl⟩ := Option.map_eq_some_iff.mp referred
    have digits := (terminated_suffix terminated).trans (Text.span_suffix rfl)
    exact digits.trans (List.suffix_cons _ _)
  · obtain ⟨⟨_, _⟩, named, read⟩ := Option.bind_eq_some_iff.mp read
    have behind := name?_suffix named
    simp only at read
    split at read
    · exact (terminated_suffix read).trans behind
    · exact (terminated_suffix read).trans behind

theorem comment?_suffix {text value rest : List Char} (read : comment? text = some (value, rest)) :
    rest <:+ text := by
  obtain ⟨⟨_, _⟩, cut, kept⟩ := Option.bind_eq_some_iff.mp read
  obtain ⟨_, same⟩ := Option.ite_none_right_eq_some.mp kept
  cases same
  exact Text.splitFirst_suffix cut

theorem instruction?_suffix {text rest : List Char} {instruction : List Char × List Char}
    (read : instruction? text = some (instruction, rest)) : rest <:+ text := by
  rw [instruction?] at read
  obtain ⟨_, read⟩ := Option.ite_none_left_eq_some.mp read
  obtain ⟨⟨_, _⟩, named, read⟩ := Option.bind_eq_some_iff.mp read
  obtain ⟨⟨_, _⟩, cut, kept⟩ := Option.bind_eq_some_iff.mp read
  obtain ⟨_, same⟩ := Option.ite_none_right_eq_some.mp kept
  cases same
  have behind := (name?_suffix named).trans (List.drop_suffix 2 text)
  exact (Text.splitFirst_suffix cut).trans ((skipSpaces_suffix _).trans behind)

theorem section?_suffix {text value rest : List Char} (read : section? text = some (value, rest)) :
    rest <:+ text := by
  obtain ⟨⟨_, _⟩, cut, kept⟩ := Option.bind_eq_some_iff.mp read
  obtain ⟨_, same⟩ := Option.ite_none_right_eq_some.mp kept
  cases same
  exact Text.splitFirst_suffix cut

theorem declarationSpaces?_suffix {text rest : List Char}
    (read : declarationSpaces? text = some rest) : rest <:+ text := by
  rw [declarationSpaces?] at read
  repeat' split at read
  all_goals cases read
  · exact skipSpaces_suffix text
  · exact List.suffix_refl _

theorem declared?_suffix {name : String} {text rest : List Char}
    (read : declared? name text = some rest) : rest <:+ text := by
  rw [declared?] at read
  split at read
  · obtain ⟨⟨_, _⟩, written, rfl⟩ := Option.map_eq_some_iff.mp read
    exact writtenAttribute?_suffix written
  · cases read
    exact List.suffix_refl _

theorem declaration?_suffix {text rest : List Char} (read : declaration? text = some rest) :
    rest <:+ text := by
  obtain ⟨inner, opened, read⟩ := Option.bind_eq_some_iff.mp read
  obtain ⟨_, read⟩ := Option.ite_none_right_eq_some.mp read
  obtain ⟨afterVersion, versioned, read⟩ := Option.bind_eq_some_iff.mp read
  obtain ⟨beforeEncoding, spaced, read⟩ := Option.bind_eq_some_iff.mp read
  obtain ⟨afterEncoding, encoded, read⟩ := Option.bind_eq_some_iff.mp read
  have start := (skipSpaces_suffix inner).trans (exactly?_suffix opened)
  have front := (declarationSpaces?_suffix spaced).trans
    ((declared?_suffix versioned).trans start)
  have finish : ∀ {middle}, middle <:+ text → ((declared? "standalone" middle).bind fun rest =>
      exactly? "?>" (skipSpaces rest)) = some rest → rest <:+ text := by
    intro middle behind read
    obtain ⟨_, standing, closed⟩ := Option.bind_eq_some_iff.mp read
    exact (exactly?_suffix closed).trans ((skipSpaces_suffix _).trans
      ((declared?_suffix standing).trans behind))
  split at read
  · obtain ⟨_, again, read⟩ := Option.bind_eq_some_iff.mp read
    exact finish ((declarationSpaces?_suffix again).trans
      ((declared?_suffix encoded).trans front)) read
  · exact finish front read

theorem remark?_suffix {text rest : List Char} {remark : Remark}
    (read : remark? text = some (some (remark, rest))) : rest <:+ text := by
  rw [remark?] at read
  split at read
  · next inner opened =>
    obtain ⟨⟨_, _⟩, commented, same⟩ := Option.map_eq_some_iff.mp read
    cases same
    exact (comment?_suffix commented).trans (exactly?_suffix opened)
  · split at read
    · obtain ⟨⟨⟨_, _⟩, _⟩, instructed, same⟩ := Option.map_eq_some_iff.mp read
      cases same
      exact instruction?_suffix instructed
    · cases read

theorem remarks?_suffix {fuel : Nat} {text rest : List Char} {remarks : List Remark}
    (read : remarks? fuel text = some (remarks, rest)) : rest <:+ text := by
  induction fuel generalizing text remarks with
  | zero => cases read
  | succ fuel ih =>
    obtain ⟨found, looked, read⟩ := Option.bind_eq_some_iff.mp read
    cases found with
    | none =>
      cases read
      exact skipSpaces_suffix text
    | some found =>
      obtain ⟨⟨_, _⟩, others, kept⟩ := Option.bind_eq_some_iff.mp read
      cases kept
      exact (ih others).trans ((remark?_suffix looked).trans (skipSpaces_suffix text))

end Xml
end Regesta
