import Regesta.Proofs.Namespace

namespace Regesta.Namespaces

open Xml (ExpandedName)
open Text (Tight isBlank)

variable {namespaces : Namespaces} {name : ExpandedName}

@[simp] theorem render_plain (stem : List Char) :
    (ExpandedName.render ⟨none, String.ofList stem⟩).toList = stem := String.toList_ofList

@[simp] theorem render_braced (uri : String) (stem : List Char) :
    (ExpandedName.render ⟨some uri, String.ofList stem⟩).toList =
      '{' :: uri.toList ++ '}' :: stem := by
  simp [ExpandedName.render]

theorem spells_plain_iff {stem : List Char} (fits : IsLocal stem) :
    namespaces.Spells stem name ↔ name = ⟨none, String.ofList stem⟩ := by
  constructor
  · intro spells
    cases spells with
    | plain => rfl
    | labelled => exact absurd (by simp) (fits.not_mem (c := ':') rfl)
    | braced => exact absurd (by simp) (fits.not_mem (c := '{') rfl)
  · intro same
    exact same ▸ .plain fits

theorem spells_braced_iff {uri stem : List Char} (fits : IsLocal stem) :
    namespaces.Spells ('{' :: uri ++ '}' :: stem) name ↔
      name = ⟨some (String.ofList uri), String.ofList stem⟩ ∧ '}' ∉ uri := by
  constructor
  · intro spells
    generalize whole : '{' :: uri ++ '}' :: stem = text at spells
    cases spells with
    | plain other =>
      subst whole
      exact absurd (by simp) (other.not_mem (c := '{') rfl)
    | @labelled label _ _ bare =>
      cases label with
      | nil => cases whole
      | cons c rest =>
        have sign : '{' = c := (List.cons.inj whole).1
        exact absurd (sign ▸ rfl) bare
    | braced fresh other =>
      rw [List.cons_append, List.cons_append, List.cons_inj_right, eq_comm,
        List.append_cons_inj_of_notMem fresh (other.not_mem rfl)] at whole
      obtain ⟨rfl, _, rfl⟩ := whole
      exact ⟨rfl, fresh⟩
  · intro both
    exact both.1 ▸ .braced both.2 fits

theorem Spells.render_tight {text : List Char} (spells : namespaces.Spells text name)
    (tight : Tight text) : Tight name.render.toList := by
  cases spells with
  | plain => simpa using tight
  | @labelled label stem uri _ _ _ fits =>
    rw [render_braced]
    refine tight_braced fits.1 ?_
    intro c last
    apply tight.last c
    rw [List.getLast?_append, List.getLast?_cons_of_ne_nil fits.1, last]
    rfl
  | braced => simpa using tight

theorem Spells.render_spells_iff {text : List Char} (spells : namespaces.Spells text name)
    (other : Namespaces) (found : ExpandedName) :
    other.Spells name.render.toList found ↔
      found = name ∧ ∀ uri, name.uri = some uri → '}' ∉ uri.toList := by
  cases spells with
  | plain fits =>
    simp [spells_plain_iff fits]
  | labelled _ _ _ fits =>
    rw [render_braced, spells_braced_iff fits, String.ofList_toList]
    simp
  | braced fresh fits =>
    rw [render_braced, spells_braced_iff fits, String.ofList_toList]
    simp

theorem Spells.rendered {text : List Char} (spells : namespaces.Spells text name) :
    name.render.toList = text ∨
      ∃ label stem uri, text = label ++ ':' :: stem ∧
        namespaces.resolve (String.ofList label) = .ok uri ∧
        name.render.toList = '{' :: uri.toList ++ '}' :: stem := by
  cases spells with
  | plain => exact .inl (render_plain text)
  | @labelled label stem uri _ _ binds =>
    exact .inr ⟨label, stem, uri, rfl, (resolve_ok_iff _ _ _).mpr binds, render_braced uri stem⟩
  | @braced uri stem =>
    left
    simp

/-- What is printed of a name that was read is read as the same name, whatever is declared, unless
its namespace has a closing brace; then it is refused. It is what was read, blanks around it left
out, or says the namespace where that has a label. -/
theorem name_render_iff {text : String} (read : namespaces.name text = .ok name)
    (other : Namespaces) :
    (∀ found, other.name name.render = .ok found ↔
      found = name ∧ ∀ uri, name.uri = some uri → '}' ∉ uri.toList) ∧
    (name.render.toList = Text.trim text.toList ∨
      ∃ label stem uri, Text.trim text.toList = label ++ ':' :: stem ∧
        namespaces.resolve (String.ofList label) = .ok uri ∧
        name.render.toList = '{' :: uri.toList ++ '}' :: stem) := by
  have spells := (name_spelled_iff namespaces text name).mp read
  have tight := spells.render_tight (Text.tight_trim text.toList)
  refine ⟨?_, spells.rendered⟩
  intro found
  rw [name_spelled_iff, Text.trim_of_tight tight]
  exact spells.render_spells_iff other found

theorem name_render_signs :
    let spaced : ExpandedName := ⟨some " a:b/\x7bc ", "\tid"⟩
    let braced : ExpandedName := ⟨some "a\x7db", "id"⟩
    let namespaces : Namespaces := [("s", " a:b/\x7bc "), ("b", "a\x7db")]
    namespaces.name " s:\tid\n" = .ok spaced ∧ Namespaces.name [] spaced.render = .ok spaced ∧
      namespaces.name "b:id" = .ok braced ∧ namespaces.name braced.render ≠ .ok braced := by
  intro spaced braced namespaces
  have spacedRead : namespaces.name " s:\tid\n" = .ok spaced := by rfl
  have bracedRead : namespaces.name "b:id" = .ok braced := by rfl
  have again := ((name_render_iff spacedRead []).1 spaced).mpr ⟨rfl, by simp [spaced]⟩
  refine ⟨spacedRead, again, bracedRead, ?_⟩
  intro read
  have free := (((name_render_iff bracedRead namespaces).1 braced).mp read).2 _ rfl
  exact free (by decide)

end Regesta.Namespaces
