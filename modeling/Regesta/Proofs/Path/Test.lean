import Mathlib.Data.Bool.AllAny
import Regesta.Proofs.Namespace
import Regesta.Proofs.Text.Letter

namespace Regesta.Path

open Xml (ExpandedName)
open Text (Blanks Tight isBlank trim trimStart)
open Predicate (IsQuote)

def isNameCharacter (c : Char) : Bool :=
  Text.isLetter c || Text.isNumber c || c = '_' || c = '.' || c = '-'

theorem isName_characters {text : List Char} (named : isName text = true) :
    ∀ c ∈ text, isNameCharacter c = true := by
  cases text with
  | nil => cases named
  | cons first rest =>
    rw [isName, Bool.and_eq_true, List.all_eq_true] at named
    intro c member
    rcases List.mem_cons.mp member with rfl | member
    · have start := named.1
      rw [Bool.or_eq_true] at start
      rcases start with letter | underscore
      · simp [isNameCharacter, letter]
      · simp [isNameCharacter, underscore]
    · exact named.2 c member

def signs : List Char := ['\'', '"', '[', ']', '/', ':', '@', '*', '=', '(', ')']

theorem signs_apart : ∀ c ∈ signs, isNameCharacter c = false :=
  List.all_iff_forall_prop.mp (by decide)

theorem isName_fresh {text : List Char} (named : isName text = true) {c : Char}
    (sign : c ∈ signs) : c ∉ text := by
  intro member
  have apart := signs_apart c sign
  rw [isName_characters named c member] at apart
  cases apart

theorem isName_visible {text : List Char} (named : isName text = true) :
    ∀ c ∈ text, isBlank c = false := by
  intro c member
  by_contra blank
  rw [Bool.not_eq_false] at blank
  have character := isName_characters named c member
  have codes : c ≠ '_' ∧ c ≠ '.' ∧ c ≠ '-' := by
    refine ⟨?_, ?_, ?_⟩ <;> rintro rfl <;> exact absurd blank (by decide)
  simp [isNameCharacter, Text.isLetter_of_blank blank, Text.isNumber_of_blank blank, codes]
    at character

theorem isName_filled {text : List Char} (named : isName text = true) : text ≠ [] := by
  intro same
  subst same
  cases named

theorem cut_at_colon {before after : List Char} (fresh : ':' ∉ before) :
    Text.splitFirst [':'] (before ++ ':' :: after) = some (before, after) := by
  have found : Text.splitFirst [':'] (before ++ [':'] ++ after) = some (before, after) :=
    Text.splitFirst_complete fresh
  rwa [List.append_assoc, List.singleton_append] at found

theorem labelUri_ok_iff (namespaces : Namespaces) (path : String) (label : List Char)
    (uri : String) :
    labelUri namespaces path label = .ok uri ↔ isName label = true ∧ namespaces.Binds label uri := by
  unfold labelUri
  split
  next named =>
    rw [Namespaces.resolve_ok_iff]
    exact ⟨fun binds => ⟨named, binds⟩, And.right⟩
  next other =>
    constructor
    · intro refused; cases refused
    · intro both; exact absurd both.1 other

theorem nodeTest_sound {namespaces : Namespaces} {path : String} {text : List Char}
    {test : NodeTest} (read : nodeTest namespaces path text = .ok test) :
    test.Spells namespaces text := by
  unfold nodeTest at read
  by_cases any : text = ['*']
  · rw [if_pos any] at read
    cases read
    exact any ▸ .element
  rw [if_neg any] at read
  by_cases node : text = "node()".toList
  · rw [if_pos node] at read
    cases read
    exact node ▸ .node
  rw [if_neg node] at read
  by_cases words : text = "text()".toList
  · rw [if_pos words] at read
    cases read
    exact words ▸ .text
  rw [if_neg words] at read
  split at read
  next label stem cut =>
    obtain ⟨uri, labelled, rest⟩ := bind_ok_iff.mp read
    obtain ⟨named, binds⟩ := (labelUri_ok_iff _ _ _ _).mp labelled
    have parts := Text.splitFirst_sound cut
    rw [List.append_assoc, List.singleton_append] at parts
    subst parts
    split at rest
    · next star =>
      cases rest
      exact star ▸ .within named binds
    · split at rest
      · next stemNamed =>
        cases rest
        exact .name named binds stemNamed
      · cases rest
  next =>
    split at read
    · next named =>
      cases read
      exact .tag named
    · cases read

theorem ne_of_sign {c : Char} {text other : List Char} (member : c ∈ text) (fresh : c ∉ other) :
    text ≠ other := by
  intro same
  subst same
  exact fresh member

theorem nodeTest_labelled {namespaces : Namespaces} {path : String} {label stem : List Char}
    {uri : String} (named : isName label = true) (binds : namespaces.Binds label uri) :
    nodeTest namespaces path (label ++ ':' :: stem) =
      if stem = ['*'] then .ok (.within uri)
      else if isName stem then .ok (.name uri (String.ofList stem))
      else refuse path (.nodeTest (String.ofList (label ++ ':' :: stem))) := by
  have colon : ':' ∈ label ++ ':' :: stem := by simp
  have resolved := (labelUri_ok_iff namespaces path label uri).mpr ⟨named, binds⟩
  unfold nodeTest
  rw [if_neg (ne_of_sign colon (by decide)), if_neg (ne_of_sign colon (by decide)),
    if_neg (ne_of_sign colon (by decide)), cut_at_colon (isName_fresh named (by decide))]
  simp only [resolved]
  rfl

theorem nodeTest_complete {namespaces : Namespaces} {text : List Char} {test : NodeTest}
    (spells : test.Spells namespaces text) (path : String) :
    nodeTest namespaces path text = .ok test := by
  cases spells with
  | element => rfl
  | node => rfl
  | text => rfl
  | tag named =>
    have star : text ≠ ['*'] := fun same => absurd (same ▸ named) (by decide)
    have node : text ≠ "node()".toList := fun same => absurd (same ▸ named) (by decide)
    have words : text ≠ "text()".toList := fun same => absurd (same ▸ named) (by decide)
    have whole : Text.splitFirst [':'] text = none :=
      Text.splitFirst_none (isName_fresh named (by decide))
    unfold nodeTest
    rw [if_neg star, if_neg node, if_neg words, whole]
    exact if_pos named
  | @name label stem uri named binds stemNamed =>
    have star : stem ≠ ['*'] := fun same => absurd (same ▸ stemNamed) (by decide)
    rw [nodeTest_labelled named binds, if_neg star, if_pos stemNamed]
  | within named binds => rw [nodeTest_labelled named binds, if_pos rfl]

theorem test_characters {namespaces : Namespaces} {text : List Char} {test : NodeTest}
    (spells : test.Spells namespaces text) :
    ∀ c ∈ text, isNameCharacter c = true ∨ c ∈ [':', '*', '(', ')'] := by
  have named : ∀ part, isName part = true → ∀ c ∈ part,
      isNameCharacter c = true ∨ c ∈ [':', '*', '(', ')'] :=
    fun part named c member => .inl (isName_characters named c member)
  cases spells with
  | element => exact List.all_iff_forall_prop.mp (by decide)
  | node => exact List.all_iff_forall_prop.mp (by decide)
  | text => exact List.all_iff_forall_prop.mp (by decide)
  | tag name => exact named _ name
  | name label _ stem =>
    intro c member
    rcases List.mem_append.mp member with member | member
    · exact named _ label c member
    · rcases List.mem_cons.mp member with rfl | member
      · exact .inr (by decide)
      · exact named _ stem c member
  | within label _ =>
    intro c member
    rcases List.mem_append.mp member with member | member
    · exact named _ label c member
    · have among : [':', '*'] ⊆ [':', '*', '(', ')'] := by simp
      exact .inr (among member)

theorem test_visible {namespaces : Namespaces} {text : List Char} {test : NodeTest}
    (spells : test.Spells namespaces text) : ∀ c ∈ text, isBlank c = false := by
  intro c member
  rcases test_characters spells c member with character | sign
  · have alone : isName ['_', c] = true := by
      simpa [isName, isNameCharacter, Bool.or_assoc] using character
    exact isName_visible alone c (by simp)
  · have visible : ∀ d ∈ [':', '*', '(', ')'], isBlank d = false :=
      List.all_iff_forall_prop.mp (by decide)
    exact visible c sign

theorem test_tight {namespaces : Namespaces} {text : List Char} {test : NodeTest}
    (spells : test.Spells namespaces text) : Tight text := .of_visible (test_visible spells)

theorem test_fresh {namespaces : Namespaces} {text : List Char} {test : NodeTest}
    (spells : test.Spells namespaces text) {c : Char} (sign : c ∈ signs)
    (other : c ∉ [':', '*', '(', ')']) : c ∉ text := by
  intro member
  rcases test_characters spells c member with character | allowed
  · rw [signs_apart c sign] at character
    cases character
  · exact other allowed

theorem test_filled {namespaces : Namespaces} {text : List Char} {test : NodeTest}
    (spells : test.Spells namespaces text) : text ≠ [] := by
  cases spells with
  | element => decide
  | node => decide
  | text => decide
  | tag name => exact isName_filled name
  | name => simp
  | within => simp

theorem isLetter_of_decimal {c : Char} (decimal : Text.IsDecimal c) : Text.isLetter c = false := by
  have apart : ∀ n ∈ List.range' 48 10, Text.isLetter (Char.ofNat n) = false := by decide
  have low : 48 ≤ c.toNat := decimal.1
  have high : c.toNat ≤ 57 := decimal.2
  have letter := apart c.toNat (List.mem_range'_1.mpr (by omega))
  rwa [Char.ofNat_toNat] at letter

theorem isName_head {text : List Char} (named : isName text = true) :
    ∀ c, text.head? = some c → Text.isLetter c = true ∨ c = '_' ∨ c = '*' := by
  intro c first
  cases text with
  | nil => cases named
  | cons d rest =>
    cases first
    rw [isName, Bool.and_eq_true, Bool.or_eq_true, decide_eq_true_eq] at named
    rcases named.1 with letter | underscore
    · exact .inl letter
    · exact .inr (.inl underscore)

theorem test_head {namespaces : Namespaces} {text : List Char} {test : NodeTest}
    (spells : test.Spells namespaces text) :
    ∀ c, text.head? = some c → Text.isLetter c = true ∨ c = '_' ∨ c = '*' := by
  have labelled : ∀ label rest, isName label = true → (label ++ rest).head? = label.head? := by
    intro label rest named
    rw [List.head?_append_of_ne_nil _ (isName_filled named)]
  intro c first
  cases spells with
  | element => cases first; decide
  | node => cases first; decide
  | text => cases first; decide
  | tag name => exact isName_head name c first
  | name label =>
    rw [labelled _ _ label] at first
    exact isName_head label c first
  | within label =>
    rw [labelled _ _ label] at first
    exact isName_head label c first

end Regesta.Path
