import Regesta.Proofs.Path.Test

namespace Regesta.Path

open Xml (ExpandedName)
open Text (Blanks Tight isBlank trim trimStart)
open Predicate (IsQuote SpellsAttribute)

@[simp] theorem literal?_iff (text value : List Char) :
    literal? text = some value ↔ ∃ q, IsQuote q ∧ q ∉ value ∧ text = q :: value ++ [q] := by
  constructor
  · intro found
    cases text with
    | nil => cases found
    | cons q rest =>
      rw [literal?] at found
      split at found
      · next quote =>
        split at found
        · next value' cut =>
          cases found
          have parts := Text.splitFirst_sound cut
          rw [List.append_nil] at parts
          refine ⟨q, by simpa [IsQuote] using quote, Text.splitFirst_fresh cut, ?_⟩
          rw [parts, List.cons_append]
        · cases found
      · cases found
  · intro found
    obtain ⟨q, quote, fresh, rfl⟩ := found
    have cut : Text.splitFirst [q] (value ++ [q] ++ []) = some (value, []) :=
      Text.splitFirst_complete fresh
    rw [List.append_nil] at cut
    have sign : (decide (q = '\'') || decide (q = '"')) = true := by simpa [IsQuote] using quote
    rw [List.cons_append, literal?, if_pos sign, cut]

theorem visible_of_free {c : Char} (free : endsAttributeName c = false) : isBlank c = false := by
  rw [endsAttributeName, Bool.or_eq_false_iff, Bool.or_eq_false_iff, Bool.or_eq_false_iff] at free
  exact free.1.1.1

theorem span_free {name rest : List Char} (free : ∀ c ∈ name, endsAttributeName c = false)
    (ends : ∀ c, rest.head? = some c → endsAttributeName c = true) :
    (name ++ rest).span (fun c => !endsAttributeName c) = (name, rest) := by
  apply Text.span_complete
  · intro c member
    rw [free c member]
    rfl
  · intro c first
    rw [ends c first]
    rfl

inductive AttributeParts : List Char → List Char → Option (List Char) → Prop
  | alone {name gap : List Char} :
    name ≠ [] → (∀ c ∈ name, endsAttributeName c = false) → Blanks gap →
    AttributeParts (name ++ gap) name none
  | compared {name before after value : List Char} {q : Char} :
    name ≠ [] → (∀ c ∈ name, endsAttributeName c = false) → Blanks before → Blanks after →
    IsQuote q → q ∉ value →
    AttributeParts (name ++ before ++ '=' :: after ++ q :: value ++ [q]) name (some value)

theorem attributeParts?_sound {text name : List Char} {value : Option (List Char)}
    (found : attributeParts? text = some (name, value)) : AttributeParts text name value := by
  unfold attributeParts? at found
  generalize cut : text.span (fun c => !endsAttributeName c) = spanned at found
  obtain ⟨front, back⟩ := spanned
  obtain ⟨rfl, passes, _⟩ := Text.span_sound cut
  have free : ∀ c ∈ front, endsAttributeName c = false := by
    intro c member
    simpa using passes c member
  obtain ⟨gap, blanks, parts, _⟩ := Text.exists_trimStart back
  simp only at found
  split at found
  · cases found
  · next filled =>
    rw [List.isEmpty_iff] at filled
    split at found
    · next bare =>
      cases found
      rw [bare, List.append_nil] at parts
      exact parts ▸ .alone filled free blanks
    · next rest equals =>
      rw [Option.map_eq_some_iff] at found
      obtain ⟨stored, literal, same⟩ := found
      cases same
      obtain ⟨after, later, inner, _⟩ := Text.exists_trimStart rest
      obtain ⟨q, quote, fresh, shape⟩ := (literal?_iff _ _).mp literal
      rw [equals, inner, shape] at parts
      have compared := AttributeParts.compared filled free blanks later quote fresh
      simp only [List.append_assoc, List.cons_append] at compared parts ⊢
      exact parts ▸ compared
    · cases found

theorem attributeParts?_complete {text name : List Char} {value : Option (List Char)}
    (parts : AttributeParts text name value) : attributeParts? text = some (name, value) := by
  cases parts with
  | @alone _ gap filled free blanks =>
    have ends : ∀ c, gap.head? = some c → endsAttributeName c = true := by
      intro c first
      have blank := blanks c (List.mem_of_mem_head? first)
      simp [endsAttributeName, blank]
    unfold attributeParts?
    rw [span_free free ends]
    simp [filled, Text.trimStart_blanks blanks]
  | @compared _ before after stored q filled free hb ha quote fresh =>
    have ends : ∀ c, (before ++ '=' :: (after ++ (q :: stored ++ [q]))).head? = some c →
        endsAttributeName c = true := by
      intro c first
      rcases hb.head_append first with blank | equals
      · simp [endsAttributeName, blank]
      · cases equals
        decide
    have quoteVisible : isBlank q = false := by
      rcases quote with rfl | rfl <;> decide
    have start : trimStart (before ++ '=' :: (after ++ (q :: stored ++ [q]))) =
        '=' :: (after ++ (q :: stored ++ [q])) := by
      rw [Text.trimStart_append hb]
      exact Text.trimStart_of_head fun c first => by cases first; decide
    have inner : trimStart (after ++ (q :: stored ++ [q])) = q :: stored ++ [q] := by
      rw [Text.trimStart_append ha]
      exact Text.trimStart_of_head fun c first => by cases first; exact quoteVisible
    have literal := (literal?_iff _ _).mpr ⟨q, quote, fresh, rfl⟩
    have shape : name ++ before ++ '=' :: after ++ q :: stored ++ [q] =
        name ++ (before ++ '=' :: (after ++ (q :: stored ++ [q]))) := by
      simp only [List.append_assoc, List.cons_append]
    rw [shape]
    unfold attributeParts?
    rw [span_free free ends]
    simp only [List.isEmpty_iff, filled, if_false, start, inner, literal, Option.map_some]

theorem name_ok_iff (namespaces : Namespaces) {text : List Char}
    (free : ∀ c ∈ text, endsAttributeName c = false) (name : ExpandedName) :
    namespaces.name (String.ofList text) = .ok name ↔ namespaces.Spells text name := by
  have tight : Tight text := .of_visible fun c member => visible_of_free (free c member)
  rw [Namespaces.name_spelled_iff, String.toList_ofList, Text.trim_of_tight tight]

theorem positionTest_ok_iff (path : String) {digits : List Char} (filled : digits ≠ [])
    (decimals : ∀ c ∈ digits, Text.IsDecimal c) (predicate : Predicate) :
    positionTest path digits = .ok predicate ↔
      predicate = .position (Text.decimal digits) ∧
        1 ≤ Text.decimal digits ∧ Text.decimal digits < 2 ^ 64 := by
  have limit : maximalPosition = 2 ^ 64 - 1 := by decide
  simp only [positionTest, Text.natural?_decimal filled decimals]
  split
  · next beyond =>
    constructor
    · intro refused; cases refused
    · intro ⟨_, _, bound⟩
      omega
  · next within =>
    split
    · next zero =>
      constructor
      · intro refused; cases refused
      · intro ⟨_, positive, _⟩
        omega
    · next positive =>
      rw [Except.ok.injEq]
      constructor
      · intro same
        exact ⟨same.symm, by omega, by omega⟩
      · intro ⟨same, _, _⟩
        exact same.symm

def attributePredicate (name : ExpandedName) : Option (List Char) → Predicate
  | none => .hasAttribute name
  | some value => .attributeIs name (String.ofList value)

theorem attribute_sound {namespaces : Namespaces} {text name : List Char}
    {value : Option (List Char)} {expanded : ExpandedName} (tight : Tight ('@' :: text))
    (parts : AttributeParts text name value)
    (named : namespaces.name (String.ofList name) = .ok expanded) :
    (attributePredicate expanded value).Spells namespaces ('@' :: text) := by
  cases parts with
  | @alone _ gap filled free blanks =>
    rw [← List.cons_append] at tight ⊢
    obtain rfl := tight.blanks_eq_nil blanks
    rw [List.append_nil]
    exact .hasAttribute ⟨free, (name_ok_iff namespaces free expanded).mp named⟩
  | compared filled free hb ha quote fresh =>
    exact .attributeIs ⟨free, (name_ok_iff namespaces free expanded).mp named⟩ hb ha quote fresh

theorem predicate_sound {namespaces : Namespaces} {path : String} {body : List Char}
    {result : Predicate} (read : predicate namespaces path body = .ok result) :
    result.Spells namespaces (trim body) := by
  have tight := Text.tight_trim body
  unfold predicate at read
  generalize trim body = text at read tight ⊢
  simp only at read
  split at read
  · cases read
  next filled =>
    rw [List.isEmpty_iff] at filled
    split at read
    · next digits =>
      have decimals : ∀ c ∈ text, Text.IsDecimal c := by
        intro c member
        exact (Text.isDigitOf_iff c).mp (List.all_eq_true.mp digits c member)
      obtain ⟨rfl, positive, bound⟩ := (positionTest_ok_iff path filled decimals result).mp read
      exact .position filled decimals positive bound
    · split at read
      · next last =>
        cases read
        exact last ▸ .last
      · split at read
        · next rest =>
          split at read
          · cases read
          · next name value found =>
            obtain ⟨expanded, named, finish⟩ := bind_ok_iff.mp read
            have spells := attribute_sound tight (attributeParts?_sound found) named
            cases value <;> cases finish <;> exact spells
        · split at read
          · next test found =>
            cases read
            exact .hasChild (nodeTest_sound found)
          · cases read

theorem attribute_complete {namespaces : Namespaces} {path : String} {body text name : List Char}
    {value : Option (List Char)} {expanded : ExpandedName} (trimmed : trim body = '@' :: text)
    (parts : AttributeParts text name value) (spelled : SpellsAttribute namespaces name expanded) :
    predicate namespaces path body = .ok (attributePredicate expanded value) := by
  have named := (name_ok_iff namespaces spelled.free expanded).mpr spelled.spells
  have letters : ('@' :: text).all (Text.isDigitOf 10) = false := by
    rw [List.all_cons, show Text.isDigitOf 10 '@' = false by decide, Bool.false_and]
  have last : ¬ '@' :: text = "last()".toList := by
    intro same
    exact absurd (List.cons.inj same).1 (by decide)
  unfold predicate
  rw [trimmed]
  simp only [List.isEmpty_cons, Bool.false_eq_true, if_false, letters, last,
    attributeParts?_complete parts, named]
  cases value <;> rfl

theorem spelled_filled {namespaces : Namespaces} {text : List Char} {name : ExpandedName}
    (spells : namespaces.Spells text name) : text ≠ [] := by
  cases spells with
  | plain fits => exact fits.1
  | labelled => simp
  | braced => simp

theorem child_complete {namespaces : Namespaces} {body : List Char} {test : NodeTest}
    (spells : test.Spells namespaces (trim body)) (path : String) :
    predicate namespaces path body = .ok (.hasChild test) := by
  have filled := test_filled spells
  have sign : '@' ∉ trim body := test_fresh spells (by decide) (by decide)
  have letters : (trim body).all (Text.isDigitOf 10) = false := by
    cases shape : trim body with
    | nil => exact absurd shape filled
    | cons c rest =>
      have first : Text.isDigitOf 10 c = false := by
        by_contra digit
        rw [Bool.not_eq_false, Text.isDigitOf_iff] at digit
        have start := test_head spells c (by rw [shape]; rfl)
        rw [isLetter_of_decimal digit] at start
        rcases start with letter | rfl | rfl
        · cases letter
        · exact absurd digit (by unfold Text.IsDecimal; decide)
        · exact absurd digit (by unfold Text.IsDecimal; decide)
      rw [List.all_cons, first, Bool.false_and]
  have last : trim body ≠ "last()".toList := by
    intro same
    rw [same] at spells
    have read := nodeTest_complete spells path
    rw [show nodeTest namespaces path "last()".toList =
      refuse path (.nodeTest (String.ofList "last()".toList)) from rfl] at read
    cases read
  have read := nodeTest_complete spells path
  unfold predicate
  generalize trim body = text at *
  simp only [List.isEmpty_iff, filled, letters, last, Bool.false_eq_true, if_false]
  split
  · exact absurd List.mem_cons_self sign
  · rw [read]

theorem predicate_complete {namespaces : Namespaces} {body : List Char} {result : Predicate}
    (spells : result.Spells namespaces (trim body)) (path : String) :
    predicate namespaces path body = .ok result := by
  generalize trimmed : trim body = text at spells
  cases spells with
  | position filled decimals positive bound =>
    have digits : text.all (Text.isDigitOf 10) = true :=
      List.all_eq_true.mpr fun c member => (Text.isDigitOf_iff c).mpr (decimals c member)
    have read := (positionTest_ok_iff path filled decimals _).mpr ⟨rfl, positive, bound⟩
    unfold predicate
    simp only [trimmed, List.isEmpty_iff, filled, if_false, digits, if_true, read]
  | last =>
    have letters : "last()".toList.all (Text.isDigitOf 10) = false := by decide
    have filled : "last()".toList.isEmpty = false := by decide
    unfold predicate
    simp only [trimmed, letters, filled, Bool.false_eq_true, if_false, if_true]
  | @hasAttribute name expanded spelled =>
    have parts : AttributeParts (name ++ []) name none :=
      .alone (spelled_filled spelled.spells) spelled.free .nil
    rw [List.append_nil] at parts
    exact attribute_complete trimmed parts spelled
  | attributeIs spelled hb ha quote fresh =>
    exact attribute_complete trimmed
      (.compared (spelled_filled spelled.spells) spelled.free hb ha quote fresh) spelled
  | hasChild test =>
    subst trimmed
    exact child_complete test path

theorem predicate_tight {namespaces : Namespaces} {text : List Char} {result : Predicate}
    (spells : result.Spells namespaces text) : Tight text := by
  cases spells with
  | position _ decimals =>
    apply Tight.of_visible
    intro c member
    have decimal := decimals c member
    have low : 48 ≤ c.toNat := decimal.1
    have high : c.toNat ≤ 57 := decimal.2
    simp only [isBlank, Bool.or_eq_false_iff, Bool.and_eq_false_iff, decide_eq_false_iff_not,
      beq_eq_false_iff_ne]
    omega
  | last => exact .of_visible (List.all_iff_forall_prop.mp (by decide))
  | hasAttribute spelled =>
    apply Tight.of_visible
    intro c member
    rcases List.mem_cons.mp member with rfl | member
    · decide
    · exact visible_of_free (spelled.free c member)
  | attributeIs _ _ _ quote =>
    constructor
    · intro c first
      cases first
      decide
    · intro c last
      rw [List.getLast?_append] at last
      cases last
      rcases quote with rfl | rfl <;> decide
  | hasChild test => exact test_tight test

end Regesta.Path
