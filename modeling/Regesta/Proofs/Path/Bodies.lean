import Regesta.Proofs.Path.Balance
import Regesta.Proofs.Path.Step

namespace Regesta.Path

open Text (Blanks Tight isBlank trim)
open Predicate (Closed)

inductive Bodies : List Char → List (List Char) → Option PathFlaw → Prop
  | none {gap : List Char} : Blanks gap → Bodies gap [] none
  | stray {gap rest : List Char} {c : Char} :
    Blanks gap → isBlank c = false → c ≠ '[' →
    Bodies (gap ++ c :: rest) [] (some .afterPredicate)
  | nested {gap inner rest : List Char} :
    Blanks gap → Balanced inner → ¬ Closed inner →
    Bodies (gap ++ '[' :: inner ++ ']' :: rest) [] (some .nestedPredicate)
  | next {gap inner rest : List Char} {others : List (List Char)} {flaw : Option PathFlaw} :
    Blanks gap → Closed inner → Bodies rest others flaw →
    Bodies (gap ++ '[' :: inner ++ ']' :: rest) (inner :: others) flaw

namespace Bodies

variable {text : List Char} {bodies : List (List Char)} {flaw : Option PathFlaw}

theorem prepend {gap : List Char} (blanks : Blanks gap) (found : Bodies text bodies flaw) :
    Bodies (gap ++ text) bodies flaw := by
  cases found with
  | none inner => exact .none (blanks.append inner)
  | stray inner visible other =>
    rw [← List.append_assoc]
    exact .stray (blanks.append inner) visible other
  | nested inner balanced nests =>
    rw [← List.append_assoc, ← List.append_assoc]
    exact .nested (blanks.append inner) balanced nests
  | next inner closed later =>
    rw [← List.append_assoc, ← List.append_assoc]
    exact .next (blanks.append inner) closed later

theorem not_open (found : Bodies text bodies flaw) : flaw ≠ some .openingBracket := by
  induction found with
  | none => exact nofun
  | stray => exact nofun
  | nested => exact nofun
  | next _ _ _ ih => exact ih

end Bodies

theorem Balanced.closed_or_bracket {text : List Char} (balanced : Balanced text) :
    Closed text ∨ ∃ front rest, text = front ++ '[' :: rest ∧ Closed front := by
  induction balanced with
  | nil => exact .inl .nil
  | @plain c rest quote bracket _ ih =>
    rcases ih with closed | ⟨front, tail, rfl, closed⟩
    · exact .inl (.plain quote bracket closed)
    · exact .inr ⟨c :: front, tail, rfl, .plain quote bracket closed⟩
  | @quoted q inner rest quote fresh _ ih =>
    rcases ih with closed | ⟨front, tail, rfl, closed⟩
    · exact .inl (.quoted quote fresh closed)
    · exact .inr ⟨q :: inner ++ q :: front, tail, by simp, .quoted quote fresh closed⟩
  | @bracketed inner rest => exact .inr ⟨[], inner ++ ']' :: rest, rfl, .nil⟩

theorem restOfBody_nested {inner : List Char} (balanced : Balanced inner) (nests : ¬ Closed inner)
    (body rest : List Char) :
    restOfBody none body (inner ++ rest) = ([], some .nestedPredicate) := by
  obtain ⟨front, tail, rfl, closed⟩ := balanced.closed_or_bracket.resolve_left nests
  rw [List.append_assoc, restOfBody_passes closed]
  rfl

theorem predicateBodies_stray {c : Char} (visible : isBlank c = false) (other : c ≠ '[')
    (rest : List Char) : predicateBodies (c :: rest) = ([], some .afterPredicate) := by
  rw [predicateBodies, visible, if_neg Bool.false_ne_true, if_neg other]

theorem bodies_of_balanced {text : List Char} (balanced : Balanced text) :
    Bodies text (predicateBodies text).1 (predicateBodies text).2 := by
  induction balanced with
  | nil => exact .none .nil
  | @plain c rest quote bracket _ ih =>
    by_cases blank : isBlank c = true
    · rw [predicateBodies, if_pos blank]
      exact ih.prepend (.cons blank .nil)
    · rw [Bool.not_eq_true] at blank
      have other : c ≠ '[' := fun same => bracket (.inl same)
      rw [predicateBodies_stray blank other]
      exact .stray .nil blank other
  | @quoted q inner rest quote _ _ _ =>
    have visible : isBlank q = false := by rcases quote with rfl | rfl <;> decide
    have other : q ≠ '[' := by rcases quote with rfl | rfl <;> decide
    rw [List.cons_append, predicateBodies_stray visible other]
    exact .stray .nil visible other
  | @bracketed inner rest inside _ _ ih =>
    by_cases closed : Closed inner
    · have found := predicateBodies_bracket .nil closed rest
      rw [List.nil_append] at found
      rw [found]
      exact .next .nil closed ih
    · have found : predicateBodies ('[' :: inner ++ ']' :: rest) = ([], some .nestedPredicate) := by
        rw [List.cons_append, predicateBodies, if_neg (by decide), if_pos rfl,
          restOfBody_nested inside closed]
      rw [found]
      exact .nested .nil inside closed

theorem back_balanced {namespaces : Namespaces} {path : String} {front back name : List Char}
    {axis : Axis} {test : NodeTest} (tight : Tight (front ++ back))
    (balanced : Balanced (front ++ back)) (axisRead : axisAndTest path front = .ok (axis, name))
    (testRead : nodeTest namespaces path name = .ok test) : Balanced back := by
  have head : ∀ c, front.head? = some c → isBlank c = false := by
    intro c first
    apply tight.head c
    rw [List.head?_append, first]
    rfl
  obtain ⟨written, gap, rfl, blanks, spells⟩ :=
    axisAndTest_sound head axisRead (nodeTest_sound testRead)
  -- An axis and a test are spelled without quotes and brackets, so nothing is open where they end.
  rw [List.append_assoc] at balanced
  exact (balanced.of_append_left (.of_free spells.free)).of_append_left (.of_blanks blanks)

theorem name_not_open (namespaces : Namespaces) (text path : String) :
    namespaces.name text ≠ .error (.invalidPath path .openingBracket) := by
  have checked : ∀ uri stem whole,
      Namespaces.checkedName uri stem whole ≠ .error (.invalidPath path .openingBracket) := by
    intro uri stem whole failed
    unfold Namespaces.checkedName at failed
    split at failed <;> cases failed
  unfold Namespaces.name Namespaces.trimmedName
  split
  · split
    · exact nofun
    · exact checked _ _ _
  · split
    · exact checked _ _ _
    · next label stem _ =>
      unfold Namespaces.resolve
      split
      · exact checked _ _ _
      · split
        · exact checked _ _ _
        · exact nofun

theorem predicate_not_open (namespaces : Namespaces) (path : String) (body : List Char) :
    predicate namespaces path body ≠ refuse path .openingBracket := by
  unfold predicate
  simp only
  split
  · exact nofun
  split
  · unfold positionTest
    split
    · exact nofun
    split
    · exact nofun
    split <;> exact nofun
  split
  · exact nofun
  split
  · split
    · exact nofun
    · next name value _ =>
      intro failed
      rcases bind_error_iff.mp failed with unnamed | ⟨expanded, _, impossible⟩
      · exact name_not_open namespaces _ path unnamed
      · cases value <;> cases impossible
  · split <;> exact nofun

theorem predicates_not_open {text : List Char}
    (closed : (predicateBodies text).2 ≠ some .openingBracket) (namespaces : Namespaces)
    (path : String) : predicates namespaces path text ≠ refuse path .openingBracket := by
  intro failed
  unfold predicates at failed
  rcases bind_error_iff.mp failed with early | ⟨results, _, late⟩
  · obtain ⟨body, _, refused⟩ := mapM_error early
    exact predicate_not_open namespaces path body refused
  · split at late
    · next flaw found =>
      cases late
      exact closed found
    · cases late

/-- Where a path can be cut, its parts make it up but for blanks beside the slashes, and in each of
them brackets are balanced, quotes closed and slashes inside of these. So where a part begins with an
axis and a test, each bracket behind them that opens a predicate is closed in that part. -/
theorem parts_balanced {text : List Char} {parts : List (List Char)}
    (cut : segments 0 none text = .ok parts) :
    Joined (parts.map trim) (trim text) ∧
    ∀ part ∈ parts.map trim, Balanced part ∧ Undivided part ∧
      ∀ (namespaces : Namespaces) (path : String) (front back name : List Char) (axis : Axis)
        (test : NodeTest), part.span (fun c => decide (c ≠ '[')) = (front, back) →
        axisAndTest path front = .ok (axis, name) → nodeTest namespaces path name = .ok test →
        Bodies back (predicateBodies back).1 (predicateBodies back).2 ∧
          (predicateBodies back).2 ≠ some .openingBracket ∧
          predicates namespaces path back ≠ refuse path .openingBracket := by
  obtain ⟨filled, whole⟩ := segments_join cut
  refine ⟨whole ▸ joined_trimmed filled, ?_⟩
  intro part member
  obtain ⟨written, among, rfl⟩ := List.mem_map.mp member
  have alone := parts_alone cut written among
  have balanced := ((segments_succeeds_iff written).mp ⟨_, alone⟩).trim
  refine ⟨balanced, (undivided_of_segments alone).trim, ?_⟩
  intro namespaces path front back name axis test split axisRead testRead
  obtain ⟨same, _, _⟩ := Text.span_sound split
  have tight := Text.tight_trim written
  rw [same] at tight balanced
  have found := bodies_of_balanced (back_balanced tight balanced axisRead testRead)
  exact ⟨found, found.not_open, predicates_not_open found.not_open namespaces path⟩

/-- A slash and a bracket in quotes, blanks beside the slash, and a bracket in a bracket. -/
theorem parts_balanced_quoted :
    let text := "a[@t='x/]'] / b[c[1]]".toList
    let parts := ["a[@t='x/]'] ".toList, " b[c[1]]".toList]
    segments 0 none text = .ok parts ∧
      Joined ["a[@t='x/]']".toList, "b[c[1]]".toList] text ∧
      Balanced "b[c[1]]".toList ∧ Undivided "a[@t='x/]']".toList ∧
      predicateBodies "[c[1]]".toList = ([], some .nestedPredicate) ∧
      predicates [] "" "[c[1]]".toList ≠ refuse "" .openingBracket := by
  intro text parts
  have cut : segments 0 none text = .ok parts := by decide
  have trimmed : parts.map trim = ["a[@t='x/]']".toList, "b[c[1]]".toList] := by decide
  obtain ⟨joined, each⟩ := parts_balanced cut
  rw [trimmed] at joined each
  obtain ⟨_, undivided, _⟩ := each "a[@t='x/]']".toList (by simp)
  obtain ⟨balanced, _, predicates⟩ := each "b[c[1]]".toList (by simp)
  refine ⟨cut, ?_, balanced, undivided, by decide, ?_⟩
  · rwa [show trim text = text by decide] at joined
  · exact (predicates [] "" ['b'] "[c[1]]".toList ['b'] .child (.tag "b") (by decide) (by rfl)
      (by rfl)).2.2

end Regesta.Path
