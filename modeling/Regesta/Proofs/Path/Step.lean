import Regesta.Proofs.Path.Bracket

namespace Regesta.Path

open Text (Blanks Tight isBlank trim)
open Predicate (SpellsAll)

def axisNames : List (List Char) :=
  ["child".toList, "descendant".toList, "descendant-or-self".toList, "self".toList,
    "parent".toList, "ancestor".toList, "ancestor-or-self".toList, "following-sibling".toList,
    "preceding-sibling".toList]

theorem mem_axisNames {name : List Char} {axis : Axis}
    (known : Axis.ofName? (String.ofList name) = some axis) : name ∈ axisNames := by
  have same : ∀ word : String, String.ofList name = word → name = word.toList := by
    intro word equal
    rw [← equal, String.toList_ofList]
  unfold Axis.ofName? at known
  split at known
  case h_10 => cases known
  all_goals
    next equal =>
      rw [same _ equal]
      decide

theorem axis_visible {name : List Char} (known : name ∈ axisNames) :
    ∀ c ∈ name, isBlank c = false := by
  have visible : ∀ word ∈ axisNames, word.all (fun c => !isBlank c) = true := by decide
  simpa using visible name known

theorem axis_fresh {name : List Char} (known : name ∈ axisNames) :
    ∀ c ∈ signs, c ∉ name := by
  have fresh : ∀ word ∈ axisNames, signs.all (fun c => c ∉ word) = true := by decide
  exact List.all_iff_forall_prop.mp (fresh name known)

theorem axis_filled {name : List Char} (known : name ∈ axisNames) : name ≠ [] := by
  have filled : ∀ word ∈ axisNames, word ≠ [] := by decide
  exact filled name known

theorem axis_head {name : List Char} (known : name ∈ axisNames) :
    ∀ c, name.head? = some c → Text.isLetter c = true := by
  have letter : ∀ word ∈ axisNames, word.head?.all Text.isLetter = true := by decide
  intro c first
  have start := letter name known
  rwa [first] at start

theorem axis_not_attribute {name : List Char} (known : name ∈ axisNames) :
    ¬ "attribute".toList <+: name := by
  have apart : ∀ word ∈ axisNames, ¬ "attribute".toList <+: word := by decide
  exact apart name known

theorem test_undoubled {namespaces : Namespaces} {text gap : List Char} {test : NodeTest}
    (spells : test.Spells namespaces text) (blanks : Blanks gap) :
    Text.splitFirst [':', ':'] (text ++ gap) = none := by
  have clear : ':' ∉ gap := blanks.not_mem (by decide)
  have single : ∀ part, ':' ∉ part → Text.splitFirst [':', ':'] (part ++ gap) = none := by
    intro part fresh
    apply Text.splitFirst_none
    rw [List.mem_append, not_or]
    exact ⟨fresh, clear⟩
  have labelled : ∀ label stem, isName label = true → ':' ∉ stem →
      Text.splitFirst [':', ':'] (label ++ ':' :: stem ++ gap) = none := by
    intro label stem named fresh
    rw [List.append_assoc, List.cons_append]
    apply Text.splitFirst_double_none (isName_fresh named (by decide))
    rw [List.mem_append, not_or]
    exact ⟨fresh, clear⟩
  cases spells with
  | element => exact single _ (by decide)
  | node => exact single _ (by decide)
  | text => exact single _ (by decide)
  | tag name => exact single _ (isName_fresh name (by decide))
  | name label _ stem => exact labelled _ _ label (isName_fresh stem (by decide))
  | within label => exact labelled _ _ label (by decide)

theorem predicates_gap {namespaces : Namespaces} {gap text : List Char} {results : List Predicate}
    (blanks : Blanks gap) (filled : text ≠ []) (spells : SpellsAll namespaces text results) :
    SpellsAll namespaces (gap ++ text) results := by
  cases spells with
  | nil => exact absurd rfl filled
  | cons inner hb spelled ha closed later =>
    have whole := SpellsAll.cons (blanks.append inner) hb spelled ha closed later
    simpa only [List.append_assoc] using whole

theorem predicates_start {namespaces : Namespaces} {text : List Char} {results : List Predicate}
    (spells : SpellsAll namespaces text results) :
    ∃ gap tail, text = gap ++ tail ∧ Blanks gap ∧ (∀ c, tail.head? = some c → c = '[') ∧
      SpellsAll namespaces tail results := by
  cases spells with
  | nil => exact ⟨[], [], rfl, .nil, by simp, .nil⟩
  | @cons gap before body after rest result others blanks hb spelled ha closed later =>
    refine ⟨gap, '[' :: before ++ body ++ after ++ ']' :: rest, ?_, blanks, ?_, ?_⟩
    · simp
    · intro c first
      cases first
      rfl
    · exact SpellsAll.cons .nil hb spelled ha closed later

theorem predicates_last {namespaces : Namespaces} {text : List Char} {results : List Predicate}
    (spells : SpellsAll namespaces text results) :
    text = [] ∨ text.getLast? = some ']' := by
  induction spells with
  | nil => exact .inl rfl
  | cons _ _ _ _ _ _ ih =>
    right
    rw [List.getLast?_append, List.getLast?_cons]
    rcases ih with none | last
    · rw [none]
      rfl
    · rw [last]
      rfl

inductive SpellsFront (namespaces : Namespaces) : List Char → Axis → NodeTest → Prop
  | child {text : List Char} {test : NodeTest} :
    test.Spells namespaces text → SpellsFront namespaces text .child test
  | along {name before after text : List Char} {axis : Axis} {test : NodeTest} :
    Axis.ofName? (String.ofList name) = some axis → Blanks before → Blanks after →
    test.Spells namespaces text →
    SpellsFront namespaces (name ++ before ++ ':' :: ':' :: after ++ text) axis test

namespace SpellsFront

variable {namespaces : Namespaces} {text : List Char} {axis : Axis} {test : NodeTest}

theorem step (front : SpellsFront namespaces text axis test) {back : List Char}
    {predicates : List Predicate} (rest : SpellsAll namespaces back predicates) :
    Step.Spells namespaces (text ++ back) ⟨axis, test, predicates⟩ := by
  cases front with
  | child spells => exact .child spells rest
  | along known hb ha spells => exact .along known hb ha spells rest

theorem head (front : SpellsFront namespaces text axis test) :
    ∀ c, text.head? = some c → Text.isLetter c = true ∨ c = '_' ∨ c = '*' := by
  cases front with
  | child spells => exact test_head spells
  | @along name _ _ _ _ _ known =>
    intro c first
    have named := mem_axisNames known
    have start : name.head? = some c := by
      rwa [List.append_assoc, List.append_assoc,
        List.head?_append_of_ne_nil _ (axis_filled named)] at first
    exact .inl (axis_head named c start)

theorem filled (front : SpellsFront namespaces text axis test) : text ≠ [] := by
  cases front with
  | child spells => exact test_filled spells
  | along => simp

theorem fresh (front : SpellsFront namespaces text axis test) {c : Char} (sign : c ∈ signs)
    (visible : isBlank c = false) (other : c ∉ [':', '*', '(', ')']) : c ∉ text := by
  cases front with
  | child spells => exact test_fresh spells sign other
  | along known hb ha spells =>
    have colon : c ≠ ':' := by
      intro same
      exact other (by simp [same])
    have name := axis_fresh (mem_axisNames known) c sign
    have stem := test_fresh spells sign other
    simp [name, stem, colon, hb.not_mem visible, ha.not_mem visible]

theorem free (front : SpellsFront namespaces text axis test) :
    ∀ sign ∈ ['\'', '"', '[', ']', '/'], sign ∉ text := by
  have apart : ∀ sign ∈ ['\'', '"', '[', ']', '/'],
      sign ∈ signs ∧ isBlank sign = false ∧ sign ∉ [':', '*', '(', ')'] :=
    List.all_iff_forall_prop.mp (by decide)
  intro sign among
  obtain ⟨known, visible, other⟩ := apart sign among
  exact front.fresh known visible other

theorem last (front : SpellsFront namespaces text axis test) :
    ∀ c, text.getLast? = some c → isBlank c = false := by
  cases front with
  | child spells => exact (test_tight spells).last
  | along known hb ha spells =>
    intro c final
    rw [List.getLast?_append_of_ne_nil _ (test_filled spells)] at final
    exact (test_tight spells).last c final

theorem tight (front : SpellsFront namespaces text axis test) : Tight text := by
  refine ⟨?_, front.last⟩
  intro c first
  rcases front.head c first with letter | rfl | rfl
  · by_contra blank
    rw [Bool.not_eq_false] at blank
    rw [Text.isLetter_of_blank blank] at letter
    cases letter
  · decide
  · decide

theorem not_attribute (front : SpellsFront namespaces text axis test) :
    ¬ "attribute::".toList <+: text := by
  intro whole
  cases front with
  | child spells =>
    obtain ⟨rest, rfl⟩ := whole
    have undoubled := test_undoubled spells .nil
    have doubled : Text.splitFirst [':', ':'] ("attribute".toList ++ [':', ':'] ++ rest) =
        some ("attribute".toList, rest) := Text.splitFirst_complete (by decide)
    rw [List.append_nil] at undoubled
    rw [show "attribute".toList ++ [':', ':'] ++ rest = "attribute::".toList ++ rest from rfl,
      undoubled] at doubled
    cases doubled
  | @along name before after part _ _ known hb =>
    have word : "attribute".toList <+: name ++ (before ++ ':' :: ':' :: after ++ part) := by
      rw [← List.append_assoc, ← List.append_assoc]
      exact List.IsPrefix.trans ⟨[':', ':'], rfl⟩ whole
    apply axis_not_attribute (mem_axisNames known)
    apply Text.prefix_of_stop word
    intro c first member
    have apart : ∀ d ∈ "attribute".toList, isBlank d = false ∧ d ≠ ':' :=
      List.all_iff_forall_prop.mp (by decide)
    rw [List.append_assoc] at first
    rcases hb.head_append first with blank | colon
    · exact absurd blank (by simp [(apart c member).1])
    · exact (apart c member).2 (Option.some.inj colon).symm

end SpellsFront

theorem axisAndTest_sound {namespaces : Namespaces} {path : String} {text part : List Char}
    {axis : Axis} {test : NodeTest} (head : ∀ c, text.head? = some c → isBlank c = false)
    (read : axisAndTest path text = .ok (axis, part)) (spells : test.Spells namespaces part) :
    ∃ front gap, text = front ++ gap ∧ Blanks gap ∧ SpellsFront namespaces front axis test := by
  -- Blanks in front of the text there are none, so the rest of it is all there is.
  have start : ∀ {gap inner rest : List Char}, text = gap ++ inner ++ rest → Blanks gap →
      inner ≠ [] → gap = [] := by
    intro gap inner rest parts blanks filled
    cases gap with
    | nil => rfl
    | cons c others =>
      have visible := head c (by rw [parts]; rfl)
      rw [blanks c List.mem_cons_self] at visible
      cases visible
  unfold axisAndTest at read
  split at read
  · next =>
    cases read
    obtain ⟨before, after, hb, ha, parts, _⟩ := Text.exists_trim text
    obtain rfl := start parts hb (test_filled spells)
    exact ⟨trim text, after, parts, ha, .child spells⟩
  · next name rest cut =>
    split at read
    · next axis' known =>
      cases read
      have named := mem_axisNames known
      have whole := Text.splitFirst_sound cut
      obtain ⟨before, after, hb, ha, nameParts, _⟩ := Text.exists_trim name
      obtain ⟨inner, gap, hi, hg, restParts, _⟩ := Text.exists_trim rest
      generalize trim name = word at known named nameParts
      generalize trim rest = part at spells restParts
      subst nameParts restParts
      have parts : text = before ++ word ++ (after ++ [':', ':'] ++ (inner ++ part ++ gap)) := by
        rw [whole]
        simp
      obtain rfl := start parts hb (axis_filled named)
      refine ⟨_, gap, ?_, hg, .along known ha hi spells⟩
      rw [parts]
      simp
    · cases read

theorem axisAndTest_complete {namespaces : Namespaces} {text gap : List Char} {axis : Axis}
    {test : NodeTest} (front : SpellsFront namespaces text axis test) (blanks : Blanks gap)
    (path : String) :
    ∃ part, axisAndTest path (text ++ gap) = .ok (axis, part) ∧ test.Spells namespaces part := by
  have trimmed : ∀ {before part : List Char}, Blanks before → test.Spells namespaces part →
      trim (before ++ part ++ gap) = part :=
    fun hb spells => Text.trim_between hb (test_tight spells) blanks
  cases front with
  | child spells =>
    refine ⟨text, ?_, spells⟩
    have whole := trimmed .nil spells
    rw [List.nil_append] at whole
    unfold axisAndTest
    rw [test_undoubled spells blanks]
    simp only [whole]
  | @along name before after part _ _ known hb ha spells =>
    refine ⟨part, ?_, spells⟩
    have named := mem_axisNames known
    have fresh : ':' ∉ name ++ before := by
      rw [List.mem_append, not_or]
      exact ⟨axis_fresh named ':' (by decide), hb.not_mem (by decide)⟩
    have cut : Text.splitFirst [':', ':'] (name ++ before ++ [':', ':'] ++ (after ++ part ++ gap)) =
        some (name ++ before, after ++ part ++ gap) := Text.splitFirst_complete fresh
    have shape : name ++ before ++ ':' :: ':' :: after ++ part ++ gap =
        name ++ before ++ [':', ':'] ++ (after ++ part ++ gap) := by simp
    have word := Text.trim_between .nil (.of_visible (axis_visible named)) hb
    rw [List.nil_append] at word
    unfold axisAndTest
    rw [shape, cut]
    simp only [word, known, trimmed ha spells]

theorem step_sound {namespaces : Namespaces} {path : String} {text : List Char} {result : Step}
    (tight : Tight text) (read : step namespaces path text = .ok result) :
    result.Spells namespaces text := by
  unfold step at read
  split at read
  · next dot =>
    cases read
    exact dot ▸ .self
  split at read
  · next dots =>
    cases read
    exact dots ▸ .parent
  split at read
  · cases read
  generalize cut : text.span (fun c => decide (c ≠ '[')) = spanned at read
  obtain ⟨start, back⟩ := spanned
  obtain ⟨rfl, _, _⟩ := Text.span_sound cut
  obtain ⟨⟨axis, part⟩, axisRead, read⟩ := bind_ok_iff.mp read
  obtain ⟨test, testRead, read⟩ := bind_ok_iff.mp read
  obtain ⟨results, restRead, finish⟩ := bind_ok_iff.mp read
  cases finish
  have head : ∀ c, start.head? = some c → isBlank c = false := by
    intro c first
    apply tight.head c
    rw [List.head?_append, first]
    rfl
  have last : ∀ c, back.getLast? = some c → isBlank c = false := by
    intro c final
    apply tight.last c
    rw [List.getLast?_append, final]
    rfl
  obtain ⟨front, gap, rfl, blanks, spells⟩ :=
    axisAndTest_sound head axisRead (nodeTest_sound testRead)
  have rest := predicates_sound restRead last
  -- Blanks in front of the first bracket go with the predicates; without one there are none.
  by_cases filled : back = []
  · subst filled
    rw [List.append_nil] at tight ⊢
    obtain rfl := tight.blanks_eq_nil blanks
    exact spells.step rest
  · rw [List.append_assoc]
    exact spells.step (predicates_gap blanks filled rest)

theorem front_apart {namespaces : Namespaces} {front gap tail : List Char} {axis : Axis}
    {test : NodeTest} (spells : SpellsFront namespaces front axis test) (blanks : Blanks gap)
    (bracket : ∀ c, tail.head? = some c → c = '[') :
    front ++ (gap ++ tail) ≠ ['.'] ∧ front ++ (gap ++ tail) ≠ ['.', '.'] ∧
      ¬ "@".toList <+: front ++ (gap ++ tail) ∧
      ¬ "attribute::".toList <+: front ++ (gap ++ tail) := by
  have start : ∀ c, (front ++ (gap ++ tail)).head? = some c → c ≠ '.' ∧ c ≠ '@' := by
    intro c first
    rw [List.head?_append_of_ne_nil _ spells.filled] at first
    rcases spells.head c first with letter | rfl | rfl
    · constructor
      · intro same
        subst same
        exact absurd letter (by decide)
      · intro same
        subst same
        exact absurd letter (by decide)
    · decide
    · decide
  refine ⟨?_, ?_, ?_, ?_⟩
  · intro same
    exact (start '.' (by rw [same]; rfl)).1 rfl
  · intro same
    exact (start '.' (by rw [same]; rfl)).1 rfl
  · intro ⟨others, same⟩
    exact (start '@' (by rw [← same]; rfl)).2 rfl
  · intro whole
    -- What follows the front starts with a blank or a bracket, so the sign is within the front.
    apply spells.not_attribute
    apply Text.prefix_of_stop whole
    intro c first member
    have apart : ∀ d ∈ "attribute::".toList, isBlank d = false ∧ d ≠ '[' :=
      List.all_iff_forall_prop.mp (by decide)
    rcases blanks.head_append first with blank | first
    · exact absurd blank (by simp [(apart c member).1])
    · exact (apart c member).2 (bracket c first)

theorem front_complete {namespaces : Namespaces} {front back : List Char} {axis : Axis}
    {test : NodeTest} {results : List Predicate} (spells : SpellsFront namespaces front axis test)
    (rest : SpellsAll namespaces back results) (path : String) :
    step namespaces path (front ++ back) = .ok ⟨axis, test, results⟩ := by
  obtain ⟨gap, tail, rfl, blanks, bracket, tailSpells⟩ := predicates_start rest
  obtain ⟨dot, dots, sign, word⟩ := front_apart spells blanks bracket
  have cut : (front ++ gap ++ tail).span (fun c => decide (c ≠ '[')) = (front ++ gap, tail) := by
    apply Text.span_complete
    · intro c member
      rw [decide_eq_true_eq]
      intro same
      subst same
      rcases List.mem_append.mp member with member | member
      · exact spells.fresh (by decide) (by decide) (by decide) member
      · exact blanks.not_mem (by decide) member
    · intro c first
      simp [bracket c first]
  obtain ⟨part, axisRead, testSpells⟩ := axisAndTest_complete spells blanks path
  unfold step
  rw [if_neg dot, if_neg dots, if_neg, ← List.append_assoc, cut]
  · apply bind_ok_iff.mpr
    refine ⟨(axis, part), axisRead, bind_ok_iff.mpr ⟨test, nodeTest_complete testSpells path, ?_⟩⟩
    exact bind_ok_iff.mpr ⟨results, predicates_complete tailSpells path, rfl⟩
  · rw [Bool.or_eq_true, List.isPrefixOf_iff_prefix, List.isPrefixOf_iff_prefix, not_or]
    exact ⟨sign, word⟩

theorem step_complete {namespaces : Namespaces} {text : List Char} {result : Step}
    (spells : result.Spells namespaces text) (path : String) :
    step namespaces path text = .ok result := by
  cases spells with
  | self => rfl
  | parent => rfl
  | child spelled rest => exact front_complete (.child spelled) rest path
  | along known hb ha spelled rest => exact front_complete (.along known hb ha spelled) rest path

theorem step_tight {namespaces : Namespaces} {text : List Char} {result : Step}
    (spells : result.Spells namespaces text) : Tight text ∧ text ≠ [] := by
  have parts : ∀ {front back : List Char} {axis : Axis} {test : NodeTest}
      {results : List Predicate}, SpellsFront namespaces front axis test →
      SpellsAll namespaces back results → Tight (front ++ back) ∧ front ++ back ≠ [] := by
    intro front back axis test results spelled rest
    have filled := spelled.filled
    refine ⟨⟨?_, ?_⟩, by simp [filled]⟩
    · intro c first
      rw [List.head?_append_of_ne_nil _ filled] at first
      exact spelled.tight.head c first
    · intro c final
      rcases predicates_last rest with rfl | bracket
      · rw [List.append_nil] at final
        exact spelled.last c final
      · rw [List.getLast?_append, bracket] at final
        cases final
        decide
  cases spells with
  | self => exact ⟨.of_visible (List.all_iff_forall_prop.mp (by decide)), by decide⟩
  | parent => exact ⟨.of_visible (List.all_iff_forall_prop.mp (by decide)), by decide⟩
  | child spelled rest => exact parts (.child spelled) rest
  | along known hb ha spelled rest => exact parts (.along known hb ha spelled) rest

end Regesta.Path
