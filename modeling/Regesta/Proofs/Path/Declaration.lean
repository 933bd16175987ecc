import Regesta.Proofs.Path.Label

namespace Regesta

open Text (trim)

namespace Namespaces

def PartOf (declared extended : Namespaces) : Prop :=
  ∀ label uri, declared.declared? label = some uri → extended.declared? label = some uri

def knows (namespaces : Namespaces) (label : String) : Bool :=
  label = "xml" || (namespaces.declared? label).isSome

theorem knows_eq_false_iff {namespaces : Namespaces} {label : String} :
    namespaces.knows label = false ↔ label ≠ "xml" ∧ namespaces.declared? label = none := by
  simp [knows]

end Namespaces

namespace Path

section

variable {α β : Type} {declared : Namespaces} {path : String}

def firstMissing? (declared : Namespaces) (uses : List LabelUse) : Option LabelUse :=
  uses.find? fun use => !declared.knows use.label

@[simp] theorem firstMissing?_append (declared : Namespaces) (uses others : List LabelUse) :
    firstMissing? declared (uses ++ others) =
      (firstMissing? declared uses).or (firstMissing? declared others) :=
  List.find?_append

/-- What comes of reading that stops at the first label that is missing. -/
def outcome (declared : Namespaces) (path : String) (uses : List LabelUse) (value : α) :
    Except Error α :=
  match firstMissing? declared uses with
  | none => .ok value
  | some use => .error (use.refusal path)

@[simp] theorem outcome_nil (value : α) : outcome declared path [] value = .ok value := rfl

theorem outcome_ok {uses : List LabelUse} {value result : α}
    (read : outcome declared path uses value = .ok result) :
    ∀ use ∈ uses, declared.knows use.label = true := by
  unfold outcome at read
  split at read
  · next none =>
    intro use member
    simpa using List.find?_eq_none.mp none use member
  · cases read

theorem outcome_bind {uses others : List LabelUse} {first : Except Error α} {value : α}
    {next : α → Except Error β} {result : β} (start : first = outcome declared path uses value)
    (rest : next value = outcome declared path others result) :
    (first >>= next) = outcome declared path (uses ++ others) result := by
  rw [start, outcome, outcome, firstMissing?_append]
  cases firstMissing? declared uses with
  | none => exact rest
  | some use => rfl

theorem outcome_next {uses : List LabelUse} {first : Except Error α} {value : α}
    {next : α → Except Error β} {result : β} (start : first = outcome declared path uses value)
    (rest : next value = .ok result) : (first >>= next) = outcome declared path uses result := by
  have whole := outcome_bind start (rest.trans (outcome_nil result).symm)
  rwa [List.append_nil] at whole

theorem outcome_map {uses : List LabelUse} {first : Except Error α} {value : α} (change : α → β)
    (start : first = outcome declared path uses value) :
    first.map change = outcome declared path uses (change value) := by
  rw [start, outcome, outcome]
  cases firstMissing? declared uses <;> rfl

theorem outcome_mapM {uses : α → List LabelUse} {action : α → Except Error β} {items : List α}
    {results : List β}
    (each : List.Forall₂ (fun item result => action item = outcome declared path (uses item) result)
      items results) :
    items.mapM action = outcome declared path (items.flatMap uses) results := by
  induction each with
  | nil => rfl
  | @cons item result items results first _ ih =>
    rw [List.mapM_cons, List.flatMap_cons]
    exact outcome_bind first (outcome_next ih rfl)

end

section

variable {declared extended : Namespaces} (fewer : declared.PartOf extended)

include fewer

theorem resolve_outcome {path label uri : String} (use : LabelUse) (used : use.label = label)
    (told : use.refusal path = .unboundLabel label) (resolved : extended.resolve label = .ok uri) :
    declared.resolve label = outcome declared path [use] uri := by
  unfold Namespaces.resolve at resolved ⊢
  by_cases reserved : label = "xml"
  · rw [if_pos reserved] at resolved ⊢
    simpa [outcome, firstMissing?, used, Namespaces.knows, reserved] using resolved
  · rw [if_neg reserved] at resolved ⊢
    cases found : declared.declared? label with
    | none => simp [outcome, firstMissing?, used, Namespaces.knows, reserved, found, told]
    | some stored =>
      rw [fewer label stored found] at resolved
      simpa [outcome, firstMissing?, used, Namespaces.knows, reserved, found] using resolved

theorem nodeTest_outcome {path : String} {text : List Char} {test : NodeTest}
    (read : nodeTest extended path text = .ok test) :
    nodeTest declared path text =
      outcome declared path ((labelOf? text).toList.map .test) test := by
  unfold nodeTest at read ⊢
  by_cases any : text = ['*']
  · rw [if_pos any] at read ⊢
    rw [any]
    exact read
  rw [if_neg any] at read ⊢
  by_cases node : text = "node()".toList
  · rw [if_pos node] at read ⊢
    rw [node]
    exact read
  rw [if_neg node] at read ⊢
  by_cases words : text = "text()".toList
  · rw [if_pos words] at read ⊢
    rw [words]
    exact read
  rw [if_neg words] at read ⊢
  cases cut : Text.splitFirst [':'] text with
  | none =>
    rw [cut] at read
    simpa [labelOf?, cut] using read
  | some parts =>
    obtain ⟨label, stem⟩ := parts
    rw [cut] at read
    obtain ⟨uri, resolved, finish⟩ := bind_ok_iff.mp read
    have first : labelUri declared path label =
        outcome declared path [.test (String.ofList label)] uri := by
      unfold labelUri at resolved ⊢
      split at resolved
      · next named =>
        rw [if_pos named]
        exact resolve_outcome fewer (.test (String.ofList label)) rfl rfl resolved
      · cases resolved
    simpa [labelOf?, cut] using outcome_next first finish

theorem name_outcome {text : String} {name : Xml.ExpandedName}
    (read : extended.name text = .ok name) (path : String) :
    declared.name text = outcome declared path
      ((attributeLabel? (trim text.toList)).toList.map .name) name := by
  unfold Namespaces.name at read ⊢
  generalize trim text.toList = text at read ⊢
  unfold Namespaces.trimmedName at read ⊢
  unfold attributeLabel?
  split at read
  · exact read
  · cases cut : Text.splitFirst [':'] text with
    | none =>
      rw [cut] at read
      simpa [labelOf?, cut] using read
    | some parts =>
      obtain ⟨label, stem⟩ := parts
      rw [cut] at read
      obtain ⟨uri, resolved, finish⟩ := bind_ok_iff.mp read
      have first : declared.resolve (String.ofList label) =
          outcome declared path [.name (String.ofList label)] uri :=
        resolve_outcome fewer (.name (String.ofList label)) rfl rfl resolved
      simpa [labelOf?, cut] using outcome_next first finish

omit fewer in
theorem attributeParts?_tight {text name : List Char} {value : Option (List Char)}
    (found : attributeParts? text = some (name, value)) : Text.Tight name := by
  apply Text.Tight.of_visible
  intro c member
  apply visible_of_free
  cases attributeParts?_sound found with
  | alone _ free => exact free c member
  | compared _ free => exact free c member

omit fewer in
theorem bodyUses_plain {body : List Char} (plain : ∀ rest, body ≠ '@' :: rest) :
    bodyUses body = (labelOf? body).toList.map fun label => .child label (String.ofList body) := by
  unfold bodyUses
  split
  · next rest => exact absurd rfl (plain rest)
  · rfl

/-- What is said of a child's test does not tell the label. -/
theorem child_outcome {path : String} {body : List Char} {test : NodeTest}
    (read : nodeTest extended path body = .ok test) :
    (match nodeTest declared path body with
      | .ok test => .ok (.hasChild test)
      | .error _ => refuse path (.predicate (String.ofList body))) =
      outcome declared path
        ((labelOf? body).toList.map fun label => .child label (String.ofList body))
        (Predicate.hasChild test) := by
  rw [nodeTest_outcome fewer read]
  cases labelOf? body with
  | none => rfl
  | some label =>
    by_cases known : declared.knows label = true
    · simp [outcome, firstMissing?, LabelUse.label, known]
    · simp [outcome, firstMissing?, LabelUse.label, LabelUse.refusal, refuse, known]

theorem predicate_outcome {path : String} {body : List Char} {result : Predicate}
    (read : predicate extended path body = .ok result) :
    predicate declared path body = outcome declared path (bodyUses (trim body)) result := by
  unfold predicate at read ⊢
  generalize trim body = text at read ⊢
  simp only at read ⊢
  split at read
  · cases read
  next filled =>
    rw [if_neg filled]
    split at read
    · next digits =>
      -- Digits are neither the sign of an attribute nor a colon.
      have fresh : ∀ sign, Text.isDigitOf 10 sign = false → sign ∉ text := by
        intro sign other member
        rw [List.all_eq_true.mp digits sign member] at other
        cases other
      have plain : ∀ rest, text ≠ '@' :: rest := by
        intro rest same
        exact fresh '@' (by decide) (same ▸ List.mem_cons_self)
      rw [if_pos digits, bodyUses_plain plain, labelOf?,
        Text.splitFirst_none (fresh ':' (by decide))]
      exact read
    · next letters =>
      rw [if_neg letters]
      split at read
      · next last =>
        rw [if_pos last, last]
        exact read
      · next other =>
        rw [if_neg other]
        split at read
        · next rest =>
          split at read
          · cases read
          · next name value found =>
            obtain ⟨expanded, named, finish⟩ := bind_ok_iff.mp read
            have first := name_outcome fewer named path
            rw [String.toList_ofList, Text.trim_of_tight (attributeParts?_tight found)] at first
            have uses : bodyUses ('@' :: rest) = (attributeLabel? name).toList.map .name := by
              rw [bodyUses, found, Option.bind_some]
            rw [uses]
            exact outcome_next first finish
        · next plain =>
          split at read
          · next test found =>
            cases read
            rw [bodyUses_plain fun rest same => plain rest same]
            exact child_outcome fewer found
          · cases read

theorem predicates_outcome {path : String} {text : List Char} {results : List Predicate}
    (read : predicates extended path text = .ok results) :
    predicates declared path text = outcome declared path
      ((predicateBodies text).1.flatMap fun body => bodyUses (trim body)) results := by
  obtain ⟨values, each, finish⟩ := bind_ok_iff.mp read
  have first : (predicateBodies text).1.mapM (predicate declared path) = outcome declared path
      ((predicateBodies text).1.flatMap fun body => bodyUses (trim body)) values := by
    apply outcome_mapM
    exact (mapM_ok_iff.mp each).imp fun body value => predicate_outcome fewer
  exact outcome_next first finish

omit fewer in
theorem testText_of_axis {path : String} {front test : List Char} {axis : Axis}
    (read : axisAndTest path front = .ok (axis, test)) : testText front = test := by
  cases cut : Text.splitFirst [':', ':'] front with
  | none =>
    rw [axisAndTest, cut] at read
    cases read
    rw [testText, cut]
  | some parts =>
    obtain ⟨name, back⟩ := parts
    rw [axisAndTest, cut] at read
    rw [testText, cut]
    simp only at read
    split at read
    · cases read
      rfl
    · cases read

theorem step_outcome {path : String} {segment : List Char} {result : Step}
    (read : step extended path segment = .ok result) :
    step declared path segment = outcome declared path (stepUses segment) result := by
  unfold step at read ⊢
  by_cases dot : segment = ['.']
  · rw [if_pos dot] at read ⊢
    rw [dot, show stepUses ['.'] = [] from rfl]
    exact read
  rw [if_neg dot] at read ⊢
  by_cases dots : segment = ['.', '.']
  · rw [if_pos dots] at read ⊢
    rw [dots, show stepUses ['.', '.'] = [] from rfl]
    exact read
  rw [if_neg dots] at read ⊢
  split at read
  · cases read
  · next other =>
    rw [if_neg other]
    unfold stepUses
    generalize segment.span (· ≠ '[') = spanned at read ⊢
    obtain ⟨front, rest⟩ := spanned
    simp only at read ⊢
    obtain ⟨⟨axis, test⟩, first, read⟩ := bind_ok_iff.mp read
    obtain ⟨tested, testRead, read⟩ := bind_ok_iff.mp read
    obtain ⟨results, predicatesRead, finish⟩ := bind_ok_iff.mp read
    rw [testText_of_axis first, first]
    show (nodeTest declared path test >>= fun test =>
      predicates declared path rest >>= fun results => .ok (Step.mk axis test results)) = _
    exact outcome_bind (nodeTest_outcome fewer testRead)
      (outcome_next (predicates_outcome fewer predicatesRead) finish)

theorem part_outcome {path : String} {segment : List Char} {result : Step}
    (read : (if segment.isEmpty then .ok Step.anywhere else step extended path segment) =
      .ok result) :
    (if segment.isEmpty then .ok Step.anywhere else step declared path segment) =
      outcome declared path (stepUses segment) result := by
  split at read
  · next empty =>
    rw [List.isEmpty_iff] at empty
    subst empty
    exact read
  · next filled =>
    rw [if_neg filled]
    exact step_outcome fewer read

theorem steps_outcome {path : String} {parts : List (List Char)} {results : List Step}
    (read : steps extended path parts = .ok results) :
    steps declared path parts = outcome declared path (parts.flatMap stepUses) results := by
  induction parts generalizing results with
  | nil => exact read
  | cons segment rest ih =>
    by_cases last : rest = []
    · subst last
      rw [steps] at read ⊢
      split at read
      · cases read
      · next filled =>
        obtain ⟨result, stepRead, same⟩ := map_ok_iff.mp read
        subst same
        rw [if_neg filled, List.flatMap_singleton]
        exact outcome_map _ (step_outcome fewer stepRead)
    · rw [steps_cons last] at read ⊢
      obtain ⟨first, firstRead, read⟩ := bind_ok_iff.mp read
      obtain ⟨others, othersRead, finish⟩ := bind_ok_iff.mp read
      rw [List.flatMap_cons]
      exact outcome_bind (part_outcome fewer firstRead) (outcome_next (ih othersRead) finish)

theorem route_outcome {path : String} {text : List Char} {route : Route}
    (read : readRoute extended path text = .ok route) :
    readRoute declared path text = outcome declared path (labelUses text) route := by
  by_cases filled : text = []
  · subst filled
    cases read
  by_cases dot : text = ['.']
  · have here : ∀ namespaces, readRoute namespaces path ['.'] = .ok .here := fun _ => rfl
    rw [dot, here] at read ⊢
    rw [show labelUses ['.'] = [] from rfl]
    exact read
  cases cut : segments 0 none text with
  | error flaw =>
    unfold readRoute at read
    rw [if_neg (by simpa using filled), if_neg dot, cut] at read
    cases read
  | ok parts =>
    rw [readRoute_eq filled dot cut] at read ⊢
    rw [labelUses, cut]
    split at read
    · next slash =>
      rw [if_pos slash]
      -- The empty part in front of the slash has no labels.
      obtain ⟨rest, rfl⟩ := List.head?_eq_some_iff.mp slash
      rw [segments_slash] at cut
      obtain ⟨others, _, rfl⟩ := map_ok_iff.mp cut
      rw [List.map_cons, List.drop_one, List.tail_cons] at read ⊢
      show _ = outcome declared path ((others.map trim).flatMap stepUses) route
      split at read
      · next alone =>
        rw [if_pos alone, alone]
        exact read
      · next more =>
        obtain ⟨results, stepsRead, same⟩ := map_ok_iff.mp read
        subst same
        rw [if_neg more]
        exact outcome_map _ (steps_outcome fewer stepsRead)
    · next slash =>
      obtain ⟨results, stepsRead, same⟩ := map_ok_iff.mp read
      subst same
      rw [if_neg slash]
      exact outcome_map _ (steps_outcome fewer stepsRead)

theorem read_outcome {text : String} {path : Path} (found : read extended text = .ok path) :
    read declared text = outcome declared text (labelUses (trim text.toList)) path := by
  obtain ⟨route, routeRead, same⟩ := map_ok_iff.mp found
  subst same
  exact outcome_map _ (route_outcome fewer routeRead)

end

/-- A path that is read under some declarations and not under fewer of them is refused for the first
label in it that is missing there. Which label that is, is told where it stands in a step or in the
name of an attribute. -/
theorem missing_label_refused {declared extended : Namespaces}
    (fewer : declared.PartOf extended) {text : String} {path : Path}
    (found : read extended text = .ok path) :
    let uses := labelUses (trim text.toList)
    (firstMissing? declared uses = none → read declared text = .ok path) ∧
    ∀ use, firstMissing? declared uses = some use →
      read declared text = .error (use.refusal text) ∧
        use.label.toList ++ [':'] <:+: text.toList ∧ declared.declared? use.label = none ∧
        (extended.declared? use.label).isSome := by
  intro uses
  have result : read declared text = outcome declared text uses path := read_outcome fewer found
  rw [outcome] at result
  refine ⟨?_, ?_⟩
  · intro known
    rwa [known] at result
  · intro use missing
    rw [missing] at result
    have among : use ∈ uses := List.mem_of_find?_eq_some missing
    have unknown : declared.knows use.label = false := by simpa using List.find?_some missing
    -- All declarations are a part of themselves, so under the larger ones nothing is missing.
    have itself := read_outcome (fun _ _ same => same) found
    have known := outcome_ok (itself.symm.trans found) use among
    obtain ⟨other, undeclared⟩ := Namespaces.knows_eq_false_iff.mp unknown
    refine ⟨result, (labelUses_within use among).trans (Text.trim_within _), undeclared, ?_⟩
    simpa [Namespaces.knows, other] using known

/-- The label of a child's test is missing, and what is told is that there is no such predicate. -/
theorem missing_child_label_unnamed :
    let extended : Namespaces := [("tei", "http://www.tei-c.org/ns/1.0")]
    read extended "p[tei:b]" = .ok ⟨"p[tei:b]",
        .steps false [⟨.child, .tag "p", [.hasChild (.name "http://www.tei-c.org/ns/1.0" "b")]⟩]⟩ ∧
      read [] "p[tei:b]" = .error (.invalidPath "p[tei:b]" (.predicate "tei:b")) ∧
      ∀ label, read [] "p[tei:b]" ≠ .error (.unboundLabel label) := by
  intro extended
  have refused : read [] "p[tei:b]" = .error (.invalidPath "p[tei:b]" (.predicate "tei:b")) := by rfl
  refine ⟨by rfl, refused, ?_⟩
  intro label same
  rw [refused] at same
  cases same

theorem missing_label_refused_attribute :
    let declared : Namespaces := [("a", "urn:a")]
    let extended : Namespaces := [("a", "urn:a"), ("b", "urn:b"), ("c", "urn:c")]
    declared.PartOf extended ∧ (∃ path, read extended "a:p[@b:n]/c:q[b:r]" = .ok path) ∧
      read declared "a:p[@b:n]/c:q[b:r]" = .error (.unboundLabel "b") := by
  intro declared extended
  have fewer : declared.PartOf extended := by
    intro label uri known
    rw [Namespaces.declared?, Option.map_eq_some_iff] at known ⊢
    obtain ⟨binding, found, same⟩ := known
    refine ⟨binding, ?_, same⟩
    rw [show extended = declared ++ [("b", "urn:b"), ("c", "urn:c")] from rfl, List.find?_append,
      found]
    rfl
  have missing : firstMissing? declared (labelUses (trim "a:p[@b:n]/c:q[b:r]".toList)) =
      some (.name "b") := by rfl
  have found : read extended "a:p[@b:n]/c:q[b:r]" = .ok ⟨"a:p[@b:n]/c:q[b:r]", .steps false
      [⟨.child, .name "urn:a" "p", [.hasAttribute ⟨some "urn:b", "n"⟩]⟩,
        ⟨.child, .name "urn:c" "q", [.hasChild (.name "urn:b" "r")]⟩]⟩ := by rfl
  exact ⟨fewer, ⟨_, found⟩, ((missing_label_refused fewer found).2 _ missing).1⟩

end Path
end Regesta
