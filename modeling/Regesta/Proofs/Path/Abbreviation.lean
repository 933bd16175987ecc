import Regesta.Proofs.Path.Interchange
import Regesta.Proofs.Path.Reading

namespace Regesta.Path

open Text (Blanks isBlank trim trimStart trimEnd)
open Xml (Document)

variable {namespaces : Namespaces}

def IsClosed (text : List Char) : Prop := ∃ parts, segments 0 none text = .ok parts

/-- One part of a path read as a step; an empty one goes anywhere below. -/
def part (namespaces : Namespaces) (segment : List Char) : Except Error Step :=
  if segment.isEmpty then .ok Step.anywhere else step namespaces "" segment

theorem steps_append (before : List (List Char)) {after : List (List Char)} (filled : after ≠ []) :
    steps namespaces "" (before ++ after) =
      before.mapM (part namespaces) >>= fun first =>
        steps namespaces "" after >>= fun later => .ok (first ++ later) := by
  induction before with
  | nil => exact (bind_pure (steps namespaces "" after)).symm
  | cons segment rest ih =>
    have more : rest ++ after ≠ [] := by simp [filled]
    rw [List.cons_append, steps_cons more, ih, List.mapM_cons]
    simp only [bind_assoc, pure_bind, part]
    rfl

theorem steps_spelled_iff (text : List Char) (results : List Step) :
    Step.SpellsAll namespaces text results ↔
      ∃ parts, segments 0 none text = .ok parts ∧
        steps namespaces "" (parts.map trim) = .ok results := by
  constructor
  · intro spells
    obtain ⟨parts, cut, _, read⟩ := steps_complete spells ""
    exact ⟨parts, cut, read⟩
  · rintro ⟨parts, cut, read⟩
    obtain ⟨filled, joined⟩ := segments_join cut
    exact joined ▸ steps_sound filled read

theorem spells_append_iff {left : List Char} {parts : List (List Char)}
    (closed : segments 0 none left = .ok parts) (right : List Char) (results : List Step) :
    Step.SpellsAll namespaces (left ++ '/' :: right) results ↔
      ∃ before after, (parts.map trim).mapM (part namespaces) = .ok before ∧
        Step.SpellsAll namespaces right after ∧ results = before ++ after := by
  simp only [steps_spelled_iff, segments_append closed]
  constructor
  · rintro ⟨whole, cut, read⟩
    obtain ⟨others, later, rfl⟩ := map_ok_iff.mp cut
    have filled : others.map trim ≠ [] := by simpa using (segments_join later).1
    rw [List.map_append, steps_append _ filled] at read
    obtain ⟨before, first, read⟩ := bind_ok_iff.mp read
    obtain ⟨after, rest, same⟩ := bind_ok_iff.mp read
    exact ⟨before, after, first, ⟨others, later, rest⟩, (Except.ok.inj same).symm⟩
  · rintro ⟨before, after, first, ⟨others, later, rest⟩, rfl⟩
    have filled : others.map trim ≠ [] := by simpa using (segments_join later).1
    refine ⟨parts ++ others, map_ok_iff.mpr ⟨others, later, rfl⟩, ?_⟩
    rw [List.map_append, steps_append _ filled, first, rest]
    rfl

theorem spells_front_iff {left : List Char} {parts : List (List Char)} {front : List Step}
    (closed : segments 0 none left = .ok parts)
    (read : (parts.map trim).mapM (part namespaces) = .ok front) (right : List Char)
    (results : List Step) :
    Step.SpellsAll namespaces (left ++ '/' :: right) results ↔
      ∃ after, Step.SpellsAll namespaces right after ∧ results = front ++ after := by
  rw [spells_append_iff closed, read]
  constructor
  · rintro ⟨before, after, same, spells, rfl⟩
    cases same
    exact ⟨after, spells, rfl⟩
  · rintro ⟨after, spells, rfl⟩
    exact ⟨front, after, rfl, spells, rfl⟩

@[simp] theorem spells_slash_iff (right : List Char) (results : List Step) :
    Step.SpellsAll namespaces ('/' :: right) results ↔
      ∃ after, Step.SpellsAll namespaces right after ∧ results = Step.anywhere :: after := by
  have empty : segments 0 none [] = .ok [[]] := rfl
  have passed : ([[]].map trim).mapM (part namespaces) = .ok [Step.anywhere] := rfl
  exact spells_front_iff empty passed right results

inductive Follows (namespaces : Namespaces) : List Char → List Step → Prop
  | nothing : Follows namespaces [] []
  | more {right : List Char} {steps : List Step} :
    Step.SpellsAll namespaces right steps → Follows namespaces ('/' :: right) steps

theorem spells_step_iff {gap text space right : List Char} {step : Step} (hg : Blanks gap)
    (spells : step.Spells namespaces text) (hs : Blanks space)
    (ended : right = [] ∨ right.head? = some '/') (results : List Step) :
    Step.SpellsAll namespaces (gap ++ text ++ space ++ right) results ↔
      ∃ others, Follows namespaces right others ∧ results = step :: others := by
  obtain ⟨uncut, trimmed, filled⟩ := step_trimmed hg spells hs
  have cut := segments_last uncut
  have single : [trim (gap ++ text ++ space)].mapM (part namespaces) = .ok [step] := by
    rw [trimmed, List.mapM_cons, part, filled, step_complete spells]
    rfl
  rcases ended with rfl | slash
  · have read : steps namespaces "" ([gap ++ text ++ space].map trim) = .ok [step] := by
      rw [List.map_cons, List.map_nil, trimmed, steps, filled, step_complete spells]
      rfl
    rw [List.append_nil, steps_spelled_iff, cut]
    constructor
    · rintro ⟨parts, same, whole⟩
      cases same
      rw [read] at whole
      cases whole
      exact ⟨[], .nothing, rfl⟩
    · rintro ⟨others, follows, rfl⟩
      cases follows
      exact ⟨_, rfl, read⟩
  · obtain ⟨rest, rfl⟩ := List.head?_eq_some_iff.mp slash
    rw [spells_front_iff cut single]
    constructor
    · rintro ⟨after, later, rfl⟩
      exact ⟨after, .more later, rfl⟩
    · rintro ⟨others, follows, rfl⟩
      cases follows with
      | more later => exact ⟨others, later, rfl⟩

theorem route_absolute_iff {rest : List Char} (filled : rest ≠ []) (route : Route) :
    route.Spells namespaces ('/' :: rest) ↔
      ∃ steps, Step.SpellsAll namespaces rest steps ∧ route = .steps true steps := by
  constructor
  · intro spells
    cases spells with
    | document => exact absurd rfl filled
    | absolute spelled => exact ⟨_, spelled, rfl⟩
    | relative _ apart => exact absurd rfl apart
  · rintro ⟨steps, spelled, rfl⟩
    exact .absolute spelled

theorem route_relative_iff {text : List Char} (slash : text.head? ≠ some '/') (dot : text ≠ ['.'])
    (route : Route) :
    route.Spells namespaces text ↔
      ∃ steps, Step.SpellsAll namespaces text steps ∧ route = .steps false steps := by
  constructor
  · intro spells
    cases spells with
    | here => exact absurd rfl dot
    | document => exact absurd rfl slash
    | absolute => exact absurd rfl slash
    | relative _ _ spelled => exact ⟨_, spelled, rfl⟩
  · rintro ⟨steps, spelled, rfl⟩
    exact .relative dot slash spelled

theorem steps_append_iff {left : List Char} {parts : List (List Char)}
    (closed : segments 0 none left = .ok parts) (right : List Char) (absolute : Bool)
    (route : Route) :
    (∃ steps, Step.SpellsAll namespaces (left ++ '/' :: right) steps ∧
        route = .steps absolute steps) ↔
      ∃ before after, (parts.map trim).mapM (part namespaces) = .ok before ∧
        Step.SpellsAll namespaces right after ∧ route = .steps absolute (before ++ after) := by
  simp only [spells_append_iff closed]
  constructor
  · rintro ⟨_, ⟨before, after, first, spelled, rfl⟩, rfl⟩
    exact ⟨before, after, first, spelled, rfl⟩
  · rintro ⟨before, after, first, spelled, rfl⟩
    exact ⟨_, ⟨before, after, first, spelled, rfl⟩, rfl⟩

/-- What a path starts with, up to a slash, is read for itself: whether it starts at the document,
and the steps before the slash. -/
theorem route_spells_iff (namespaces : Namespaces) {left : List Char} (closed : IsClosed left) :
    ∃ (absolute : Bool) (reads : List Step → Prop), ∀ (right : List Char) (route : Route),
      right ≠ [] → (route.Spells namespaces (left ++ '/' :: right) ↔
        ∃ before after, reads before ∧ Step.SpellsAll namespaces right after ∧
          route = .steps absolute (before ++ after)) := by
  obtain ⟨parts, cut⟩ := closed
  cases left with
  | nil =>
    refine ⟨true, (· = []), fun right route filled => ?_⟩
    rw [List.nil_append, route_absolute_iff filled]
    constructor
    · rintro ⟨steps, spelled, rfl⟩
      exact ⟨[], steps, rfl, spelled, rfl⟩
    · rintro ⟨_, steps, rfl, spelled, rfl⟩
      exact ⟨steps, spelled, rfl⟩
  | cons c rest =>
    by_cases slash : c = '/'
    · subst slash
      rw [segments_slash] at cut
      obtain ⟨others, later, _⟩ := map_ok_iff.mp cut
      refine ⟨true, fun before => (others.map trim).mapM (part namespaces) = .ok before, ?_⟩
      intro right route _
      rw [List.cons_append, route_absolute_iff (by simp), steps_append_iff later]
    · refine ⟨false, fun before => (parts.map trim).mapM (part namespaces) = .ok before, ?_⟩
      intro right route _
      rw [route_relative_iff (by simpa using slash) (by simp), steps_append_iff cut]

/-- Two texts of which both are paths or none is; if they are, they select the same from each place
of a document. -/
structure SelectsAlike (namespaces : Namespaces) (text other : String) : Prop where
  accepted : (∃ path, read namespaces text = .ok path) ↔ ∃ path, read namespaces other = .ok path
  selects : ∀ path same, read namespaces text = .ok path → read namespaces other = .ok same →
    ∀ (document : Document), ∀ context ∈ document.places, same.select context = path.select context

theorem select_interchange {path same : Path} {absolute : Bool} {steps others : List Step}
    (route : path.route = .steps absolute steps) (sameRoute : same.route = .steps absolute others)
    (interchange : Step.Interchange steps others) {document : Document} {context : Xml.Place}
    (member : context ∈ document.places) : same.select context = path.select context := by
  rw [select, select, route, sameRoute]
  exact (interchange document _ (start_mem member absolute)).symm

/-- When a text spells steps, another one spells steps that are interchangeable with them. -/
def Respells (namespaces : Namespaces) (text other : List Char) : Prop :=
  ∀ steps, Step.SpellsAll namespaces text steps →
    ∃ others, Step.SpellsAll namespaces other others ∧ Step.Interchange steps others

theorem respelled {left right after : List Char} (closed : IsClosed left) (filled : right ≠ [])
    (afterFilled : after ≠ []) (respells : Respells namespaces right after) {route : Route}
    (spells : route.Spells namespaces (left ++ '/' :: right)) :
    ∃ absolute steps others, route = .steps absolute steps ∧
      (Route.steps absolute others).Spells namespaces (left ++ '/' :: after) ∧
      Step.Interchange steps others := by
  obtain ⟨absolute, reads, whole⟩ := route_spells_iff namespaces closed
  obtain ⟨before, steps, first, spelled, rfl⟩ := (whole right route filled).mp spells
  obtain ⟨others, otherSpelled, interchange⟩ := respells steps spelled
  exact ⟨absolute, before ++ steps, before ++ others, rfl,
    (whole after _ afterFilled).mpr ⟨before, others, first, otherSpelled, rfl⟩,
    interchange.after before⟩

theorem read_of_respells {text other : String} {left right after : List Char} {path : Path}
    (closed : IsClosed left) (filled : right ≠ []) (afterFilled : after ≠ [])
    (cut : trim text.toList = left ++ '/' :: right)
    (otherCut : trim other.toList = left ++ '/' :: after)
    (respells : Respells namespaces right after) (found : read namespaces text = .ok path) :
    ∃ same, read namespaces other = .ok same := by
  have spells := ((read_ok_iff namespaces text path).mp found).2
  rw [cut] at spells
  obtain ⟨absolute, _, others, _, otherSpells, _⟩ :=
    respelled closed filled afterFilled respells spells
  rw [← otherCut] at otherSpells
  exact ⟨⟨Text.trimmed other, .steps absolute others⟩,
    (read_ok_iff namespaces other _).mpr ⟨rfl, otherSpells⟩⟩

theorem selectsAlike_of_respells {text other : String} {left right after : List Char}
    (closed : IsClosed left) (filled : right ≠ []) (afterFilled : after ≠ [])
    (cut : trim text.toList = left ++ '/' :: right)
    (otherCut : trim other.toList = left ++ '/' :: after)
    (onward : Respells namespaces right after) (back : Respells namespaces after right) :
    SelectsAlike namespaces text other := by
  constructor
  · exact ⟨fun ⟨_, found⟩ => read_of_respells closed filled afterFilled cut otherCut onward found,
      fun ⟨_, found⟩ => read_of_respells closed afterFilled filled otherCut cut back found⟩
  · intro path same found sameFound document context member
    have spells := ((read_ok_iff namespaces text path).mp found).2
    have sameSpells := ((read_ok_iff namespaces other same).mp sameFound).2
    rw [cut] at spells
    rw [otherCut] at sameSpells
    -- The other text spells one route only, so the interchangeable steps are those it was read as.
    obtain ⟨absolute, steps, others, route, otherSpells, interchange⟩ :=
      respelled closed filled afterFilled onward spells
    exact select_interchange route (route_unique sameSpells otherSpells) interchange member

theorem IsClosed.trimStart {text : List Char} (closed : IsClosed text) :
    IsClosed (Text.trimStart text) := by
  obtain ⟨parts, cut⟩ := closed
  obtain ⟨gap, blanks, whole, _⟩ := Text.exists_trimStart text
  rw [whole, Uncut.blanks blanks] at cut
  obtain ⟨others, later, _⟩ := map_ok_iff.mp cut
  exact ⟨others, later⟩

theorem spells_slashes_iff (n : Nat) (right : List Char) (results : List Step) :
    Step.SpellsAll namespaces (List.replicate n '/' ++ right) results ↔
      ∃ after, Step.SpellsAll namespaces right after ∧
        results = List.replicate n Step.anywhere ++ after := by
  induction n generalizing results with
  | zero => simp
  | succ n ih =>
    rw [List.replicate_succ, List.cons_append, spells_slash_iff]
    simp only [ih]
    constructor
    · rintro ⟨_, ⟨after, spells, rfl⟩, rfl⟩
      exact ⟨after, spells, rfl⟩
    · rintro ⟨after, spells, rfl⟩
      exact ⟨_, ⟨after, spells, rfl⟩, rfl⟩

theorem slashes_selectsAlike {left : List Char} (closed : IsClosed left) (right : List Char)
    (n : Nat) {text other : String} (written : text.toList = left ++ '/' :: '/' :: right)
    (more : other.toList = left ++ '/' :: '/' :: (List.replicate n '/' ++ right)) :
    SelectsAlike namespaces text other := by
  have visible : isBlank '/' = false := by decide
  have few : trim text.toList = trimStart left ++ '/' :: '/' :: trimEnd right := by
    have ended := Text.trimEnd_stop visible [] right
    rw [List.nil_append, List.nil_append] at ended
    rw [written, Text.trim_stop visible, ended]
  -- Of the slashes in a row the last one keeps the blanks at the end away from the others.
  have many : trim other.toList =
      trimStart left ++ '/' :: (List.replicate (n + 1) '/' ++ trimEnd right) := by
    have slashes : '/' :: (List.replicate n '/' ++ right) =
        List.replicate n '/' ++ '/' :: right := by
      rw [← List.cons_append, ← List.replicate_succ, List.replicate_succ', List.append_assoc]
      rfl
    rw [more, Text.trim_stop visible, slashes, Text.trimEnd_stop visible, List.replicate_succ',
      List.append_assoc]
    rfl
  apply selectsAlike_of_respells closed.trimStart (List.cons_ne_nil _ _) (by simp) few many
  · intro steps spells
    obtain ⟨after, later, rfl⟩ := (spells_slash_iff _ _).mp spells
    exact ⟨_, (spells_slashes_iff _ _ _).mpr ⟨after, later, rfl⟩,
      ((Step.Interchange.anywhere_often n).before after).symm⟩
  · intro steps spells
    obtain ⟨after, later, rfl⟩ := (spells_slashes_iff _ _ _).mp spells
    exact ⟨_, (spells_slash_iff _ _).mpr ⟨after, later, rfl⟩,
      (Step.Interchange.anywhere_often n).before after⟩

theorem trimEnd_after_step (namespaces : Namespaces) {space right : List Char} (hs : Blanks space)
    (ended : right = [] ∨ right.head? = some '/') :
    ∃ gap rest, Blanks gap ∧ (rest = [] ∨ rest.head? = some '/') ∧
      ∀ (before : List Char) {text : List Char} {step : Step}, step.Spells namespaces text →
        trimEnd (before ++ text ++ space ++ right) = before ++ text ++ gap ++ rest := by
  rcases ended with rfl | slash
  · refine ⟨[], [], .nil, .inl rfl, fun before text step spells => ?_⟩
    obtain ⟨tight, filled⟩ := step_tight spells
    simp only [List.append_nil]
    rw [Text.trimEnd_append hs, Text.trimEnd_of_last]
    intro c last
    rw [List.getLast?_append_of_ne_nil _ filled] at last
    exact tight.last c last
  · obtain ⟨rest, rfl⟩ := List.head?_eq_some_iff.mp slash
    refine ⟨space, '/' :: trimEnd rest, hs, .inr rfl, fun before text step _ => ?_⟩
    exact Text.trimEnd_stop (by decide) (before ++ text ++ space) rest

/-- Before a step on the child axis that asks for no position, `//` abbreviates the descendant
axis. -/
theorem descendant_selectsAlike {left gap body below space right : List Char} {test : NodeTest}
    {predicates : List Predicate} {text other : String} (closed : IsClosed left) (hg : Blanks gap)
    (child : Step.Spells namespaces body ⟨.child, test, predicates⟩)
    (descendant : Step.Spells namespaces below ⟨.descendant, test, predicates⟩)
    (plain : ∀ predicate ∈ predicates, ¬ predicate.IsPositional) (hs : Blanks space)
    (ended : right = [] ∨ right.head? = some '/')
    (written : text.toList = left ++ '/' :: '/' :: (gap ++ body ++ space ++ right))
    (replaced : other.toList = left ++ '/' :: (gap ++ below ++ space ++ right)) :
    SelectsAlike namespaces text other := by
  have visible : isBlank '/' = false := by decide
  have same := Step.Interchange.descendant plain test
  obtain ⟨tail, rest, ht, rested, trimmed⟩ := trimEnd_after_step namespaces hs ended
  have short : trim text.toList =
      trimStart left ++ '/' :: '/' :: (gap ++ body ++ tail ++ rest) := by
    have inner := Text.trimEnd_stop visible [] (gap ++ body ++ space ++ right)
    rw [List.nil_append, List.nil_append, trimmed gap child] at inner
    rw [written, Text.trim_stop visible, inner]
  have long : trim other.toList = trimStart left ++ '/' :: (gap ++ below ++ tail ++ rest) := by
    rw [replaced, Text.trim_stop visible, trimmed gap descendant]
  have filled : gap ++ below ++ tail ++ rest ≠ [] := by simp [(step_tight descendant).2]
  apply selectsAlike_of_respells closed.trimStart (List.cons_ne_nil _ _) filled short long
  · intro steps spells
    obtain ⟨after, later, rfl⟩ := (spells_slash_iff _ _).mp spells
    obtain ⟨others, follows, rfl⟩ := (spells_step_iff hg child ht rested after).mp later
    exact ⟨_, (spells_step_iff hg descendant ht rested _).mpr ⟨others, follows, rfl⟩,
      same.before others⟩
  · intro steps spells
    obtain ⟨others, follows, rfl⟩ := (spells_step_iff hg descendant ht rested steps).mp spells
    have later := (spells_step_iff hg child ht rested _).mpr ⟨others, follows, rfl⟩
    exact ⟨_, (spells_slash_iff _ _).mpr ⟨_, later, rfl⟩, (same.before others).symm⟩

theorem read_of_spells {text : String} {written : List Char} {route : Route}
    (same : text.toList = written) (tight : Text.Tight written)
    (spells : route.Spells namespaces written) :
    ∃ path, read namespaces text = .ok path ∧ path.route = route := by
  rw [← Text.trim_of_tight tight, ← same] at spells
  exact ⟨⟨Text.trimmed text, route⟩, (read_ok_iff namespaces text _).mpr ⟨rfl, spells⟩, rfl⟩

theorem selectsAlike_of_routes {text other : String} {path same : Path} {absolute : Bool}
    {steps others : List Step} (found : read namespaces text = .ok path)
    (sameFound : read namespaces other = .ok same) (route : path.route = .steps absolute steps)
    (sameRoute : same.route = .steps absolute others)
    (interchange : Step.Interchange steps others) : SelectsAlike namespaces text other := by
  constructor
  · exact ⟨fun _ => ⟨same, sameFound⟩, fun _ => ⟨path, found⟩⟩
  · intro first second read otherRead document context member
    obtain rfl := Except.ok.inj (found.symm.trans read)
    obtain rfl := Except.ok.inj (sameFound.symm.trans otherRead)
    exact select_interchange route sameRoute interchange member

theorem spells_alone {text : List Char} {step : Step} (spells : step.Spells namespaces text) :
    Step.SpellsAll namespaces text [step] := by
  have last := Step.SpellsAll.last .nil spells .nil
  rwa [List.nil_append, List.append_nil] at last

theorem spells_anywhere {text : List Char} {step : Step} (spells : step.Spells namespaces text) :
    Step.SpellsAll namespaces ('/' :: text) [Step.anywhere, step] :=
  (spells_slash_iff _ _).mpr ⟨_, spells_alone spells, rfl⟩

theorem descendant_spells {front back : List Char} {test : NodeTest} {predicates : List Predicate}
    (tested : test.Spells namespaces front)
    (kept : Predicate.SpellsAll namespaces back predicates) :
    Step.Spells namespaces ("descendant::".toList ++ (front ++ back))
      ⟨.descendant, test, predicates⟩ := by
  have named : Axis.ofName? (String.ofList "descendant".toList) = some .descendant := by
    rw [String.ofList_toList]
    rfl
  have along := Step.Spells.along named .nil .nil tested kept
  simpa using along

theorem below_here {front back : String} {test : NodeTest} {predicates : List Predicate}
    (tested : test.Spells namespaces front.toList)
    (kept : Predicate.SpellsAll namespaces back.toList predicates)
    (plain : ∀ predicate ∈ predicates, ¬ predicate.IsPositional) :
    (∃ path, read namespaces (".//" ++ front ++ back) = .ok path) ∧
      SelectsAlike namespaces (".//" ++ front ++ back) ("descendant::" ++ front ++ back) := by
  have child := Step.Spells.child tested kept
  have descendant := descendant_spells tested kept
  have closed : segments 0 none ['.'] = .ok [['.']] := rfl
  have self : ([['.']].map trim).mapM (part namespaces) = .ok [⟨.self, .node, []⟩] := rfl
  have written : (".//" ++ front ++ back).toList =
      '.' :: '/' :: '/' :: (front.toList ++ back.toList) := by simp
  have replaced : ("descendant::" ++ front ++ back).toList =
      "descendant::".toList ++ (front.toList ++ back.toList) := by simp
  obtain ⟨tight, filled⟩ := step_tight child
  have slashed : Text.Tight ('/' :: '/' :: (front.toList ++ back.toList)) :=
    (tight.cons (by decide) filled).cons (by decide) (List.cons_ne_nil _ _)
  have dotted : Text.Tight ('.' :: '/' :: '/' :: (front.toList ++ back.toList)) :=
    slashed.cons (by decide) (List.cons_ne_nil _ _)
  have spelled := (spells_front_iff closed self _ _).mpr ⟨_, spells_anywhere child, rfl⟩
  obtain ⟨path, found, route⟩ :=
    read_of_spells written dotted (.relative (by simp) (by simp) spelled)
  obtain ⟨same, sameFound, sameRoute⟩ :=
    read_of_spells replaced (step_tight descendant).1
      (.relative (by simp) (by simp) (spells_alone descendant))
  have interchange := (Step.Interchange.self_anywhere.before [⟨.child, test, predicates⟩]).trans
    (Step.Interchange.descendant plain test)
  exact ⟨⟨path, found⟩, selectsAlike_of_routes found sameFound route sameRoute interchange⟩

theorem below_document {front back : String} {test : NodeTest} {predicates : List Predicate}
    (tested : test.Spells namespaces front.toList)
    (kept : Predicate.SpellsAll namespaces back.toList predicates)
    (plain : ∀ predicate ∈ predicates, ¬ predicate.IsPositional) :
    (∃ path, read namespaces ("//" ++ front ++ back) = .ok path) ∧
      SelectsAlike namespaces ("//" ++ front ++ back) ("/descendant::" ++ front ++ back) := by
  have child := Step.Spells.child tested kept
  have descendant := descendant_spells tested kept
  have written : ("//" ++ front ++ back).toList = '/' :: '/' :: (front.toList ++ back.toList) := by
    simp
  have replaced : ("/descendant::" ++ front ++ back).toList =
      '/' :: ("descendant::".toList ++ (front.toList ++ back.toList)) := by simp
  obtain ⟨tight, filled⟩ := step_tight child
  have slashed : Text.Tight ('/' :: '/' :: (front.toList ++ back.toList)) :=
    (tight.cons (by decide) filled).cons (by decide) (List.cons_ne_nil _ _)
  obtain ⟨belowTight, belowFilled⟩ := step_tight descendant
  obtain ⟨path, found, route⟩ :=
    read_of_spells written slashed (.absolute (spells_anywhere child))
  obtain ⟨same, sameFound, sameRoute⟩ :=
    read_of_spells replaced (belowTight.cons (by decide) belowFilled)
      (.absolute (spells_alone descendant))
  exact ⟨⟨path, found⟩,
    selectsAlike_of_routes found sameFound route sameRoute (.descendant plain test)⟩

/-- Before a step on the child axis that asks for no position, `//` abbreviates the descendant axis,
from a place, from the document and further on in a path. More slashes than two are no more than
two, before any step. -/
theorem double_slash_selectsAlike (namespaces : Namespaces) :
    (∀ (front back : String) (test : NodeTest) (predicates : List Predicate),
      test.Spells namespaces front.toList → Predicate.SpellsAll namespaces back.toList predicates →
      (∀ predicate ∈ predicates, ¬ predicate.IsPositional) →
      ((∃ path, read namespaces (".//" ++ front ++ back) = .ok path) ∧
        SelectsAlike namespaces (".//" ++ front ++ back) ("descendant::" ++ front ++ back)) ∧
      (∃ path, read namespaces ("//" ++ front ++ back) = .ok path) ∧
        SelectsAlike namespaces ("//" ++ front ++ back) ("/descendant::" ++ front ++ back)) ∧
    (∀ (left gap child descendant space right : String) (test : NodeTest)
      (predicates : List Predicate), IsClosed left.toList → Blanks gap.toList →
      Step.Spells namespaces child.toList ⟨.child, test, predicates⟩ →
      Step.Spells namespaces descendant.toList ⟨.descendant, test, predicates⟩ →
      (∀ predicate ∈ predicates, ¬ predicate.IsPositional) → Blanks space.toList →
      (right = "" ∨ right.toList.head? = some '/') →
      SelectsAlike namespaces (left ++ "//" ++ gap ++ child ++ space ++ right)
        (left ++ "/" ++ gap ++ descendant ++ space ++ right)) ∧
    (∀ (left right : String) (n : Nat), IsClosed left.toList →
      SelectsAlike namespaces (left ++ "//" ++ right)
        (left ++ "//" ++ String.ofList (List.replicate n '/') ++ right)) := by
  refine ⟨?_, ?_, ?_⟩
  · intro front back test predicates tested kept plain
    exact ⟨below_here tested kept plain, below_document tested kept plain⟩
  · intro left gap child descendant space right test predicates closed hg spells below plain hs
      ended
    have rested : right.toList = [] ∨ right.toList.head? = some '/' := by
      rcases ended with rfl | slash
      · exact .inl rfl
      · exact .inr slash
    exact descendant_selectsAlike closed hg spells below plain hs rested (by simp) (by simp)
  · intro left right n closed
    exact slashes_selectsAlike closed right.toList n (by simp) (by simp)

/-- With an attribute asked for, `//` may be spelled out, in front of a path and inside of one; with
a position asked for, it may still be written with four slashes. -/
theorem double_slash_selectsAlike_persons :
    SelectsAlike [] (".//" ++ "p" ++ "[@n]") ("descendant::" ++ "p" ++ "[@n]") ∧
      SelectsAlike [] ("a" ++ "//" ++ "" ++ "p[@n]" ++ " " ++ "/b[2]")
        ("a" ++ "/" ++ "" ++ "descendant::p[@n]" ++ " " ++ "/b[2]") ∧
      SelectsAlike [] ("a" ++ "//" ++ "p[1]")
        ("a" ++ "//" ++ String.ofList (List.replicate 2 '/') ++ "p[1]") := by
  obtain ⟨alone, inside, slashes⟩ := double_slash_selectsAlike []
  have plain : ∀ predicate ∈ [Predicate.hasAttribute ⟨none, "n"⟩], ¬ predicate.IsPositional := by
    simp [Predicate.IsPositional]
  have testRead : nodeTest [] "" "p".toList = .ok (.tag "p") := rfl
  have predicatesRead : predicates [] "" "[@n]".toList = .ok [.hasAttribute ⟨none, "n"⟩] := rfl
  have tight : ∀ c, "[@n]".toList.getLast? = some c → isBlank c = false := by
    rintro _ ⟨⟩
    rfl
  have tested := nodeTest_sound testRead
  have kept := predicates_sound predicatesRead tight
  have child : Step.Spells [] "p[@n]".toList ⟨.child, .tag "p", [.hasAttribute ⟨none, "n"⟩]⟩ :=
    .child tested kept
  have descendant : Step.Spells [] "descendant::p[@n]".toList
      ⟨.descendant, .tag "p", [.hasAttribute ⟨none, "n"⟩]⟩ := descendant_spells tested kept
  have closed : IsClosed "a".toList := ⟨[['a']], rfl⟩
  have space : Blanks " ".toList := by
    intro c member
    obtain rfl := List.mem_singleton.mp member
    rfl
  exact ⟨(alone "p" "[@n]" _ _ tested kept plain).1.2,
    inside "a" "" "p[@n]" "descendant::p[@n]" " " "/b[2]" _ _ closed .nil child descendant plain
      space (.inr rfl),
    slashes "a" "p[1]" 2 closed⟩

end Regesta.Path
