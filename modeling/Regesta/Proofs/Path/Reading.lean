import Regesta.Proofs.Path.Segment
import Regesta.Proofs.Path.Step

namespace Regesta.Path

open Text (Blanks Tight trim)

variable {namespaces : Namespaces}

theorem front_uncut {text : List Char} {axis : Axis} {test : NodeTest}
    (front : SpellsFront namespaces text axis test) : Uncut 0 0 text := .free front.free

theorem step_uncut {text : List Char} {step : Step} (spells : step.Spells namespaces text) :
    Uncut 0 0 text := by
  cases spells with
  | self => exact .free (List.all_iff_forall_prop.mp (by decide))
  | parent => exact .free (List.all_iff_forall_prop.mp (by decide))
  | child spelled rest => exact (front_uncut (.child spelled)).append (.predicates rest)
  | along known hb ha spelled rest =>
    exact (front_uncut (.along known hb ha spelled)).append (.predicates rest)

theorem steps_cons {path : String} {segment : List Char} {rest : List (List Char)}
    (filled : rest ≠ []) :
    steps namespaces path (segment :: rest) =
      (if segment.isEmpty then .ok Step.anywhere else step namespaces path segment) >>= fun first =>
        steps namespaces path rest >>= fun others => .ok (first :: others) := by
  rw [steps]
  · split <;> rfl
  · exact filled

theorem steps_sound {path : String} {parts : List (List Char)} {results : List Step}
    (filled : parts ≠ []) (read : steps namespaces path (parts.map trim) = .ok results) :
    Step.SpellsAll namespaces (['/'].intercalate parts) results := by
  induction parts generalizing results with
  | nil => exact absurd rfl filled
  | cons part others ih =>
    obtain ⟨before, after, hb, ha, shape, tight⟩ := Text.exists_trim part
    by_cases last : others = []
    · subst last
      rw [List.map_cons, List.map_nil, steps] at read
      split at read
      · cases read
      · obtain ⟨result, stepRead, rfl⟩ := map_ok_iff.mp read
        have spells := Step.SpellsAll.last hb (step_sound tight stepRead) ha
        rw [← shape] at spells
        rwa [List.intercalate_singleton]
    · have more : others.map trim ≠ [] := by simpa using last
      rw [List.map_cons, steps_cons more] at read
      obtain ⟨first, firstRead, read⟩ := bind_ok_iff.mp read
      obtain ⟨rest, restRead, finish⟩ := bind_ok_iff.mp read
      cases finish
      have later := ih last restRead
      rw [List.intercalate_cons_of_ne_nil last, List.append_assoc, List.singleton_append]
      split at firstRead
      · next empty =>
        cases firstRead
        rw [List.isEmpty_iff] at empty
        have blanks : Blanks part := by
          rw [shape, empty, List.append_nil]
          exact hb.append ha
        exact .anywhere blanks later
      · have spells := Step.SpellsAll.cons hb (step_sound tight firstRead) ha later
        rwa [← shape] at spells

theorem step_trimmed {before text after : List Char} {result : Step} (hb : Blanks before)
    (spells : result.Spells namespaces text) (ha : Blanks after) :
    Uncut 0 0 (before ++ text ++ after) ∧ trim (before ++ text ++ after) = text ∧
      text.isEmpty = false := by
  obtain ⟨tight, filled⟩ := step_tight spells
  refine ⟨?_, Text.trim_between hb tight ha, List.isEmpty_eq_false_iff.mpr filled⟩
  exact ((Uncut.blanks hb).append (step_uncut spells)).append (.blanks ha)

theorem steps_complete {text : List Char} {results : List Step}
    (spells : Step.SpellsAll namespaces text results) (path : String) :
    ∃ parts, segments 0 none text = .ok parts ∧ parts ≠ [] ∧
      steps namespaces path (parts.map trim) = .ok results := by
  induction spells with
  | @last before text after result hb spelled ha =>
    obtain ⟨uncut, trimmed, filled⟩ := step_trimmed hb spelled ha
    refine ⟨_, segments_last uncut, List.cons_ne_nil _ _, ?_⟩
    rw [List.map_cons, List.map_nil, trimmed, steps, filled, step_complete spelled]
    rfl
  | @cons before text after rest result others hb spelled ha _ ih =>
    obtain ⟨parts, cut, more, read⟩ := ih
    obtain ⟨uncut, trimmed, filled⟩ := step_trimmed hb spelled ha
    have later : parts.map trim ≠ [] := by simpa using more
    refine ⟨_, segments_first uncut cut, List.cons_ne_nil _ _, ?_⟩
    rw [List.map_cons, steps_cons later, trimmed, filled, step_complete spelled, read]
    rfl
  | @anywhere gap rest others blanks _ ih =>
    obtain ⟨parts, cut, more, read⟩ := ih
    have later : parts.map trim ≠ [] := by simpa using more
    refine ⟨_, segments_first (.blanks blanks) cut, List.cons_ne_nil _ _, ?_⟩
    rw [List.map_cons, steps_cons later, Text.trim_blanks blanks, read]
    rfl

theorem readRoute_eq {path : String} {text : List Char} {parts : List (List Char)}
    (filled : text ≠ []) (dot : text ≠ ['.']) (cut : segments 0 none text = .ok parts) :
    readRoute namespaces path text =
      if text.head? = some '/' then
        if (parts.map trim).drop 1 = [[]] then .ok (.steps true [])
        else (steps namespaces path ((parts.map trim).drop 1)).map (.steps true)
      else (steps namespaces path (parts.map trim)).map (.steps false) := by
  unfold readRoute
  rw [if_neg (by simpa using filled), if_neg dot, cut]

theorem route_sound {path : String} {text : List Char} {route : Route} (tight : Tight text)
    (read : readRoute namespaces path text = .ok route) : route.Spells namespaces text := by
  by_cases filled : text = []
  · subst filled
    cases read
  by_cases dot : text = ['.']
  · subst dot
    cases read
    exact .here
  cases cut : segments 0 none text with
  | error flaw =>
    unfold readRoute at read
    rw [if_neg (by simpa using filled), if_neg dot, cut] at read
    cases read
  | ok parts =>
    rw [readRoute_eq filled dot cut] at read
    split at read
    · next slash =>
      -- The slash in front cuts off an empty part, which is not read as a step.
      obtain ⟨rest, rfl⟩ := List.head?_eq_some_iff.mp slash
      rw [segments_slash] at cut
      obtain ⟨others, later, rfl⟩ := map_ok_iff.mp cut
      obtain ⟨more, joined⟩ := segments_join later
      rw [List.map_cons, List.drop_one, List.tail_cons] at read
      split at read
      · next alone =>
        cases read
        obtain ⟨part, rfl, empty⟩ := List.map_eq_singleton_iff.mp alone
        rw [List.intercalate_singleton] at joined
        obtain ⟨before, after, hb, ha, shape, _⟩ := Text.exists_trim part
        have blanks : Blanks rest := by
          rw [← joined, shape, empty, List.append_nil]
          exact hb.append ha
        rw [← List.singleton_append] at tight ⊢
        obtain rfl := tight.blanks_eq_nil blanks
        exact .document
      · obtain ⟨results, stepsRead, rfl⟩ := map_ok_iff.mp read
        rw [← joined]
        exact .absolute (steps_sound more stepsRead)
    · next slash =>
      obtain ⟨more, joined⟩ := segments_join cut
      obtain ⟨results, stepsRead, rfl⟩ := map_ok_iff.mp read
      have spells := steps_sound more stepsRead
      rw [joined] at spells
      exact .relative dot slash spells

theorem route_complete {text : List Char} {route : Route}
    (spells : route.Spells namespaces text) (path : String) :
    readRoute namespaces path text = .ok route := by
  have refused : steps namespaces path [[]] = refuse path .trailingSlash := rfl
  cases spells with
  | here => rfl
  | document => rfl
  | @absolute rest results spelled =>
    obtain ⟨parts, later, more, read⟩ := steps_complete spelled path
    have cut : segments 0 none ('/' :: rest) = .ok ([] :: parts) := by
      rw [segments_slash, later]
      rfl
    have other : '/' :: rest ≠ ['.'] := by
      intro same
      exact absurd (List.cons.inj same).1 (by decide)
    have named : parts.map trim ≠ [[]] := by
      intro alone
      rw [alone, refused] at read
      cases read
    rw [readRoute_eq (List.cons_ne_nil _ _) other cut, List.head?_cons, if_pos rfl, List.map_cons,
      List.drop_one, List.tail_cons, if_neg named, read]
    rfl
  | relative dot slash spelled =>
    obtain ⟨parts, cut, more, read⟩ := steps_complete spelled path
    have filled : text ≠ [] := by
      intro same
      subst same
      cases cut
      rw [show ([[]] : List (List Char)).map trim = [[]] from rfl, refused] at read
      cases read
    rw [readRoute_eq filled dot cut, if_neg slash, read]
    rfl

theorem read_ok_iff (namespaces : Namespaces) (text : String) (path : Path) :
    read namespaces text = .ok path ↔
      path.source = Text.trimmed text ∧ path.route.Spells namespaces (trim text.toList) := by
  rw [read, map_ok_iff]
  constructor
  · intro found
    obtain ⟨route, routeRead, same⟩ := found
    subst same
    exact ⟨rfl, route_sound (Text.tight_trim _) routeRead⟩
  · intro both
    obtain ⟨source, spells⟩ := both
    refine ⟨path.route, route_complete spells text, ?_⟩
    cases path
    subst source
    rfl

theorem route_unique {text : List Char} {route other : Route}
    (spells : route.Spells namespaces text) (otherSpells : other.Spells namespaces text) :
    route = other := by
  have first := route_complete spells ""
  have second := route_complete otherSpells ""
  rw [first] at second
  exact Except.ok.inj second

/-- A text is read as a path just when the text without the blanks around it spells the route, and
there is one route at most that it spells. -/
theorem read_iff_spelled (namespaces : Namespaces) (text : String) :
    (∀ path, read namespaces text = .ok path ↔
      path.source = Text.trimmed text ∧ path.route.Spells namespaces (trim text.toList)) ∧
    (∀ route other : Route, route.Spells namespaces (trim text.toList) →
      other.Spells namespaces (trim text.toList) → route = other) :=
  ⟨read_ok_iff namespaces text, fun _ _ spells otherSpells => route_unique spells otherSpells⟩

end Regesta.Path
