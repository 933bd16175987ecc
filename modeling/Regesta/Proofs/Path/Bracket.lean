import Regesta.Proofs.Path.Predicate

namespace Regesta.Path

open Text (Blanks Tight isBlank trim)
open Predicate (IsQuote IsBracket Closed SpellsAll)

@[simp] theorem quote_iff (c : Char) :
    (decide (c = '\'') || decide (c = '"')) = true ↔ IsQuote c := by
  simp [IsQuote]

theorem restOfBody_plain {c : Char} (quote : ¬ IsQuote c) (bracket : ¬ IsBracket c)
    (body rest : List Char) :
    restOfBody none body (c :: rest) = restOfBody none (c :: body) rest := by
  rw [IsBracket, not_or] at bracket
  rw [restOfBody, if_neg (mt (quote_iff c).mp quote), if_neg bracket.1, if_neg bracket.2]

theorem restOfBody_opens {q : Char} (quote : IsQuote q) (body rest : List Char) :
    restOfBody none body (q :: rest) = restOfBody (some q) (q :: body) rest := by
  rw [restOfBody, if_pos ((quote_iff q).mpr quote)]

theorem restOfBody_quoted {q : Char} {inner : List Char} (fresh : q ∉ inner)
    (body rest : List Char) :
    restOfBody (some q) body (inner ++ q :: rest) =
      restOfBody none (q :: (inner.reverse ++ body)) rest := by
  induction inner generalizing body with
  | nil => simp [restOfBody]
  | cons c others ih =>
    rw [List.mem_cons, not_or] at fresh
    rw [List.cons_append, restOfBody, if_neg (Ne.symm fresh.1), ih fresh.2]
    simp

theorem restOfBody_passes {inner : List Char} (closed : Closed inner) (body rest : List Char) :
    restOfBody none body (inner ++ rest) = restOfBody none (inner.reverse ++ body) rest := by
  induction closed generalizing body with
  | nil => rfl
  | plain quote bracket _ ih =>
    rw [List.cons_append, restOfBody_plain quote bracket, ih]
    simp
  | @quoted q inside others quote fresh _ ih =>
    rw [List.append_assoc, List.cons_append, List.cons_append, restOfBody_opens quote,
      restOfBody_quoted fresh, ih]
    simp

theorem restOfBody_closed {inner : List Char} (closed : Closed inner) (body rest : List Char) :
    restOfBody none body (inner ++ ']' :: rest) =
      ((body.reverse ++ inner) :: (predicateBodies rest).1, (predicateBodies rest).2) := by
  rw [restOfBody_passes closed]
  simp [restOfBody]

theorem predicateBodies_gap {gap : List Char} (blanks : Blanks gap) (text : List Char) :
    predicateBodies (gap ++ text) = predicateBodies text := by
  induction gap with
  | nil => rfl
  | cons c rest ih =>
    rw [List.cons_append, predicateBodies, if_pos (blanks c List.mem_cons_self), ih blanks.tail]

theorem predicateBodies_bracket {gap inner : List Char} (blanks : Blanks gap)
    (closed : Closed inner) (rest : List Char) :
    predicateBodies (gap ++ '[' :: inner ++ ']' :: rest) =
      (inner :: (predicateBodies rest).1, (predicateBodies rest).2) := by
  rw [List.append_assoc, predicateBodies_gap blanks, List.cons_append, predicateBodies,
    if_neg (by decide), if_pos rfl, restOfBody_closed closed]
  rfl

theorem restOfBody_quoted_sound {q : Char} {body text : List Char} {bodies : List (List Char)}
    (found : restOfBody (some q) body text = (bodies, none)) :
    ∃ inner rest, text = inner ++ q :: rest ∧ q ∉ inner ∧
      restOfBody none (q :: (inner.reverse ++ body)) rest = (bodies, none) := by
  induction text generalizing body with
  | nil => simp [restOfBody] at found
  | cons c others ih =>
    rw [restOfBody] at found
    by_cases same : c = q
    · subst same
      rw [if_pos rfl] at found
      exact ⟨[], others, rfl, List.not_mem_nil, found⟩
    · rw [if_neg same] at found
      obtain ⟨inner, rest, rfl, fresh, later⟩ := ih found
      refine ⟨c :: inner, rest, rfl, ?_, ?_⟩
      · rw [List.mem_cons, not_or]
        exact ⟨Ne.symm same, fresh⟩
      · simpa using later

theorem restOfBody_sound {body text : List Char} {bodies : List (List Char)}
    (found : restOfBody none body text = (bodies, none)) :
    ∃ inner rest others, text = inner ++ ']' :: rest ∧ Closed inner ∧
      bodies = (body.reverse ++ inner) :: others ∧ predicateBodies rest = (others, none) := by
  -- On the length: a quote is passed over at once, so that the rest is no tail of the text.
  induction size : text.length using Nat.strongRecOn generalizing text body with
  | _ n ih =>
    cases text with
    | nil => simp [restOfBody] at found
    | cons c tail =>
      by_cases quote : IsQuote c
      · rw [restOfBody_opens quote] at found
        obtain ⟨inside, after, rfl, fresh, later⟩ := restOfBody_quoted_sound found
        have shorter : after.length < n := by
          simp only [List.length_cons, List.length_append] at size
          omega
        obtain ⟨inner, rest, others, rfl, closed, rfl, following⟩ := ih _ shorter later rfl
        refine ⟨c :: inside ++ c :: inner, rest, others, ?_, .quoted quote fresh closed, ?_,
          following⟩
        · simp
        · simp
      · by_cases bracket : IsBracket c
        · rcases bracket with rfl | rfl
          · rw [restOfBody, if_neg (by decide), if_pos rfl] at found
            cases found
          · rw [restOfBody, if_neg (by decide), if_neg (by decide), if_pos rfl] at found
            obtain ⟨same, clear⟩ := Prod.mk.inj found
            refine ⟨[], tail, (predicateBodies tail).1, rfl, .nil, ?_, Prod.ext rfl clear⟩
            rw [List.append_nil]
            exact same.symm
        · rw [restOfBody_plain quote bracket] at found
          have shorter : tail.length < n := by
            rw [← size, List.length_cons]
            omega
          obtain ⟨inner, rest, others, rfl, closed, rfl, following⟩ := ih _ shorter found rfl
          exact ⟨c :: inner, rest, others, rfl, .plain quote bracket closed, by simp, following⟩

theorem predicateBodies_sound {text : List Char} {bodies : List (List Char)}
    (found : predicateBodies text = (bodies, none)) :
    (bodies = [] ∧ Blanks text) ∨
      ∃ gap inner rest others, Blanks gap ∧ text = gap ++ '[' :: inner ++ ']' :: rest ∧
        Closed inner ∧ bodies = inner :: others ∧ predicateBodies rest = (others, none) := by
  induction text with
  | nil =>
    rw [predicateBodies] at found
    cases found
    exact .inl ⟨rfl, .nil⟩
  | cons c tail ih =>
    rw [predicateBodies] at found
    split at found
    · next blank =>
      rcases ih found with ⟨rfl, blanks⟩ | ⟨gap, inner, rest, others, blanks, rfl, more⟩
      · exact .inl ⟨rfl, .cons blank blanks⟩
      · exact .inr ⟨c :: gap, inner, rest, others, .cons blank blanks, rfl, more⟩
    · split at found
      · next bracket =>
        obtain ⟨inner, rest, others, rfl, closed, rfl, later⟩ := restOfBody_sound found
        exact .inr ⟨[], inner, rest, others, .nil, by rw [bracket]; rfl, closed, rfl, later⟩
      · cases found

theorem predicateBodies_spelled {namespaces : Namespaces} {path : String} {text : List Char}
    {bodies : List (List Char)} {predicates : List Predicate}
    (found : predicateBodies text = (bodies, none))
    (read : List.Forall₂ (fun body result => predicate namespaces path body = .ok result) bodies
      predicates)
    (last : ∀ c, text.getLast? = some c → isBlank c = false) :
    SpellsAll namespaces text predicates := by
  induction read generalizing text with
  | nil =>
    rcases predicateBodies_sound found with ⟨_, blanks⟩ | ⟨_, _, _, _, _, _, _, impossible, _⟩
    · have tight : Text.trimEnd text = text := Text.trimEnd_of_last last
      have none : Text.trimEnd ([] ++ text) = Text.trimEnd [] := Text.trimEnd_append blanks []
      rw [List.nil_append, tight] at none
      subst none
      exact .nil
    · cases impossible
  | @cons body result bodies predicates first _ ih =>
    rcases predicateBodies_sound found with
      ⟨impossible, _⟩ | ⟨gap, inner, rest, others, blanks, rfl, closed, same, later⟩
    · cases impossible
    · cases same
      have ending : ∀ c, rest.getLast? = some c → isBlank c = false := by
        intro c final
        apply last c
        rw [List.getLast?_append, List.getLast?_cons, final]
        rfl
      obtain ⟨before, after, hb, ha, parts, _⟩ := Text.exists_trim body
      rw [parts] at closed ⊢
      have spells := SpellsAll.cons blanks hb (predicate_sound first) ha closed (ih later ending)
      simpa only [List.append_assoc, List.cons_append] using spells

theorem predicates_sound {namespaces : Namespaces} {path : String} {text : List Char}
    {results : List Predicate} (read : predicates namespaces path text = .ok results)
    (last : ∀ c, text.getLast? = some c → isBlank c = false) :
    SpellsAll namespaces text results := by
  unfold predicates at read
  cases found : predicateBodies text with
  | mk bodies flaw =>
    rw [found] at read
    obtain ⟨values, each, finish⟩ := bind_ok_iff.mp read
    cases flaw with
    | some flaw => cases finish
    | none =>
      cases finish
      exact predicateBodies_spelled found (mapM_ok_iff.mp each) last

theorem predicateBodies_complete {namespaces : Namespaces} {text : List Char}
    {results : List Predicate} (spells : SpellsAll namespaces text results) (path : String) :
    ∃ bodies, predicateBodies text = (bodies, none) ∧
      List.Forall₂ (fun body result => predicate namespaces path body = .ok result) bodies
        results := by
  induction spells with
  | nil => exact ⟨[], rfl, .nil⟩
  | @cons gap before body after rest result others blanks hb spelled ha closed _ ih =>
    obtain ⟨bodies, found, read⟩ := ih
    refine ⟨(before ++ body ++ after) :: bodies, ?_, .cons ?_ read⟩
    · have bracket := predicateBodies_bracket blanks closed rest
      rw [found] at bracket
      simpa only [List.append_assoc, List.cons_append] using bracket
    · apply predicate_complete
      rw [Text.trim_between hb (predicate_tight spelled) ha]
      exact spelled

theorem predicates_complete {namespaces : Namespaces} {text : List Char}
    {results : List Predicate} (spells : SpellsAll namespaces text results) (path : String) :
    predicates namespaces path text = .ok results := by
  obtain ⟨bodies, found, read⟩ := predicateBodies_complete spells path
  unfold predicates
  rw [found]
  exact bind_ok_iff.mpr ⟨results, mapM_ok_iff.mpr read, rfl⟩

theorem bodies_within (text : List Char) :
    (∀ body ∈ (predicateBodies text).1, body <:+: text) ∧
      ∀ quote front, ∀ body ∈ (restOfBody quote front text).1, body <:+: front.reverse ++ text := by
  induction text with
  | nil => simp [predicateBodies, restOfBody]
  | cons c rest ih =>
    obtain ⟨bodies, others⟩ := ih
    have shift : ∀ front : List Char,
        (c :: front).reverse ++ rest = front.reverse ++ c :: rest := by
      simp
    refine ⟨?_, ?_⟩
    · intro body member
      rw [predicateBodies] at member
      split at member
      · exact (bodies body member).trans (List.suffix_cons _ _).isInfix
      · split at member
        · exact (others none [] body member).trans (List.suffix_cons _ _).isInfix
        · cases member
    · intro quote front body member
      cases quote with
      | some q =>
        rw [restOfBody] at member
        exact shift front ▸ others _ (c :: front) body member
      | none =>
        rw [restOfBody] at member
        split at member
        · exact shift front ▸ others _ (c :: front) body member
        split at member
        · cases member
        split at member
        · rcases List.mem_cons.mp member with rfl | later
          · exact (List.prefix_append _ _).isInfix
          · have inside := (bodies body later).trans (List.suffix_cons c rest).isInfix
            exact inside.trans (List.suffix_append _ _).isInfix
        · exact shift front ▸ others none (c :: front) body member

end Regesta.Path
