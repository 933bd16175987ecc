import Regesta.Proofs.Path.Bracket

namespace Regesta.Path

open Text (Blanks extendFirst extendFirst_filled intercalate_extendFirst)
open Predicate (IsQuote IsBracket Closed)

theorem foldr_extendFirst (text part : List Char) (others : List (List Char)) :
    text.foldr extendFirst (part :: others) = (text ++ part) :: others := by
  induction text with
  | nil => rfl
  | cons c rest ih => rw [List.foldr_cons, ih, extendFirst, List.cons_append]

theorem blanks_free {gap : List Char} (blanks : Blanks gap) :
    ∀ sign ∈ ['\'', '"', '[', ']', '/'], sign ∉ gap := by
  intro sign among member
  have visible : ∀ d ∈ ['\'', '"', '[', ']', '/'], Text.isBlank d = false :=
    List.all_iff_forall_prop.mp (by decide)
  exact blanks.not_mem (visible sign among) member

/-- Texts that cutting passes over, between two numbers of open brackets. -/
def Uncut (before after : Nat) (text : List Char) : Prop :=
  ∀ rest, segments before none (text ++ rest) =
    (segments after none rest).map fun parts => text.foldr extendFirst parts

namespace Uncut

theorem nil (depth : Nat) : Uncut depth depth [] := by
  intro rest
  rw [List.nil_append]
  cases segments depth none rest <;> rfl

theorem append {a b c : Nat} {left right : List Char} (hl : Uncut a b left) (hr : Uncut b c right) :
    Uncut a c (left ++ right) := by
  intro rest
  rw [List.append_assoc, hl, hr]
  cases segments c none rest with
  | error flaw => rfl
  | ok parts => simp [Except.map]

theorem plain {c : Char} {depth : Nat} (quote : ¬ IsQuote c) (bracket : ¬ IsBracket c)
    (slash : c = '/' → depth ≠ 0) : Uncut depth depth [c] := by
  intro rest
  rw [IsBracket, not_or] at bracket
  have uncut : ¬ (decide (c = '/') && decide (depth = 0)) = true := by
    rw [Bool.and_eq_true, decide_eq_true_eq, decide_eq_true_eq]
    exact fun both => slash both.1 both.2
  rw [List.singleton_append, segments]
  simp only [if_neg (mt (quote_iff c).mp quote), if_neg bracket.1, if_neg bracket.2, if_neg uncut]
  rfl

theorem opening (depth : Nat) : Uncut depth (depth + 1) ['['] := by
  intro rest
  rw [List.singleton_append, segments]
  rfl

theorem closing (depth : Nat) : Uncut (depth + 1) depth [']'] := by
  intro rest
  rw [List.singleton_append, segments]
  rfl

theorem inside {q : Char} {inner : List Char} (fresh : q ∉ inner) (depth : Nat)
    (rest : List Char) :
    segments depth (some q) (inner ++ q :: rest) =
      (segments depth none rest).map fun parts => (inner ++ [q]).foldr extendFirst parts := by
  induction inner with
  | nil =>
    rw [List.nil_append, segments]
    simp only [if_true]
    rfl
  | cons c others ih =>
    rw [List.mem_cons, not_or] at fresh
    rw [List.cons_append, segments]
    simp only [if_neg (Ne.symm fresh.1), ih fresh.2]
    cases segments depth none rest <;> rfl

theorem quoted {q : Char} {inner : List Char} (quote : IsQuote q) (fresh : q ∉ inner)
    (depth : Nat) : Uncut depth depth (q :: inner ++ [q]) := by
  intro rest
  rw [List.cons_append, List.cons_append, List.append_assoc, List.singleton_append, segments]
  simp only [if_pos ((quote_iff q).mpr quote), inside fresh]
  cases segments depth none rest <;> rfl

theorem closed {inner : List Char} (closed : Closed inner) (depth : Nat) :
    Uncut (depth + 1) (depth + 1) inner := by
  induction closed with
  | nil => exact nil _
  | plain quote bracket _ ih =>
    exact (plain quote bracket fun _ => Nat.succ_ne_zero depth).append ih
  | quoted quote fresh _ ih =>
    have whole := (quoted quote fresh (depth + 1)).append ih
    simpa only [List.append_assoc, List.singleton_append] using whole

theorem free {text : List Char} (free : ∀ sign ∈ ['\'', '"', '[', ']', '/'], sign ∉ text) :
    Uncut 0 0 text := by
  induction text with
  | nil => exact nil 0
  | cons c rest ih =>
    have apart : ∀ sign ∈ ['\'', '"', '[', ']', '/'], c ≠ sign := by
      intro sign among same
      exact free sign among (same ▸ List.mem_cons_self)
    have quote : ¬ IsQuote c := by
      rw [IsQuote, not_or]
      exact ⟨apart _ (by decide), apart _ (by decide)⟩
    have bracket : ¬ IsBracket c := by
      rw [IsBracket, not_or]
      exact ⟨apart _ (by decide), apart _ (by decide)⟩
    have slash : c ≠ '/' := apart _ (by decide)
    have later : Uncut 0 0 rest :=
      ih fun sign among member => free sign among (List.mem_cons_of_mem _ member)
    exact (plain quote bracket fun same => absurd same slash).append later

theorem blanks {gap : List Char} (blanks : Blanks gap) : Uncut 0 0 gap := free (blanks_free blanks)

theorem predicates {namespaces : Namespaces} {text : List Char} {results : List Predicate}
    (spells : Predicate.SpellsAll namespaces text results) : Uncut 0 0 text := by
  induction spells with
  | nil => exact nil 0
  | cons gap _ _ _ inner _ ih =>
    have whole := (((blanks gap).append (opening 0)).append (closed inner 0)).append
      ((closing 0).append ih)
    simpa only [List.append_assoc, List.singleton_append, List.cons_append, List.nil_append]
      using whole

end Uncut

/-- The first character decides how cutting goes on, whatever follows. -/
inductive GoesOn (depth : Nat) (quote : Option Char) (c : Char) : Prop
  | fails {flaw : PathFlaw} :
    (∀ rest, segments depth quote (c :: rest) = .error flaw) → GoesOn depth quote c
  | grows {later : Nat} {mark : Option Char} :
    (∀ rest, segments depth quote (c :: rest) = (segments later mark rest).map (extendFirst c)) →
    GoesOn depth quote c
  | cuts : c = '/' →
    (∀ rest, segments depth quote (c :: rest) = (segments depth quote rest).map ([] :: ·)) →
    GoesOn depth quote c

theorem goesOn (depth : Nat) (quote : Option Char) (c : Char) : GoesOn depth quote c := by
  cases quote with
  | some q => exact .grows fun rest => by rw [segments]
  | none =>
    by_cases mark : (decide (c = '\'') || decide (c = '"')) = true
    · exact .grows fun rest => by rw [segments, if_pos mark]
    by_cases opening : c = '['
    · exact .grows fun rest => by rw [segments, if_neg mark, if_pos opening]
    by_cases closing : c = ']'
    · by_cases outside : depth = 0
      · exact .fails fun rest => by
          rw [segments, if_neg mark, if_neg opening, if_pos closing, if_pos outside]
      · exact .grows fun rest => by
          rw [segments, if_neg mark, if_neg opening, if_pos closing, if_neg outside]
    by_cases slash : (decide (c = '/') && decide (depth = 0)) = true
    · have sign : c = '/' := by
        rw [Bool.and_eq_true, decide_eq_true_eq] at slash
        exact slash.1
      exact .cuts sign fun rest => by
        rw [segments, if_neg mark, if_neg opening, if_neg closing, if_pos slash]
    · exact .grows fun rest => by
        rw [segments, if_neg mark, if_neg opening, if_neg closing, if_neg slash]

theorem segments_cons {c : Char} {rest : List Char} {depth : Nat} {quote : Option Char}
    {parts : List (List Char)} (cut : segments depth quote (c :: rest) = .ok parts) :
    (∃ others later mark, segments later mark rest = .ok others ∧ parts = extendFirst c others) ∨
      ∃ others, c = '/' ∧ segments depth quote rest = .ok others ∧ parts = [] :: others := by
  cases goesOn depth quote c with
  | fails error =>
    rw [error] at cut
    cases cut
  | grows onward =>
    rw [onward] at cut
    obtain ⟨others, later, rfl⟩ := map_ok_iff.mp cut
    exact .inl ⟨others, _, _, later, rfl⟩
  | cuts slash onward =>
    rw [onward] at cut
    obtain ⟨others, later, rfl⟩ := map_ok_iff.mp cut
    exact .inr ⟨others, slash, later, rfl⟩

theorem segments_join {depth : Nat} {quote : Option Char} {text : List Char}
    {parts : List (List Char)} (cut : segments depth quote text = .ok parts) :
    parts ≠ [] ∧ ['/'].intercalate parts = text := by
  induction text generalizing depth quote parts with
  | nil =>
    rw [segments] at cut
    split at cut
    · cases cut
    split at cut
    · cases cut
    · cases cut
      exact ⟨List.cons_ne_nil _ _, rfl⟩
  | cons c rest ih =>
    rcases segments_cons cut with ⟨others, depth', quote', later, rfl⟩ | ⟨others, rfl, later, rfl⟩
    · obtain ⟨filled, joined⟩ := ih later
      exact ⟨extendFirst_filled c others, by rw [intercalate_extendFirst c filled, joined]⟩
    · obtain ⟨filled, joined⟩ := ih later
      refine ⟨List.cons_ne_nil _ _, ?_⟩
      rw [List.intercalate_cons_of_ne_nil filled, joined]
      rfl

theorem segments_last {text : List Char} (uncut : Uncut 0 0 text) :
    segments 0 none text = .ok [text] := by
  have whole := uncut []
  rw [List.append_nil] at whole
  rw [whole]
  change Except.ok (text.foldr extendFirst [[]]) = _
  rw [foldr_extendFirst, List.append_nil]

theorem segments_slash (rest : List Char) :
    segments 0 none ('/' :: rest) = (segments 0 none rest).map ([] :: ·) := by
  rw [segments]
  rfl

theorem segments_append {depth : Nat} {quote : Option Char} {text : List Char}
    {parts : List (List Char)} (cut : segments depth quote text = .ok parts) (rest : List Char) :
    segments depth quote (text ++ '/' :: rest) = (segments 0 none rest).map (parts ++ ·) := by
  -- Where a text ends that is cut without a flaw no bracket and no quote is open: the slash cuts.
  induction text generalizing depth quote parts with
  | nil =>
    rw [segments] at cut
    split at cut
    · cases cut
    split at cut
    · cases cut
    · next unquoted outside =>
      cases cut
      rw [Option.not_isSome_iff_eq_none] at unquoted
      rw [not_not] at outside
      subst unquoted outside
      exact segments_slash rest
  | cons c others ih =>
    rw [List.cons_append]
    cases goesOn depth quote c with
    | fails error =>
      rw [error] at cut
      cases cut
    | grows onward =>
      rw [onward] at cut
      obtain ⟨inner, later, rfl⟩ := map_ok_iff.mp cut
      have filled := (segments_join later).1
      rw [onward, ih later]
      cases segments 0 none rest with
      | error flaw => rfl
      | ok more =>
        cases inner with
        | nil => exact absurd rfl filled
        | cons part tail => rfl
    | cuts _ onward =>
      rw [onward] at cut
      obtain ⟨inner, later, rfl⟩ := map_ok_iff.mp cut
      rw [onward, ih later]
      cases segments 0 none rest <;> rfl

theorem segments_first {text rest : List Char} {others : List (List Char)} (uncut : Uncut 0 0 text)
    (later : segments 0 none rest = .ok others) :
    segments 0 none (text ++ '/' :: rest) = .ok (text :: others) := by
  rw [segments_append (segments_last uncut), later]
  rfl

end Regesta.Path
