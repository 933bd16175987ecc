import Mathlib.Data.List.Induction
import Regesta.Proofs.Path.Segment

namespace Regesta.Path

open Text (Blanks isBlank trim trimStart extendFirst)
open Predicate (IsQuote IsBracket Closed)

/-- Texts in which each quote is closed and brackets outside of quotes are balanced. -/
inductive Balanced : List Char → Prop
  | nil : Balanced []
  | plain {c : Char} {rest : List Char} :
    ¬ IsQuote c → ¬ IsBracket c → Balanced rest → Balanced (c :: rest)
  | quoted {q : Char} {inner rest : List Char} :
    IsQuote q → q ∉ inner → Balanced rest → Balanced (q :: inner ++ q :: rest)
  | bracketed {inner rest : List Char} :
    Balanced inner → Balanced rest → Balanced ('[' :: inner ++ ']' :: rest)

def Plain (text : List Char) : Prop := ∀ c ∈ text, ¬ IsQuote c ∧ ¬ IsBracket c

/-- Texts that close the brackets and the quote that are open and are balanced otherwise. -/
inductive Closes : Nat → Option Char → List Char → Prop
  | done {text : List Char} : Balanced text → Closes 0 none text
  | bracket {depth : Nat} {inner rest : List Char} :
    Balanced inner → Closes depth none rest → Closes (depth + 1) none (inner ++ ']' :: rest)
  | quote {depth : Nat} {q : Char} {inner rest : List Char} :
    q ∉ inner → Closes depth none rest → Closes depth (some q) (inner ++ q :: rest)

/-- Texts without a slash outside of brackets and quotes: before each slash some are open. -/
def Undivided (text : List Char) : Prop :=
  ∀ before after, text = before ++ '/' :: after → ¬ Balanced before

theorem Plain.of_free {text : List Char} (free : ∀ sign ∈ ['\'', '"', '[', ']', '/'], sign ∉ text) :
    Plain text := by
  intro c member
  constructor
  · rintro (rfl | rfl) <;> exact free _ (by decide) member
  · rintro (rfl | rfl) <;> exact free _ (by decide) member

theorem Plain.of_blanks {gap : List Char} (blanks : Blanks gap) : Plain gap :=
  .of_free (blanks_free blanks)

namespace Balanced

theorem append {left right : List Char} (hl : Balanced left) (hr : Balanced right) :
    Balanced (left ++ right) := by
  induction hl with
  | nil => exact hr
  | plain quote bracket _ ih => exact .plain quote bracket ih
  | @quoted q inner rest quote fresh _ ih =>
    have whole := Balanced.quoted quote fresh ih
    rwa [List.append_assoc, List.cons_append]
  | @bracketed inner rest inside _ _ ih =>
    have whole := inside.bracketed ih
    rwa [List.append_assoc, List.cons_append]

theorem of_plain {text : List Char} (plain : Plain text) : Balanced text := by
  induction text with
  | nil => exact .nil
  | cons c rest ih =>
    obtain ⟨⟨quote, bracket⟩, later⟩ := List.forall_mem_cons.mp plain
    exact .plain quote bracket (ih later)

theorem single {c : Char} (quote : ¬ (decide (c = '\'') || decide (c = '"')) = true)
    (opening : c ≠ '[') (closing : c ≠ ']') : Balanced [c] := by
  refine .plain (mt (quote_iff c).mpr quote) ?_ .nil
  rw [IsBracket, not_or]
  exact ⟨opening, closing⟩

theorem of_append_left {left right : List Char} (plain : Plain left)
    (balanced : Balanced (left ++ right)) : Balanced right := by
  induction left with
  | nil => exact balanced
  | cons c rest ih =>
    obtain ⟨⟨quote, bracket⟩, later⟩ := List.forall_mem_cons.mp plain
    apply ih later
    generalize shape : c :: rest ++ right = text at balanced
    cases balanced with
    | nil => cases shape
    | plain _ _ tail =>
      cases shape
      exact tail
    | quoted sign =>
      obtain ⟨rfl, _⟩ := List.cons.inj shape
      exact absurd sign quote
    | bracketed =>
      obtain ⟨rfl, _⟩ := List.cons.inj shape
      exact absurd (.inl rfl) bracket

theorem concat_behind {text front rest : List Char} {c sign : Char} (differ : c ≠ sign)
    (whole : text ++ [c] = front ++ sign :: rest) :
    ∃ before, before ++ [c] = rest ∧ text = front ++ sign :: before := by
  rcases List.eq_nil_or_concat rest with rfl | ⟨before, d, rfl⟩
  · obtain ⟨_, last⟩ := List.append_inj' whole rfl
    cases last
    exact absurd rfl differ
  · have split : text ++ [c] = (front ++ sign :: before) ++ [d] := by simpa using whole
    obtain ⟨rfl, last⟩ := List.append_inj' split rfl
    cases last
    exact ⟨before, by simp, rfl⟩

theorem of_concat {text : List Char} {c : Char} (quote : ¬ IsQuote c) (bracket : ¬ IsBracket c)
    (balanced : Balanced (text ++ [c])) : Balanced text := by
  generalize whole : text ++ [c] = longer at balanced
  induction balanced generalizing text with
  | nil => simp at whole
  | @plain d rest sign other _ ih =>
    cases text with
    | nil => exact .nil
    | cons e others =>
      obtain ⟨rfl, tails⟩ := List.cons.inj whole
      exact .plain sign other (ih tails)
  | @quoted q inner rest sign fresh _ ih =>
    have differ : c ≠ q := fun same => quote (same ▸ sign)
    obtain ⟨before, tails, rfl⟩ := concat_behind differ whole
    exact .quoted sign fresh (ih tails)
  | @bracketed inner rest inside _ _ ih =>
    have differ : c ≠ ']' := fun same => bracket (.inr same)
    obtain ⟨before, tails, rfl⟩ := concat_behind differ whole
    exact .bracketed inside (ih tails)

theorem of_append_right {left right : List Char} (plain : Plain right)
    (balanced : Balanced (left ++ right)) : Balanced left := by
  induction right using List.reverseRecOn with
  | nil => rwa [List.append_nil] at balanced
  | append_singleton front c ih =>
    obtain ⟨quote, bracket⟩ := plain c (by simp)
    rw [← List.append_assoc] at balanced
    exact ih (fun d member => plain d (List.mem_append_left _ member))
      (balanced.of_concat quote bracket)

theorem trim {text : List Char} (balanced : Balanced text) : Balanced (Text.trim text) := by
  obtain ⟨before, after, hb, ha, parts, _⟩ := Text.exists_trim text
  rw [parts] at balanced
  exact (balanced.of_append_right (.of_blanks ha)).of_append_left (.of_blanks hb)

end Balanced

theorem segments_of_balanced {text rest : List Char} (balanced : Balanced text) {depth : Nat}
    {parts : List (List Char)} (cut : segments depth none rest = .ok parts) :
    ∃ whole, segments depth none (text ++ rest) = .ok whole := by
  induction balanced generalizing depth rest parts with
  | nil => exact ⟨parts, cut⟩
  | @plain c later quote bracket _ ih =>
    obtain ⟨whole, found⟩ := ih cut
    rw [IsBracket, not_or] at bracket
    rw [List.cons_append, segments]
    simp only [if_neg (mt (quote_iff c).mp quote), if_neg bracket.1, if_neg bracket.2, found]
    split <;> exact ⟨_, rfl⟩
  | @quoted q inner later quote fresh _ ih =>
    obtain ⟨whole, found⟩ := ih cut
    have passed := Uncut.quoted quote fresh depth (later ++ rest)
    rw [found] at passed
    refine ⟨_, Eq.trans (congrArg _ ?_) passed⟩
    simp
  | @bracketed inner later _ _ inside outside =>
    obtain ⟨others, found⟩ := outside cut
    have closing := Uncut.closing depth (later ++ rest)
    rw [found] at closing
    obtain ⟨more, within⟩ := inside closing
    have opening := Uncut.opening depth (inner ++ ([']'] ++ (later ++ rest)))
    rw [within] at opening
    refine ⟨_, Eq.trans (congrArg _ ?_) opening⟩
    simp

theorem Closes.prepend {front text : List Char} {depth : Nat} (balanced : Balanced front)
    (closes : Closes depth none text) : Closes depth none (front ++ text) := by
  cases closes with
  | done rest => exact .done (balanced.append rest)
  | bracket inner rest =>
    rw [← List.append_assoc]
    exact .bracket (balanced.append inner) rest

theorem closes_of_segments {depth : Nat} {quote : Option Char} {text : List Char}
    {parts : List (List Char)} (cut : segments depth quote text = .ok parts) :
    Closes depth quote text := by
  fun_induction segments depth quote text generalizing parts with
  | case1 => cases cut
  | case2 => cases cut
  | case3 depth quote unquoted outside =>
    rw [Option.not_isSome_iff_eq_none] at unquoted
    rw [not_not] at outside
    subst unquoted outside
    exact .done .nil
  | case4 depth c rest q ih =>
    obtain ⟨others, later, _⟩ := map_ok_iff.mp cut
    have closes := ih later
    split at closes
    · next same =>
      subst same
      exact .quote List.not_mem_nil closes
    · next other =>
      cases closes with
      | @quote _ _ inner tail fresh closes =>
        rw [← List.cons_append]
        refine .quote ?_ closes
        rw [List.mem_cons, not_or]
        exact ⟨Ne.symm other, fresh⟩
  | case5 depth c rest mark ih =>
    obtain ⟨others, later, _⟩ := map_ok_iff.mp cut
    cases ih later with
    | quote fresh closes =>
      simpa using closes.prepend (.quoted ((quote_iff c).mp mark) fresh .nil)
  | case6 depth rest _ ih =>
    obtain ⟨others, later, _⟩ := map_ok_iff.mp cut
    cases ih later with
    | bracket inner closes => simpa using closes.prepend (inner.bracketed .nil)
  | case7 => cases cut
  | case8 depth rest inside _ _ ih =>
    obtain ⟨others, later, _⟩ := map_ok_iff.mp cut
    obtain ⟨outer, rfl⟩ := Nat.exists_eq_succ_of_ne_zero inside
    exact .bracket .nil (ih later)
  | case9 depth c rest mark opening closing _ ih =>
    obtain ⟨others, later, _⟩ := map_ok_iff.mp cut
    exact (ih later).prepend (.single mark opening closing)
  | case10 depth c rest mark opening closing _ ih =>
    obtain ⟨others, later, _⟩ := map_ok_iff.mp cut
    exact (ih later).prepend (.single mark opening closing)

theorem segments_succeeds_iff (text : List Char) :
    (∃ parts, segments 0 none text = .ok parts) ↔ Balanced text := by
  constructor
  · intro ⟨parts, cut⟩
    cases closes_of_segments cut with
    | done balanced => exact balanced
  · intro balanced
    have ended : segments 0 none [] = .ok [[]] := rfl
    have found := segments_of_balanced balanced ended
    rwa [List.append_nil] at found

/-- The first part is cut as it is in the place where the text begins, the others by themselves. -/
def CutAlone (depth : Nat) (quote : Option Char) : List (List Char) → Prop
  | [] => False
  | first :: others => segments depth quote first = .ok [first] ∧
    ∀ other ∈ others, segments 0 none other = .ok [other]

theorem CutAlone.grow {depth later : Nat} {quote mark : Option Char} {c : Char}
    {parts : List (List Char)} (alone : CutAlone later mark parts)
    (onward : ∀ rest, segments depth quote (c :: rest) =
      (segments later mark rest).map (extendFirst c)) :
    CutAlone depth quote (extendFirst c parts) := by
  cases parts with
  | nil => cases alone
  | cons first others =>
    refine ⟨?_, alone.2⟩
    rw [onward, alone.1]
    rfl

theorem cutAlone_of_segments {depth : Nat} {quote : Option Char} {text : List Char}
    {parts : List (List Char)} (cut : segments depth quote text = .ok parts) :
    CutAlone depth quote parts := by
  fun_induction segments depth quote text generalizing parts with
  | case1 => cases cut
  | case2 => cases cut
  | case3 depth quote unquoted outside =>
    cases cut
    refine ⟨?_, by simp⟩
    rw [segments, if_neg unquoted, if_neg outside]
  | case4 depth c rest q ih =>
    obtain ⟨others, later, rfl⟩ := map_ok_iff.mp cut
    exact (ih later).grow fun rest => by rw [segments]
  | case5 depth c rest mark ih =>
    obtain ⟨others, later, rfl⟩ := map_ok_iff.mp cut
    exact (ih later).grow fun rest => by rw [segments, if_pos mark]
  | case6 depth rest mark ih =>
    obtain ⟨others, later, rfl⟩ := map_ok_iff.mp cut
    exact (ih later).grow fun rest => by rw [segments, if_neg mark, if_pos rfl]
  | case7 => cases cut
  | case8 depth rest inside mark opening ih =>
    obtain ⟨others, later, rfl⟩ := map_ok_iff.mp cut
    exact (ih later).grow fun rest => by
      rw [segments, if_neg mark, if_neg opening, if_pos rfl, if_neg inside]
  | case9 depth c rest mark opening closing slash ih =>
    obtain ⟨others, later, rfl⟩ := map_ok_iff.mp cut
    rw [Bool.and_eq_true, decide_eq_true_eq, decide_eq_true_eq] at slash
    obtain ⟨_, rfl⟩ := slash
    have alone := ih later
    cases others with
    | nil => cases alone
    | cons first more => exact ⟨rfl, List.forall_mem_cons.mpr alone⟩
  | case10 depth c rest mark opening closing slash ih =>
    obtain ⟨others, later, rfl⟩ := map_ok_iff.mp cut
    exact (ih later).grow fun rest => by
      rw [segments, if_neg mark, if_neg opening, if_neg closing, if_neg slash]

theorem parts_alone {text : List Char} {parts : List (List Char)}
    (cut : segments 0 none text = .ok parts) :
    ∀ part ∈ parts, segments 0 none part = .ok [part] := by
  have alone := cutAlone_of_segments cut
  cases parts with
  | nil => cases alone
  | cons first others => exact List.forall_mem_cons.mpr alone

theorem undivided_of_segments {part : List Char} (alone : segments 0 none part = .ok [part]) :
    Undivided part := by
  rintro before after rfl balanced
  obtain ⟨parts, cut⟩ := (segments_succeeds_iff before).mpr balanced
  rw [segments_append cut] at alone
  obtain ⟨others, later, joined⟩ := map_ok_iff.mp alone
  have left := List.length_pos_of_ne_nil (segments_join cut).1
  have right := List.length_pos_of_ne_nil (segments_join later).1
  have count := congrArg List.length joined
  rw [List.length_append, List.length_singleton] at count
  omega

theorem Undivided.trim {text : List Char} (undivided : Undivided text) :
    Undivided (Text.trim text) := by
  obtain ⟨gap, tail, hb, ha, parts, _⟩ := Text.exists_trim text
  intro before after cut balanced
  apply undivided (gap ++ before) (after ++ tail)
  · rw [parts, cut]
    simp
  · exact (Balanced.of_plain (.of_blanks hb)).append balanced

/-- A text is made of parts with slashes between them, and perhaps blanks beside the slashes. -/
inductive Joined : List (List Char) → List Char → Prop
  | last (part : List Char) : Joined [part] part
  | cons {part after before rest : List Char} {others : List (List Char)} :
    Blanks after → Blanks before → Joined others rest →
    Joined (part :: others) (part ++ after ++ '/' :: before ++ rest)

theorem joined_trimmed {parts : List (List Char)} (filled : parts ≠ []) :
    Joined (parts.map trim) (trim (['/'].intercalate parts)) := by
  induction parts with
  | nil => exact absurd rfl filled
  | cons part others ih =>
    cases others with
    | nil =>
      rw [List.intercalate_singleton]
      exact .last _
    | cons next more =>
      have joined := ih (List.cons_ne_nil _ _)
      obtain ⟨after, ha, kept, _⟩ := Text.exists_trimEnd (trimStart part)
      have left : trimStart part = trim part ++ after := kept
      obtain ⟨before, hb, right⟩ := Text.exists_trimEnd_gap (['/'].intercalate (next :: more))
      have visible : isBlank '/' = false := by decide
      rw [List.intercalate_cons_cons, List.append_assoc, List.singleton_append,
        Text.trim_stop visible, left, right, List.map_cons]
      have whole : Joined (trim part :: (next :: more).map trim)
          (trim part ++ after ++ '/' :: before ++ trim (['/'].intercalate (next :: more))) :=
        .cons ha hb joined
      simpa using whole

end Regesta.Path
