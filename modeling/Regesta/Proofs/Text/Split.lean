import Mathlib.Data.List.TakeDrop
import Mathlib.Data.List.TakeWhile
import Regesta.Text.Split

namespace Regesta.Text

theorem splitFirst_sound {separator text before after : List Char}
    (cut : splitFirst separator text = some (before, after)) :
    text = before ++ separator ++ after := by
  induction text generalizing before with
  | nil => cases cut
  | cons c rest ih =>
    rw [splitFirst] at cut
    by_cases here : separator.isPrefixOf (c :: rest) = true
    · rw [if_pos here] at cut
      cases cut
      obtain ⟨tail, whole⟩ := List.isPrefixOf_iff_prefix.mp here
      rw [← whole, List.nil_append, List.drop_left]
    · rw [if_neg here, Option.map_eq_some_iff] at cut
      obtain ⟨⟨front, back⟩, inner, same⟩ := cut
      cases same
      rw [ih inner]
      rfl

theorem splitFirst_fresh {c : Char} {text before after : List Char}
    (cut : splitFirst [c] text = some (before, after)) : c ∉ before := by
  induction text generalizing before with
  | nil => cases cut
  | cons d rest ih =>
    rw [splitFirst] at cut
    by_cases here : [c].isPrefixOf (d :: rest) = true
    · rw [if_pos here] at cut
      cases cut
      exact List.not_mem_nil
    · rw [if_neg here, Option.map_eq_some_iff] at cut
      obtain ⟨⟨front, back⟩, inner, same⟩ := cut
      cases same
      have differ : c ≠ d := by
        intro same
        subst same
        simp at here
      rw [List.mem_cons, not_or]
      exact ⟨differ, ih inner⟩

theorem splitFirst_complete {c : Char} {tail before after : List Char} (fresh : c ∉ before) :
    splitFirst (c :: tail) (before ++ (c :: tail) ++ after) = some (before, after) := by
  induction before with
  | nil =>
    have here : (c :: tail).isPrefixOf (c :: (tail ++ after)) = true :=
      List.isPrefixOf_iff_prefix.mpr ⟨after, rfl⟩
    rw [List.nil_append, List.cons_append, splitFirst, if_pos here, ← List.cons_append,
      List.drop_left]
  | cons d rest ih =>
    rw [List.mem_cons, not_or] at fresh
    have later : (c :: tail).isPrefixOf (d :: (rest ++ (c :: tail) ++ after)) = false := by
      simp [List.isPrefixOf, fresh.1]
    rw [List.cons_append, List.cons_append, splitFirst, later, if_neg Bool.false_ne_true,
      ih fresh.2]
    rfl

theorem splitFirst_none {c : Char} {tail text : List Char} (fresh : c ∉ text) :
    splitFirst (c :: tail) text = none := by
  induction text with
  | nil => rfl
  | cons d rest ih =>
    rw [List.mem_cons, not_or] at fresh
    have later : (c :: tail).isPrefixOf (d :: rest) = false := by
      simp [List.isPrefixOf, fresh.1]
    rw [splitFirst, later, if_neg Bool.false_ne_true, ih fresh.2]
    rfl

theorem not_mem_of_splitFirst {c : Char} {text : List Char} (uncut : splitFirst [c] text = none) :
    c ∉ text := by
  intro member
  obtain ⟨before, after, parts, fresh⟩ := List.eq_append_cons_of_mem member
  have cut : splitFirst [c] (before ++ [c] ++ after) = some (before, after) :=
    splitFirst_complete fresh
  rw [List.append_assoc, List.singleton_append, ← parts, uncut] at cut
  cases cut

theorem splitEvery_fresh (c : Char) (text : List Char) : ∀ part ∈ splitEvery c text, c ∉ part := by
  induction text with
  | nil => simp [splitEvery]
  | cons d rest ih =>
    by_cases cut : d = c
    · simpa [splitEvery, cut] using ih
    · cases parts : splitEvery c rest with
      | nil => simp [splitEvery, extendFirst, parts, cut, Ne.symm cut]
      | cons part others =>
        rw [parts, List.forall_mem_cons] at ih
        simpa [splitEvery, extendFirst, parts, cut, Ne.symm cut] using ih

theorem splitEvery_subset (c : Char) (text : List Char) :
    ∀ part ∈ splitEvery c text, part ⊆ text := by
  induction text with
  | nil => simp [splitEvery]
  | cons d rest ih =>
    have later : ∀ part ∈ splitEvery c rest, part ⊆ d :: rest :=
      fun part member => List.subset_cons_of_subset d (ih part member)
    by_cases cut : d = c
    · rw [splitEvery, if_pos cut]
      exact List.forall_mem_cons.mpr ⟨List.nil_subset _, later⟩
    · rw [splitEvery, if_neg cut]
      cases parts : splitEvery c rest with
      | nil => simp [extendFirst]
      | cons part others =>
        rw [parts, List.forall_mem_cons] at ih later
        exact List.forall_mem_cons.mpr ⟨List.cons_subset_cons d ih.1, later.2⟩

theorem extendFirst_filled (c : Char) (parts : List (List Char)) : extendFirst c parts ≠ [] := by
  cases parts <;> simp [extendFirst]

theorem intercalate_extendFirst {sign : List Char} (c : Char) {parts : List (List Char)}
    (filled : parts ≠ []) :
    sign.intercalate (extendFirst c parts) = c :: sign.intercalate parts := by
  cases parts with
  | nil => exact absurd rfl filled
  | cons part others => exact List.intercalate_cons_cons_left

theorem splitEvery_filled (c : Char) (text : List Char) : splitEvery c text ≠ [] := by
  cases text with
  | nil => simp [splitEvery]
  | cons d rest =>
    rw [splitEvery]
    split
    · exact List.cons_ne_nil _ _
    · exact extendFirst_filled d _

theorem splitEvery_alone {c : Char} {text : List Char} (fresh : c ∉ text) :
    splitEvery c text = [text] := by
  induction text with
  | nil => rfl
  | cons d rest ih =>
    rw [List.mem_cons, not_or] at fresh
    rw [splitEvery, if_neg (Ne.symm fresh.1), ih fresh.2, extendFirst]

theorem splitEvery_between (c : Char) (left right : List Char) :
    splitEvery c (left ++ c :: right) = splitEvery c left ++ splitEvery c right := by
  induction left with
  | nil => simp [splitEvery]
  | cons d rest ih =>
    by_cases cut : d = c
    · simp [splitEvery, cut, ih]
    · obtain ⟨part, others, parts⟩ := List.exists_cons_of_ne_nil (splitEvery_filled c rest)
      simp [splitEvery, cut, ih, parts, extendFirst]

theorem splitEvery_append {c : Char} {part : List Char} (fresh : c ∉ part) (rest : List Char) :
    splitEvery c (part ++ c :: rest) = part :: splitEvery c rest := by
  rw [splitEvery_between, splitEvery_alone fresh, List.singleton_append]

@[simp] theorem splitEvery_joined (c : Char) (text : List Char) :
    [c].intercalate (splitEvery c text) = text := by
  induction text with
  | nil => rfl
  | cons d rest ih =>
    have filled := splitEvery_filled c rest
    rw [splitEvery]
    split
    · next cut => rw [List.intercalate_cons_of_ne_nil filled, ih, cut]; rfl
    · rw [intercalate_extendFirst d filled, ih]

theorem splitEvery_intercalate {c : Char} {parts : List (List Char)} (filled : parts ≠ [])
    (fresh : ∀ part ∈ parts, c ∉ part) : splitEvery c ([c].intercalate parts) = parts := by
  induction parts with
  | nil => exact absurd rfl filled
  | cons part others ih =>
    obtain ⟨here, later⟩ := List.forall_mem_cons.mp fresh
    cases others with
    | nil => rw [List.intercalate_singleton, splitEvery_alone here]
    | cons next rest =>
      rw [List.intercalate_cons_cons, List.append_assoc, List.singleton_append,
        splitEvery_append here, ih (List.cons_ne_nil _ _) later]

theorem intercalate_within (sign : List Char) {parts : List (List Char)} :
    ∀ part ∈ parts, part <:+: sign.intercalate parts := by
  induction parts with
  | nil => simp
  | cons first rest ih =>
    cases rest with
    | nil => simp
    | cons next others =>
      rw [List.intercalate_cons_cons]
      refine List.forall_mem_cons.mpr ⟨?_, ?_⟩
      · rw [List.append_assoc]
        exact (List.prefix_append _ _).isInfix
      · intro part member
        exact (ih part member).trans (List.suffix_append _ _).isInfix

theorem splitFirst_double_none {c : Char} {before after : List Char} (hb : c ∉ before)
    (ha : c ∉ after) : splitFirst [c, c] (before ++ c :: after) = none := by
  induction before with
  | nil =>
    have alone : [c, c].isPrefixOf (c :: after) = false := by
      cases after with
      | nil => simp [List.isPrefixOf]
      | cons d rest =>
        rw [List.mem_cons, not_or] at ha
        simp [List.isPrefixOf, ha.1]
    rw [List.nil_append, splitFirst, alone, if_neg Bool.false_ne_true, splitFirst_none ha]
    rfl
  | cons d rest ih =>
    rw [List.mem_cons, not_or] at hb
    have later : [c, c].isPrefixOf (d :: (rest ++ c :: after)) = false := by
      simp [List.isPrefixOf, hb.1]
    rw [List.cons_append, splitFirst, later, if_neg Bool.false_ne_true, ih hb.2]
    rfl

theorem span_sound {kind : Char → Bool} {text front back : List Char}
    (cut : text.span kind = (front, back)) :
    text = front ++ back ∧ (∀ c ∈ front, kind c = true) ∧
      ∀ c, back.head? = some c → kind c = false := by
  rw [List.span_eq_takeWhile_dropWhile] at cut
  obtain ⟨rfl, rfl⟩ := Prod.mk.inj cut
  refine ⟨List.takeWhile_append_dropWhile.symm, fun c member => List.mem_takeWhile_imp member, ?_⟩
  intro c first
  have stops := List.head?_dropWhile_not kind text
  rwa [first] at stops

theorem span_complete {kind : Char → Bool} {front back : List Char}
    (passes : ∀ c ∈ front, kind c = true) (stops : ∀ c, back.head? = some c → kind c = false) :
    (front ++ back).span kind = (front, back) := by
  have ended : back.takeWhile kind = [] ∧ back.dropWhile kind = back := by
    cases back with
    | nil => exact ⟨rfl, rfl⟩
    | cons c rest =>
      have ending := stops c rfl
      exact ⟨by simp [ending], by simp [ending]⟩
  rw [List.span_eq_takeWhile_dropWhile, List.takeWhile_append_of_pos passes,
    List.dropWhile_append_of_pos passes, ended.1, ended.2, List.append_nil]

theorem prefix_of_stop {sign left right : List Char} (whole : sign <+: left ++ right)
    (stop : ∀ c, right.head? = some c → c ∉ sign) : sign <+: left := by
  induction left generalizing sign with
  | nil =>
    cases sign with
    | nil => exact List.nil_prefix
    | cons c rest =>
      obtain ⟨tail, same⟩ := whole
      rw [List.nil_append] at same
      exact absurd List.mem_cons_self (stop c (by rw [← same]; rfl))
  | cons d others ih =>
    cases sign with
    | nil => exact List.nil_prefix
    | cons c rest =>
      rw [List.cons_append, List.cons_prefix_cons] at whole
      have later : rest <+: others :=
        ih whole.2 fun e first member => stop e first (List.mem_cons_of_mem _ member)
      exact List.cons_prefix_cons.mpr ⟨whole.1, later⟩

end Regesta.Text
