import Regesta.Text.Blank

namespace Regesta.Text

def Blanks (text : List Char) : Prop := ∀ c ∈ text, isBlank c = true

structure Tight (text : List Char) : Prop where
  head : ∀ c, text.head? = some c → isBlank c = false
  last : ∀ c, text.getLast? = some c → isBlank c = false

theorem Blanks.nil : Blanks [] := fun _ member => absurd member List.not_mem_nil

theorem Blanks.cons {c : Char} {rest : List Char} (blank : isBlank c = true)
    (blanks : Blanks rest) : Blanks (c :: rest) := List.forall_mem_cons.mpr ⟨blank, blanks⟩

theorem Blanks.append {left right : List Char} (hl : Blanks left) (hr : Blanks right) :
    Blanks (left ++ right) := by
  intro c member
  rcases List.mem_append.mp member with member | member
  · exact hl c member
  · exact hr c member

theorem Blanks.reverse {text : List Char} (blanks : Blanks text) : Blanks text.reverse :=
  fun c member => blanks c (List.mem_reverse.mp member)

theorem Blanks.tail {c : Char} {rest : List Char} (blanks : Blanks (c :: rest)) : Blanks rest :=
  fun d member => blanks d (List.mem_cons_of_mem _ member)

theorem Blanks.not_mem {gap : List Char} {c : Char} (blanks : Blanks gap)
    (visible : isBlank c = false) : c ∉ gap := by
  intro member
  rw [blanks c member] at visible
  cases visible

theorem Blanks.head_append {gap rest : List Char} {c : Char} (blanks : Blanks gap)
    (first : (gap ++ rest).head? = some c) : isBlank c = true ∨ rest.head? = some c := by
  cases gap with
  | nil => exact .inr first
  | cons d others =>
    have same : d = c := Option.some.inj first
    subst same
    exact .inl (blanks d List.mem_cons_self)

theorem Tight.of_visible {text : List Char} (visible : ∀ c ∈ text, isBlank c = false) :
    Tight text := by
  constructor
  · intro c first
    exact visible c (List.mem_of_mem_head? first)
  · intro c last
    exact visible c (List.mem_of_getLast? last)

theorem Tight.cons {c : Char} {text : List Char} (visible : isBlank c = false) (tight : Tight text)
    (filled : text ≠ []) : Tight (c :: text) := by
  constructor
  · intro d first
    exact Option.some.inj first ▸ visible
  · intro d last
    rw [List.getLast?_cons_of_ne_nil filled] at last
    exact tight.last d last

theorem trimStart_append {gap : List Char} (blanks : Blanks gap) (text : List Char) :
    trimStart (gap ++ text) = trimStart text :=
  List.dropWhile_append_of_pos blanks

theorem trimStart_blanks {gap : List Char} (blanks : Blanks gap) : trimStart gap = [] := by
  have trimmed := trimStart_append blanks []
  rwa [List.append_nil] at trimmed

theorem trimStart_of_head {text : List Char}
    (head : ∀ c, text.head? = some c → isBlank c = false) : trimStart text = text := by
  cases text with
  | nil => rfl
  | cons c rest =>
    have visible : isBlank c = false := head c rfl
    simp [trimStart, visible]

theorem trimEnd_eq (text : List Char) : trimEnd text = (trimStart text.reverse).reverse := rfl

theorem trimEnd_append {gap : List Char} (blanks : Blanks gap) (text : List Char) :
    trimEnd (text ++ gap) = trimEnd text := by
  rw [trimEnd_eq, List.reverse_append, trimStart_append blanks.reverse, trimEnd_eq]

theorem trimEnd_of_last {text : List Char}
    (last : ∀ c, text.getLast? = some c → isBlank c = false) : trimEnd text = text := by
  rw [trimEnd_eq, trimStart_of_head, List.reverse_reverse]
  intro c first
  rw [List.head?_reverse] at first
  exact last c first

theorem trim_of_tight {text : List Char} (tight : Tight text) : trim text = text := by
  rw [trim, trimStart_of_head tight.head, trimEnd_of_last tight.last]

theorem trimStart_stop {c : Char} (visible : isBlank c = false) (text rest : List Char) :
    trimStart (text ++ c :: rest) = trimStart text ++ c :: rest := by
  induction text with
  | nil => exact trimStart_of_head fun d first => Option.some.inj first ▸ visible
  | cons d others ih =>
    by_cases blank : isBlank d = true
    · simpa [trimStart, blank] using ih
    · simp [trimStart, blank]

theorem trimEnd_stop {c : Char} (visible : isBlank c = false) (text rest : List Char) :
    trimEnd (text ++ c :: rest) = text ++ c :: trimEnd rest := by
  have reversed : (text ++ c :: rest).reverse = rest.reverse ++ c :: text.reverse := by simp
  rw [trimEnd_eq, trimEnd_eq, reversed, trimStart_stop visible]
  simp

theorem trim_stop {c : Char} (visible : isBlank c = false) (text rest : List Char) :
    trim (text ++ c :: rest) = trimStart text ++ c :: trimEnd rest := by
  rw [trim, trimStart_stop visible, trimEnd_stop visible]

theorem exists_trimStart (text : List Char) :
    ∃ gap, Blanks gap ∧ text = gap ++ trimStart text ∧
      ∀ c, (trimStart text).head? = some c → isBlank c = false := by
  induction text with
  | nil => exact ⟨[], .nil, rfl, by simp [trimStart]⟩
  | cons c rest ih =>
    by_cases blank : isBlank c = true
    · obtain ⟨gap, blanks, parts, head⟩ := ih
      have dropped : trimStart (c :: rest) = trimStart rest := by simp [trimStart, blank]
      refine ⟨c :: gap, .cons blank blanks, ?_, ?_⟩
      · rw [dropped, List.cons_append, ← parts]
      · rw [dropped]
        exact head
    · have kept : trimStart (c :: rest) = c :: rest := by simp [trimStart, blank]
      refine ⟨[], .nil, by rw [kept, List.nil_append], ?_⟩
      rw [kept]
      intro d first
      cases first
      simpa using blank

theorem exists_trimEnd (text : List Char) :
    ∃ gap, Blanks gap ∧ text = trimEnd text ++ gap ∧
      ∀ c, (trimEnd text).getLast? = some c → isBlank c = false := by
  obtain ⟨gap, blanks, parts, head⟩ := exists_trimStart text.reverse
  refine ⟨gap.reverse, blanks.reverse, ?_, ?_⟩
  · rw [trimEnd_eq, ← List.reverse_append, ← parts, List.reverse_reverse]
  · intro c last
    rw [trimEnd_eq, List.getLast?_reverse] at last
    exact head c last

theorem exists_trimEnd_gap (text : List Char) :
    ∃ gap, Blanks gap ∧ trimEnd text = gap ++ trim text := by
  obtain ⟨gap, blanks, parts, head⟩ := exists_trimStart text
  cases shape : trimStart text with
  | nil =>
    rw [shape, List.append_nil] at parts
    refine ⟨[], .nil, ?_⟩
    rw [trim, shape, parts, trimEnd_eq, trimStart_blanks blanks.reverse]
    rfl
  | cons c rest =>
    rw [shape] at parts head
    have visible : isBlank c = false := head c rfl
    refine ⟨gap, blanks, ?_⟩
    rw [trim, shape, parts, trimEnd_stop visible]
    exact congrArg (gap ++ ·) (trimEnd_stop visible [] rest).symm

theorem exists_trim (text : List Char) :
    ∃ before after, Blanks before ∧ Blanks after ∧ text = before ++ trim text ++ after ∧
      Tight (trim text) := by
  obtain ⟨before, blanks, parts, head⟩ := exists_trimStart text
  obtain ⟨after, trailing, rest, last⟩ := exists_trimEnd (trimStart text)
  refine ⟨before, after, blanks, trailing, ?_, ?_, last⟩
  · rw [List.append_assoc, trim, ← rest, ← parts]
  · intro c first
    apply head c
    rw [rest]
    rw [trim] at first
    cases shape : trimEnd (trimStart text) with
    | nil => rw [shape] at first; cases first
    | cons d others => rw [shape] at first; exact first

theorem trim_within (text : List Char) : trim text <:+: text := by
  obtain ⟨before, after, _, _, parts, _⟩ := exists_trim text
  exact ⟨before, after, parts.symm⟩

theorem tight_trim (text : List Char) : Tight (trim text) := by
  obtain ⟨_, _, _, _, _, tight⟩ := exists_trim text
  exact tight

theorem trim_between {before text after : List Char} (hb : Blanks before) (tight : Tight text)
    (ha : Blanks after) : trim (before ++ text ++ after) = text := by
  rw [trim, List.append_assoc, trimStart_append hb]
  cases text with
  | nil =>
    rw [List.nil_append, trimStart_blanks ha]
    rfl
  | cons c rest =>
    rw [trimStart_of_head, trimEnd_append ha, trimEnd_of_last tight.last]
    exact tight.head

theorem trim_blanks {gap : List Char} (blanks : Blanks gap) : trim gap = [] := by
  rw [trim, trimStart_blanks blanks]
  rfl

theorem Tight.blanks_eq_nil {text gap : List Char} (tight : Tight (text ++ gap))
    (blanks : Blanks gap) : gap = [] := by
  rcases List.eq_nil_or_concat gap with rfl | ⟨front, c, rfl⟩
  · rfl
  · have visible := tight.last c (by simp)
    rw [blanks c (by simp)] at visible
    cases visible

end Regesta.Text
