import Mathlib.Data.List.Basic
import Regesta.Proofs.Text.Split
import Regesta.Proofs.Text.Trim

namespace Regesta.Text

structure IsWord (word : List Char) : Prop where
  filled : word ≠ []
  visible : ∀ c ∈ word, isBlank c = false

/-- A text and its maximal runs of characters that are not blank, in order. -/
inductive Runs : List Char → List (List Char) → Prop
  | none {gap : List Char} : Blanks gap → Runs gap []
  | run {gap word rest : List Char} {others : List (List Char)} :
    Blanks gap → IsWord word → (∀ c, rest.head? = some c → isBlank c = true) → Runs rest others →
    Runs (gap ++ word ++ rest) (word :: others)

/-- Texts with no blank at their ends and one space wherever there are blanks between two others. -/
structure Spaced (text : List Char) : Prop where
  tight : Tight text
  single : ∀ {left gap right : List Char} {c d : Char}, text = left ++ c :: gap ++ d :: right →
    isBlank c = false → isBlank d = false → Blanks gap → gap ≠ [] → gap = [' ']

theorem words_gap {gap : List Char} (blanks : Blanks gap) (text : List Char) :
    words (gap ++ text) = words text := by
  induction gap with
  | nil => rfl
  | cons c rest ih =>
    rw [List.cons_append, words, if_pos (blanks c List.mem_cons_self), ih blanks.tail]

theorem words_blanks {gap : List Char} (blanks : Blanks gap) : words gap = [] := by
  have none := words_gap blanks []
  rwa [List.append_nil] at none

theorem extendWords_last (c : Char) {rest : List Char}
    (ends : ∀ d, rest.head? = some d → isBlank d = true) (words : List (List Char)) :
    extendWords c rest words = [c] :: words := by
  cases rest with
  | nil => rfl
  | cons d others =>
    have blank : isBlank d = true := ends d rfl
    cases words with
    | nil => rfl
    | cons word later => rw [extendWords, if_pos blank]

theorem words_run {word rest : List Char} (isWord : IsWord word)
    (ends : ∀ c, rest.head? = some c → isBlank c = true) :
    words (word ++ rest) = word :: words rest := by
  obtain ⟨filled, visible⟩ := isWord
  induction word with
  | nil => exact absurd rfl filled
  | cons c others ih =>
    obtain ⟨first, later⟩ := List.forall_mem_cons.mp visible
    rw [List.cons_append, words, first, if_neg Bool.false_ne_true]
    cases others with
    | nil => exact extendWords_last c ends _
    | cons d tail =>
      have next : isBlank d = false := later d List.mem_cons_self
      rw [ih (List.cons_ne_nil d tail) later, List.cons_append, extendWords, next,
        if_neg Bool.false_ne_true]

theorem Runs.words_eq {text : List Char} {runs : List (List Char)} (parts : Runs text runs) :
    words text = runs := by
  induction parts with
  | none blanks => exact words_blanks blanks
  | run blanks isWord ends _ ih =>
    rw [List.append_assoc, words_gap blanks, words_run isWord ends, ih]

theorem runs_words (text : List Char) : Runs text (words text) := by
  -- On the length: a word is passed over at once, so that the rest is no tail of the text.
  induction size : text.length using Nat.strongRecOn generalizing text with
  | _ n ih =>
    obtain ⟨gap, blanks, parts, head⟩ := exists_trimStart text
    cases shape : trimStart text with
    | nil =>
      rw [shape, List.append_nil] at parts
      rw [parts, words_blanks blanks]
      exact .none blanks
    | cons c tail =>
      rw [shape] at parts head
      have start : isBlank c = false := head c rfl
      generalize cut : tail.span (fun d => !isBlank d) = spanned
      obtain ⟨others, rest⟩ := spanned
      obtain ⟨rfl, passes, stops⟩ := span_sound cut
      have isWord : IsWord (c :: others) := by
        refine ⟨List.cons_ne_nil _ _, List.forall_mem_cons.mpr ⟨start, ?_⟩⟩
        intro d member
        simpa using passes d member
      have ends : ∀ d, rest.head? = some d → isBlank d = true := by
        intro d first
        simpa using stops d first
      have shorter : rest.length < n := by
        rw [← size, parts, List.length_append, List.length_cons, List.length_append]
        omega
      have found : Runs text (([c] ++ others) :: words rest) := by
        rw [parts, ← List.cons_append, ← List.append_assoc]
        exact .run blanks isWord ends (ih rest.length shorter rest rfl)
      rwa [found.words_eq]

/-- A text has one sequence of maximal runs, and these are its words. -/
theorem runs_iff (text : List Char) (runs : List (List Char)) :
    Runs text runs ↔ runs = words text :=
  ⟨fun parts => parts.words_eq.symm, fun same => same ▸ runs_words text⟩

theorem words_isWord (text : List Char) : ∀ word ∈ words text, IsWord word := by
  have parts := runs_words text
  generalize words text = runs at parts
  induction parts with
  | none => exact fun word member => absurd member List.not_mem_nil
  | run _ isWord _ _ ih => exact List.forall_mem_cons.mpr ⟨isWord, ih⟩

theorem words_around {gap : List Char} (blanks : Blanks gap) (filled : gap ≠ [])
    (left right : List Char) : words (left ++ gap ++ right) = words left ++ words right := by
  have parts := runs_words left
  generalize words left = runs at parts
  induction parts with
  | none outer => rw [words_gap (outer.append blanks), List.nil_append]
  | @run outer word rest others before isWord ends _ ih =>
    have later : ∀ c, (rest ++ gap ++ right).head? = some c → isBlank c = true := by
      intro c first
      cases rest with
      | nil =>
        obtain ⟨d, tail, rfl⟩ := List.exists_cons_of_ne_nil filled
        exact blanks c (List.mem_of_mem_head? first)
      | cons d tail => exact ends c first
    have shape : outer ++ word ++ rest ++ gap ++ right =
        outer ++ (word ++ (rest ++ gap ++ right)) := by simp
    rw [shape, words_gap before, words_run isWord later, ih, List.cons_append]

theorem words_intercalate {runs : List (List Char)} (isWord : ∀ word ∈ runs, IsWord word) :
    words ([' '].intercalate runs) = runs := by
  induction runs with
  | nil => rfl
  | cons word others ih =>
    obtain ⟨first, later⟩ := List.forall_mem_cons.mp isWord
    cases others with
    | nil =>
      rw [List.intercalate_singleton]
      have whole : words (word ++ []) = word :: words [] := words_run first (by simp)
      rwa [List.append_nil, words_blanks .nil] at whole
    | cons next rest =>
      have space : ∀ c, ([' '] ++ [' '].intercalate (next :: rest)).head? = some c →
          isBlank c = true := by
        intro c found
        cases found
        decide
      have blanks : Blanks [' '] := .cons (by decide) .nil
      rw [List.intercalate_cons_cons, List.append_assoc, words_run first space, words_gap blanks,
        ih later]

@[simp] theorem words_normalize (text : List Char) : words (normalize text) = words text :=
  words_intercalate (words_isWord text)

theorem intercalate_tight {runs : List (List Char)} (isWord : ∀ word ∈ runs, IsWord word) :
    Tight ([' '].intercalate runs) := by
  induction runs with
  | nil => exact .of_visible fun c member => absurd member List.not_mem_nil
  | cons word others ih =>
    obtain ⟨first, later⟩ := List.forall_mem_cons.mp isWord
    have outer : Tight word := .of_visible first.visible
    cases others with
    | nil => rwa [List.intercalate_singleton]
    | cons next rest =>
      obtain ⟨c, tail, rfl⟩ := List.exists_cons_of_ne_nil first.filled
      have filled : [' '].intercalate (next :: rest) ≠ [] := by
        intro empty
        have none := words_intercalate later
        rw [empty] at none
        cases none
      rw [List.intercalate_cons_cons]
      constructor
      · exact fun d found => outer.head d found
      · intro d found
        rw [List.getLast?_append_of_ne_nil _ filled] at found
        exact (ih later).last d found

theorem blank_behind {word tail front after : List Char} {b : Char}
    (visible : ∀ c ∈ word, isBlank c = false) (blank : isBlank b = true)
    (same : word ++ ' ' :: tail = front ++ b :: after) :
    (front = word ∧ b = ' ' ∧ after = tail) ∨
      ∃ middle, front = word ++ ' ' :: middle ∧ tail = middle ++ b :: after := by
  induction word generalizing front with
  | nil =>
    cases front with
    | nil =>
      cases same
      exact .inl ⟨rfl, rfl, rfl⟩
    | cons c middle =>
      cases same
      exact .inr ⟨middle, rfl, rfl⟩
  | cons c others ih =>
    obtain ⟨first, later⟩ := List.forall_mem_cons.mp visible
    cases front with
    | nil =>
      obtain ⟨rfl, _⟩ := List.cons.inj same
      rw [blank] at first
      cases first
    | cons d rest =>
      obtain ⟨rfl, tails⟩ := List.cons.inj same
      rcases ih later tails with ⟨rfl, found, ends⟩ | ⟨middle, rfl, ends⟩
      · exact .inl ⟨rfl, found, ends⟩
      · exact .inr ⟨middle, rfl, ends⟩

theorem intercalate_single {runs : List (List Char)} (isWord : ∀ word ∈ runs, IsWord word)
    {left gap right : List Char} {c d : Char}
    (joined : [' '].intercalate runs = left ++ c :: gap ++ d :: right) (visible : isBlank c = false)
    (blanks : Blanks gap) (filled : gap ≠ []) : gap = [' '] := by
  obtain ⟨b, others, rfl⟩ := List.exists_cons_of_ne_nil filled
  have blank : isBlank b = true := blanks b List.mem_cons_self
  induction runs generalizing left with
  | nil => simp at joined
  | cons word later ih =>
    obtain ⟨first, rest⟩ := List.forall_mem_cons.mp isWord
    cases later with
    | nil =>
      have inside : b ∈ word := by
        rw [List.intercalate_singleton] at joined
        simp [joined]
      rw [first.visible b inside] at blank
      cases blank
    | cons next more =>
      have same : word ++ ' ' :: [' '].intercalate (next :: more) =
          (left ++ [c]) ++ b :: (others ++ d :: right) := by
        rw [List.intercalate_cons_cons] at joined
        simpa using joined
      rcases blank_behind first.visible blank same with ⟨_, rfl, ends⟩ | ⟨middle, front, ends⟩
      · -- A word follows, so that the blanks end here.
        cases others with
        | nil => rfl
        | cons e tail =>
          have start := (intercalate_tight rest).head e (by rw [← ends]; rfl)
          rw [blanks e (by simp)] at start
          cases start
      · rcases List.eq_nil_or_concat middle with rfl | ⟨middle, e, rfl⟩
        · obtain ⟨_, last⟩ := List.append_inj' front rfl
          cases last
          cases visible
        · have split : left ++ [c] = (word ++ ' ' :: middle) ++ [e] := by simpa using front
          obtain ⟨_, last⟩ := List.append_inj' split rfl
          cases last
          exact ih rest (by simpa using ends)

theorem normalize_spaced (text : List Char) : Spaced (normalize text) :=
  ⟨intercalate_tight (words_isWord text), fun joined visible _ blanks filled =>
    intercalate_single (words_isWord text) joined visible blanks filled⟩

theorem Spaced.suffix {front tail : List Char} {c : Char} (spaced : Spaced (front ++ c :: tail))
    (visible : isBlank c = false) : Spaced (c :: tail) := by
  refine ⟨⟨?_, ?_⟩, ?_⟩
  · intro d first
    cases first
    exact visible
  · intro d last
    apply spaced.tight.last d
    rwa [List.getLast?_append_of_ne_nil _ (List.cons_ne_nil c tail)]
  · intro left gap right d e shape hd he blanks filled
    have whole : front ++ c :: tail = (front ++ left) ++ d :: gap ++ e :: right := by
      rw [shape]
      simp
    exact spaced.single whole hd he blanks filled

theorem IsWord.trimStart_eq {gap word : List Char} (isWord : IsWord word) (blanks : Blanks gap)
    (rest : List Char) : trimStart (gap ++ word ++ rest) = word ++ rest := by
  obtain ⟨c, tail, rfl⟩ := List.exists_cons_of_ne_nil isWord.filled
  rw [List.append_assoc, trimStart_append blanks]
  exact trimStart_of_head fun d first => Option.some.inj first ▸ isWord.visible c List.mem_cons_self

theorem Runs.joined {text : List Char} {runs : List (List Char)} (parts : Runs text runs)
    (spaced : Spaced (trimStart text)) : [' '].intercalate runs = trimStart text := by
  induction parts with
  | none blanks =>
    rw [trimStart_blanks blanks]
    rfl
  | @run gap word rest others blanks isWord ends later ih =>
    rw [isWord.trimStart_eq blanks] at spaced ⊢
    obtain ⟨between, inner, shape, head⟩ := exists_trimStart rest
    cases follows : trimStart rest with
    | nil =>
      rw [follows, List.append_nil] at shape
      have ended : rest = [] := spaced.tight.blanks_eq_nil (shape ▸ inner)
      subst ended
      rw [← later.words_eq, words_blanks .nil, List.intercalate_singleton, List.append_nil]
    | cons d tail =>
      rw [follows] at shape head ih
      have visible : isBlank d = false := head d rfl
      have filled : between ≠ [] := by
        intro empty
        rw [empty, List.nil_append] at shape
        rw [ends d (by rw [shape]; rfl)] at visible
        cases visible
      obtain ⟨front, c, whole⟩ := (List.eq_nil_or_concat word).resolve_left isWord.filled
      have last : isBlank c = false := isWord.visible c (by simp [whole])
      have cut : word ++ rest = front ++ c :: between ++ d :: tail := by
        rw [shape, whole]
        simp
      have space : between = [' '] := spaced.single cut last visible inner filled
      have joined := ih ((cut ▸ spaced).suffix visible)
      cases others with
      | nil => cases joined
      | cons next more =>
        rw [List.intercalate_cons_cons, joined, shape, space, List.append_assoc]

theorem spaced_iff (text : List Char) : Spaced text ↔ normalize text = text := by
  constructor
  · intro spaced
    have start := trimStart_of_head spaced.tight.head
    have joined := (runs_words text).joined (start.symm ▸ spaced)
    rwa [start] at joined
  · intro same
    exact same ▸ normalize_spaced text

theorem Blanks.filter_visible {gap : List Char} (blanks : Blanks gap) :
    (gap.filter fun c => !isBlank c) = [] :=
  List.filter_eq_nil_iff.mpr fun c member => by simp [blanks c member]

@[simp] theorem flatten_words (text : List Char) :
    (words text).flatten = text.filter fun c => !isBlank c := by
  have parts := runs_words text
  generalize words text = runs at parts
  induction parts with
  | none blanks => rw [blanks.filter_visible, List.flatten_nil]
  | @run gap word rest others blanks isWord _ _ ih =>
    have kept : (word.filter fun c => !isBlank c) = word :=
      List.filter_eq_self.mpr fun c member => by simp [isWord.visible c member]
    rw [List.filter_append, List.filter_append, blanks.filter_visible, kept, List.nil_append,
      List.flatten_cons, ih]

theorem normalize_eq_iff (text other : List Char) :
    other = normalize text ↔ Runs other (words text) ∧ Spaced other := by
  rw [runs_iff, spaced_iff]
  constructor
  · intro same
    subst same
    have kept := words_normalize text
    refine ⟨kept.symm, ?_⟩
    rw [normalize, kept, ← normalize]
  · intro ⟨same, normal⟩
    rw [← normal, normalize, normalize, same]

/-- The normal form of a text is the one text with the same runs that is evenly spaced. So it is its
own normal form, it keeps the characters that are not blank, and texts around blanks may be
normalized by themselves. -/
theorem normalized_determined (text : String) :
    (∃ runs, (∀ found, Runs text.toList found ↔ found = runs) ∧
      ∀ other : String, other = normalized text ↔ Runs other.toList runs ∧ Spaced other.toList) ∧
    normalized (normalized text) = normalized text ∧
    (normalized text).toList.filter (fun c => !isBlank c) =
      text.toList.filter (fun c => !isBlank c) ∧
    ∀ left gap right : String, Blanks gap.toList → gap ≠ "" →
      normalized (left ++ gap ++ right) = normalized (normalized left ++ " " ++ normalized right) := by
  have inner : ∀ other : String, (normalized other).toList = normalize other.toList := by
    intro other
    rw [normalized, String.toList_ofList]
  refine ⟨⟨words text.toList, runs_iff text.toList, ?_⟩, ?_, ?_, ?_⟩
  · intro other
    rw [← normalize_eq_iff, ← inner, String.toList_inj]
  · rw [normalized, inner, normalize, words_normalize, ← normalize, ← normalized]
  · rw [inner, ← flatten_words, words_normalize, flatten_words]
  · intro left gap right blanks filled
    have space : Blanks [' '] := .cons (by decide) .nil
    have inside : gap.toList ≠ [] := by simpa using filled
    have parts : words (left ++ gap ++ right).toList =
        words (normalized left ++ " " ++ normalized right).toList := by
      simp only [String.toList_append, inner]
      rw [words_around blanks inside, show " ".toList = [' '] from rfl,
        words_around space (List.cons_ne_nil _ _), words_normalize, words_normalize]
    rw [normalized, normalized, normalize, normalize, parts]

theorem normalized_determined_unicode :
    let left := "\u00a0Rom,  den"
    let gap := "\u2003\n"
    Blanks gap.toList ∧ gap ≠ "" ∧ normalized left = "Rom, den" ∧
      normalized (left ++ gap ++ "3. Mai ") = normalized ("Rom, den" ++ " " ++ "3. Mai") := by
  intro left gap
  have blanks : Blanks gap.toList := List.all_eq_true.mp (by decide)
  have filled : gap ≠ "" := by decide
  have first : normalized left = "Rom, den" := by decide
  have last : normalized "3. Mai " = "3. Mai" := by decide
  have apart := (normalized_determined left).2.2.2 left gap "3. Mai " blanks filled
  rw [first, last] at apart
  exact ⟨blanks, filled, first, apart⟩

end Regesta.Text
