import Mathlib.Data.List.Nodup
import Regesta.Proofs.Json.Grammar
import Regesta.Proofs.Text.Split

namespace Regesta.Json

open Text (IsDecimal)

inductive Kind where
  | null
  | boolean (value : Bool)
  | number
  | string
  | array
  | object

def kind : Json → Kind
  | null => .null
  | boolean value => .boolean value
  | number _ => .number
  | string _ => .string
  | array _ => .array
  | object _ => .object

def kindOf (c : Char) : Kind :=
  if c = 'n' then .null
  else if c = 't' then .boolean true
  else if c = 'f' then .boolean false
  else if c = '"' then .string
  else if c = '[' then .array
  else if c = '\x7b' then .object
  else .number

def isNumeral (c : Char) : Bool :=
  Text.isDigitOf 10 c || c = '-' || c = '+' || c = '.' || c = 'e' || c = 'E'

def isSign (c : Char) : Bool := c = ',' || c = ':' || c = ']' || c = '\x7d'

def Ends (tail : List Char) : Prop := ∀ c, tail.head? = some c → isNumeral c = false

/-- Texts that do not go on with a number, nor with blanks behind it. -/
def Stops (tail : List Char) : Prop :=
  ∀ c, tail.head? = some c → isNumeral c = false ∧ isBlank c = false

def Closes (tail : List Char) : Prop := ∃ c rest, tail = c :: rest ∧ isSign c = true ∧ c ≠ ','

/-- What is spelled at the start of a text is spelled in no other way there, and nothing else is,
when a text follows that stops it. -/
def Determined {α : Type} (spells : List Char → α → Prop) (stops : List Char → Prop) (value : α) :
    Prop :=
  ∀ ⦃left right tail other : List Char⦄ ⦃found : α⦄, spells left value → spells right found →
    left ++ tail = right ++ other → stops tail → stops other → value = found ∧ tail = other

theorem isNumeral_decimal {c : Char} (decimal : IsDecimal c) : isNumeral c = true := by
  simp [isNumeral, (Text.isDigitOf_iff c).mpr decimal]

theorem blank_not_numeral {c : Char} (blank : isBlank c = true) : isNumeral c = false := by
  simp only [isBlank, Bool.or_eq_true, decide_eq_true_eq, or_assoc] at blank
  rcases blank with rfl | rfl | rfl | rfl <;> rfl

theorem sign_stops {c : Char} (sign : isSign c = true) (rest : List Char) : Stops (c :: rest) := by
  intro d first
  cases first
  simp only [isSign, Bool.or_eq_true, decide_eq_true_eq, or_assoc] at sign
  rcases sign with rfl | rfl | rfl | rfl <;> exact ⟨rfl, rfl⟩

theorem Stops.ends {tail : List Char} (stops : Stops tail) {gap : List Char} (blanks : Gap gap) :
    Ends (gap ++ tail) := by
  intro c first
  cases gap with
  | nil => exact (stops c first).1
  | cons d rest =>
    cases first
    exact blank_not_numeral (blanks _ List.mem_cons_self)

theorem IsDigits.numerals {digits : List Char} (fits : IsDigits digits) :
    ∀ c ∈ digits, isNumeral c = true := fun c member => isNumeral_decimal (fits.2 c member)

theorem IsNumber.numerals {digits : List Char} (number : IsNumber digits) :
    ∀ c ∈ digits, isNumeral c = true := by
  obtain @⟨minus, whole, fraction, exponent, signed, isWhole, isFraction, isExponent⟩ := number
  have first : ∀ c ∈ minus, isNumeral c = true := by
    rcases signed with rfl | rfl
    · exact List.forall_mem_nil _
    · exact List.forall_mem_singleton.mpr rfl
  have second : ∀ c ∈ whole, isNumeral c = true := by
    cases isWhole with
    | zero => exact List.forall_mem_singleton.mpr rfl
    | other decimal _ rest =>
      refine List.forall_mem_cons.mpr ⟨isNumeral_decimal decimal, ?_⟩
      exact fun d member => isNumeral_decimal (rest d member)
  have third : ∀ c ∈ fraction, isNumeral c = true := by
    cases isFraction with
    | none => exact List.forall_mem_nil _
    | some digits => exact List.forall_mem_cons.mpr ⟨rfl, digits.numerals⟩
  have fourth : ∀ c ∈ exponent, isNumeral c = true := by
    cases isExponent with
    | none => exact List.forall_mem_nil _
    | some mark signed digits =>
      refine List.forall_mem_cons.mpr ⟨?_, List.forall_mem_append.mpr ⟨?_, digits.numerals⟩⟩
      · rcases mark with rfl | rfl <;> rfl
      · rcases signed with rfl | rfl | rfl
        · exact List.forall_mem_nil _
        · exact List.forall_mem_singleton.mpr rfl
        · exact List.forall_mem_singleton.mpr rfl
  simp only [List.forall_mem_append]
  exact ⟨⟨⟨first, second⟩, third⟩, fourth⟩

theorem IsNumber.filled {digits : List Char} (number : IsNumber digits) : digits ≠ [] := by
  obtain ⟨signed, isWhole, _, _⟩ := number
  rcases signed with rfl | rfl
  · cases isWhole with
    | zero | other => exact List.cons_ne_nil _ _
  · exact List.cons_ne_nil _ _

theorem kindOf_numeral {c : Char} (numeral : isNumeral c = true) : kindOf c = .number := by
  have differs : ∀ sign, isNumeral sign = false → c ≠ sign := by
    intro sign foreign same
    rw [← same, numeral] at foreign
    cases foreign
  simp only [kindOf, differs 'n' rfl, differs 't' rfl, differs 'f' rfl, differs '"' rfl,
    differs '[' rfl, differs '\x7b' rfl, if_false]

/-- What stands in front of a text is determined where it is of a kind that the text does not go on
with. -/
theorem front_unique {kind : Char → Bool} {left right tail other : List Char}
    (passes : ∀ c ∈ left, kind c = true) (passes' : ∀ c ∈ right, kind c = true)
    (same : left ++ tail = right ++ other) (stops : ∀ c, tail.head? = some c → kind c = false)
    (stops' : ∀ c, other.head? = some c → kind c = false) : left = right ∧ tail = other := by
  have cut := Text.span_complete passes stops
  rw [same, Text.span_complete passes' stops'] at cut
  exact ⟨(congrArg Prod.fst cut).symm, (congrArg Prod.snd cut).symm⟩

theorem gap_unique {left right tail other : List Char} (hl : Gap left) (hr : Gap right)
    (same : left ++ tail = right ++ other)
    (stops : ∀ c, tail.head? = some c → isBlank c = false)
    (stops' : ∀ c, other.head? = some c → isBlank c = false) : tail = other :=
  (front_unique hl hr same stops stops').2

theorem IsUnit.unique {left right tail other : List Char} {m n : Nat} (hl : IsUnit left m)
    (hr : IsUnit right n) (same : left ++ tail = right ++ other) : m = n ∧ tail = other := by
  obtain ⟨digits, rest⟩ := List.append_inj same (hl.four.trans hr.four.symm)
  have counted := hl.counts
  rw [digits, hr.counts] at counted
  exact ⟨(Option.some.inj counted).symm, rest⟩

theorem shortEscapes_unique {sign c d : Char} (hl : (sign, c) ∈ shortEscapes)
    (hr : (sign, d) ∈ shortEscapes) : c = d := by
  have apart : (shortEscapes.map Prod.fst).Nodup := by decide
  exact congrArg Prod.snd (List.inj_on_of_nodup_map apart hl hr rfl)

theorem not_short_u (c : Char) : ('u', c) ∉ shortEscapes := by
  intro listed
  have absent : 'u' ∉ shortEscapes.map Prod.fst := by decide
  exact absent (List.mem_map_of_mem listed)

theorem SpellsChar.unique {left right tail other : List Char} {c d : Char}
    (hl : SpellsChar left c) (hr : SpellsChar right d) (same : left ++ tail = right ++ other) :
    c = d ∧ tail = other := by
  cases hl with
  | plain _ backslash =>
    cases hr with
    | plain => exact List.cons.inj same
    | short | unit | pair => exact absurd (List.cons.inj same).1 backslash
  | @short sign _ listed =>
    cases hr with
    | plain _ backslash => exact absurd (List.cons.inj same).1.symm backslash
    | short other =>
      simp only [List.cons_append, List.nil_append, List.cons.injEq, true_and] at same
      obtain ⟨rfl, rest⟩ := same
      exact ⟨shortEscapes_unique listed other, rest⟩
    | unit | pair =>
      have sign : sign = 'u' := (List.cons.inj (List.cons.inj same).2).1
      exact absurd (sign ▸ listed) (not_short_u _)
  | unit counts notHigh =>
    cases hr with
    | plain _ backslash => exact absurd (List.cons.inj same).1.symm backslash
    | short listed =>
      have sign := (List.cons.inj (List.cons.inj same).2).1
      exact absurd (sign ▸ listed) (not_short_u _)
    | unit others =>
      simp only [List.cons_append, List.cons.injEq, true_and] at same
      obtain ⟨rfl, rest⟩ := counts.unique others same
      exact ⟨rfl, rest⟩
    | pair others high =>
      simp only [List.cons_append, List.append_assoc, List.cons.injEq, true_and] at same
      obtain ⟨rfl, _⟩ := counts.unique others same
      exact absurd high notHigh
  | pair first high second low =>
    cases hr with
    | plain _ backslash => exact absurd (List.cons.inj same).1.symm backslash
    | short listed =>
      have sign := (List.cons.inj (List.cons.inj same).2).1
      exact absurd (sign ▸ listed) (not_short_u _)
    | unit others notHigh =>
      simp only [List.cons_append, List.append_assoc, List.cons.injEq, true_and] at same
      obtain ⟨rfl, _⟩ := first.unique others same
      exact absurd high notHigh
    | pair first' _ second' =>
      simp only [List.cons_append, List.append_assoc, List.cons.injEq, true_and] at same
      obtain ⟨rfl, rest⟩ := first.unique first' same
      simp only [List.cons.injEq, true_and] at rest
      obtain ⟨rfl, rest⟩ := second.unique second' rest
      exact ⟨rfl, rest⟩

theorem SpellsChar.head {sign : List Char} {c : Char} (spells : SpellsChar sign c) :
    ∃ d rest, sign = d :: rest ∧ d ≠ '"' := by
  cases spells with
  | plain quote => exact ⟨_, _, rfl, quote⟩
  | short | unit | pair => exact ⟨_, _, rfl, by decide⟩

theorem SpellsChars.unique {left right tail other value found : List Char}
    (hl : SpellsChars left value) (hr : SpellsChars right found)
    (same : left ++ '"' :: tail = right ++ '"' :: other) : value = found ∧ tail = other := by
  induction hl generalizing right found with
  | nil =>
    cases hr with
    | nil => exact ⟨rfl, (List.cons.inj same).2⟩
    | cons first =>
      obtain ⟨d, rest, rfl, quote⟩ := first.head
      exact absurd (List.cons.inj same).1.symm quote
  | cons first _ ih =>
    cases hr with
    | nil =>
      obtain ⟨d, rest, rfl, quote⟩ := first.head
      exact absurd (List.cons.inj same).1 quote
    | cons first' later =>
      rw [List.append_assoc, List.append_assoc] at same
      obtain ⟨rfl, rest⟩ := first.unique first' same
      obtain ⟨rfl, rest⟩ := ih later rest
      exact ⟨rfl, rest⟩

theorem string_determined (value : String) : Determined SpellsString Ends value := by
  intro left right tail other found hl hr same _ _
  cases hl with
  | quoted first =>
    cases hr with
    | quoted second =>
      simp only [List.cons_append, List.append_assoc, List.nil_append, List.cons.injEq,
        true_and] at same
      obtain ⟨rfl, rest⟩ := first.unique second same
      exact ⟨rfl, rest⟩

def Begins (text : List Char) : Prop :=
  ∃ c rest, text = c :: rest ∧ isBlank c = false ∧ isSign c = false

theorem Begins.visible {text tail : List Char} (begins : Begins text) :
    ∀ c, (text ++ tail).head? = some c → isBlank c = false := by
  intro c first
  obtain ⟨d, rest, rfl, visible, _⟩ := begins
  cases first
  exact visible

theorem SpellsString.head {text : List Char} {value : String} (spells : SpellsString text value) :
    ∃ rest, text = '"' :: rest := by
  cases spells with
  | quoted => exact ⟨_, rfl⟩

theorem SpellsString.begins {text : List Char} {value : String}
    (spells : SpellsString text value) : Begins text := by
  obtain ⟨rest, rfl⟩ := spells.head
  exact ⟨_, _, rfl, rfl, rfl⟩

theorem Spells.head {text : List Char} {json : Json} (spells : Spells text json) :
    ∃ c rest, text = c :: rest ∧ json.kind = kindOf c ∧ isBlank c = false ∧ isSign c = false := by
  cases spells with
  | null | yes | no | emptyArray | array | emptyObject | object =>
    exact ⟨_, _, rfl, rfl, rfl, rfl⟩
  | string quoted =>
    obtain ⟨rest, rfl⟩ := quoted.head
    exact ⟨_, _, rfl, rfl, rfl, rfl⟩
  | number number =>
    obtain ⟨c, rest, rfl⟩ := List.exists_cons_of_ne_nil number.filled
    have numeral : isNumeral c = true := number.numerals c List.mem_cons_self
    refine ⟨c, rest, rfl, (kindOf_numeral numeral).symm, ?_, ?_⟩
    · by_contra blank
      rw [Bool.not_eq_false] at blank
      rw [blank_not_numeral blank] at numeral
      cases numeral
    · by_contra sign
      rw [Bool.not_eq_false] at sign
      rw [(sign_stops sign [] c rfl).1] at numeral
      cases numeral

theorem Spells.begins {text : List Char} {json : Json} (spells : Spells text json) :
    Begins text := by
  obtain ⟨c, rest, shape, _, visible, plain⟩ := spells.head
  exact ⟨c, rest, shape, visible, plain⟩

def BeginsBehind (text : List Char) : Prop :=
  ∃ gap body, text = gap ++ body ∧ Gap gap ∧ Begins body

theorem BeginsBehind.append {text : List Char} (begins : BeginsBehind text) (rest : List Char) :
    BeginsBehind (text ++ rest) := by
  obtain ⟨gap, _, rfl, blanks, c, body, rfl, plain⟩ := begins
  exact ⟨gap, c :: body ++ rest, List.append_assoc .., blanks, c, body ++ rest, rfl, plain⟩

theorem BeginsBehind.not_sign {text gap tail other : List Char} {c : Char}
    (begins : BeginsBehind text) (blanks : Gap gap) (sign : isSign c = true)
    (same : gap ++ c :: tail = text ++ other) : False := by
  obtain ⟨gap', body, rfl, blanks', begins⟩ := begins
  rw [List.append_assoc] at same
  have rest := gap_unique blanks blanks' same (fun d first => (sign_stops sign tail d first).2)
    begins.visible
  obtain ⟨d, body, rfl, _, plain⟩ := begins
  rw [(List.cons.inj rest).1, plain] at sign
  cases sign

section

variable {α : Type} {spells : List Char → α → Prop}

theorem Padded.begins {text : List Char} {value : α} (padded : Padded spells text value)
    (begins : ∀ text value, spells text value → Begins text) : BeginsBehind text := by
  obtain @⟨before, text, after, _, gap, spelled, _⟩ := padded
  have front : BeginsBehind (before ++ text) := ⟨before, text, rfl, gap, begins _ _ spelled⟩
  exact front.append after

theorem Padded.determined {value : α} (determined : Determined spells Ends value)
    (begins : ∀ text value, spells text value → Begins text) :
    Determined (Padded spells) Stops value := by
  intro left right tail other found hl hr same stops stops'
  obtain @⟨before, text, after, _, gap, spelled, trailing⟩ := hl
  obtain @⟨before', text', after', _, gap', spelled', trailing'⟩ := hr
  simp only [List.append_assoc] at same
  have inner := gap_unique gap gap' same (begins _ _ spelled).visible (begins _ _ spelled').visible
  obtain ⟨rfl, rest⟩ :=
    determined spelled spelled' inner (stops.ends trailing) (stops'.ends trailing')
  exact ⟨rfl, gap_unique trailing trailing' rest (fun c first => (stops c first).2)
    fun c first => (stops' c first).2⟩

theorem Separated.determined {items : List α}
    (each : ∀ item ∈ items, Determined spells Stops item) :
    Determined (Separated spells) Closes items := by
  induction items with
  | nil =>
    intro left right tail other found hl
    cases hl
  | cons item rest ih =>
    obtain ⟨first, later⟩ := List.forall_mem_cons.mp each
    intro left right tail other found hl hr same closes closes'
    have stops : ∀ {tail : List Char}, Closes tail → Stops tail := by
      intro tail closes
      obtain ⟨c, rest, rfl, sign, _⟩ := closes
      exact sign_stops sign rest
    have comma : ∀ rest, Stops (',' :: rest) := sign_stops rfl
    cases hl with
    | last hl =>
      cases hr with
      | last hr =>
        obtain ⟨rfl, same⟩ := first hl hr same (stops closes) (stops closes')
        exact ⟨rfl, same⟩
      | more hr =>
        rw [List.append_assoc] at same
        obtain ⟨_, rfl⟩ := first hl hr same (stops closes) (comma _)
        obtain ⟨c, _, shape, _, other⟩ := closes
        exact absurd (List.cons.inj shape).1.symm other
    | more hl items =>
      rw [List.append_assoc] at same
      cases hr with
      | last hr =>
        obtain ⟨_, rfl⟩ := first hl hr same (comma _) (stops closes')
        obtain ⟨c, _, shape, _, other⟩ := closes'
        exact absurd (List.cons.inj shape).1.symm other
      | more hr others =>
        rw [List.append_assoc] at same
        obtain ⟨rfl, same⟩ := first hl hr same (comma _) (comma _)
        obtain ⟨rfl, same⟩ := ih later items others (List.cons.inj same).2 closes closes'
        exact ⟨rfl, same⟩

inductive Listing (spells : List Char → α → Prop) : List Char → List α → Prop
  | none {gap : List Char} : Gap gap → Listing spells gap []
  | some {text : List Char} {items : List α} :
    Separated spells text items → Listing spells text items

theorem Listing.determined {items : List α}
    (each : ∀ item ∈ items, Determined spells Stops item)
    (begins : ∀ text item, spells text item → BeginsBehind text) :
    Determined (Listing spells) Closes items := by
  have separated : ∀ {text : List Char} {items : List α}, Separated spells text items →
      BeginsBehind text := by
    intro text items separated
    cases separated with
    | last first => exact begins _ _ first
    | more first => exact (begins _ _ first).append _
  intro left right tail other found hl hr same closes closes'
  cases hl with
  | none blanks =>
    cases hr with
    | none blanks' =>
      obtain ⟨c, rest, rfl, sign, _⟩ := closes
      obtain ⟨d, rest', rfl, sign', _⟩ := closes'
      exact ⟨rfl, gap_unique blanks blanks' same (fun _ first => (sign_stops sign _ _ first).2)
        fun _ first => (sign_stops sign' _ _ first).2⟩
    | some items =>
      obtain ⟨c, rest, rfl, sign, _⟩ := closes
      exact ((separated items).not_sign blanks sign same).elim
  | some items =>
    cases hr with
    | none blanks =>
      obtain ⟨c, rest, rfl, sign, _⟩ := closes'
      exact ((separated items).not_sign blanks sign same.symm).elim
    | some others => exact Separated.determined each items others same closes closes'

end

theorem Member.determined {member : String × Json}
    (determined : Determined Spells Ends member.2) : Determined (Member Spells) Stops member := by
  intro left right tail other found hl hr same stops stops'
  have label : ∀ name, Determined (Padded SpellsString) Stops name := fun name =>
    Padded.determined (string_determined name) fun _ _ => SpellsString.begins
  have colon : ∀ rest, Stops (':' :: rest) := sign_stops rfl
  obtain ⟨name, value⟩ := hl
  obtain ⟨name', value'⟩ := hr
  rw [List.append_assoc, List.append_assoc] at same
  obtain ⟨rfl, rest⟩ := label _ name name' same (colon _) (colon _)
  obtain ⟨rfl, rest⟩ := Padded.determined determined (fun _ _ => Spells.begins) value value'
    (List.cons.inj rest).2 stops stops'
  exact ⟨rfl, rest⟩

theorem Member.begins {text : List Char} {member : String × Json}
    (spelled : Member Spells text member) : BeginsBehind text := by
  obtain ⟨label, _⟩ := spelled
  exact (label.begins fun _ _ => SpellsString.begins).append _

theorem kind_unique {left right tail other : List Char} {json found : Json}
    (hl : Spells left json) (hr : Spells right found) (same : left ++ tail = right ++ other) :
    json.kind = found.kind := by
  obtain ⟨c, rest, rfl, kind, _⟩ := hl.head
  obtain ⟨d, rest', rfl, kind', _⟩ := hr.head
  rw [kind, kind', (List.cons.inj same).1]

theorem Spells.array_inner {text : List Char} {items : List Json}
    (spells : Spells text (.array items)) :
    ∃ inner, text = '[' :: inner ++ [']'] ∧ Listing (Padded Spells) inner items := by
  cases spells with
  | emptyArray gap => exact ⟨_, rfl, .none gap⟩
  | array items => exact ⟨_, rfl, .some items⟩

theorem Spells.object_inner {text : List Char} {members : List (String × Json)}
    (spells : Spells text (.object members)) :
    ∃ inner, text = '\x7b' :: inner ++ ['\x7d'] ∧ Listing (Member Spells) inner members := by
  cases spells with
  | emptyObject gap => exact ⟨_, rfl, .none gap⟩
  | object members => exact ⟨_, rfl, .some members⟩

theorem enclosed_unique {α : Type} {spells : List Char → α → Prop}
    {left right tail other : List Char}
    {items found : List α} {opening closing : Char}
    (determined : Determined (Listing spells) Closes items) (hl : Listing spells left items)
    (hr : Listing spells right found) (sign : isSign closing = true) (plain : closing ≠ ',')
    (same : opening :: left ++ [closing] ++ tail = opening :: right ++ [closing] ++ other) :
    items = found ∧ tail = other := by
  simp only [List.cons_append, List.append_assoc, List.nil_append, List.cons.injEq,
    true_and] at same
  have closes : ∀ rest, Closes (closing :: rest) := fun rest => ⟨closing, rest, rfl, sign, plain⟩
  obtain ⟨rfl, rest⟩ := determined hl hr same (closes _) (closes _)
  exact ⟨rfl, (List.cons.inj rest).2⟩

theorem array_determined {items : List Json}
    (each : ∀ item ∈ items, Determined Spells Ends item) :
    Determined Spells Ends (.array items) := by
  intro left right tail other found hl hr same _ _
  have kinds := kind_unique hl hr same
  cases found <;> cases kinds
  obtain ⟨inner, rfl, listing⟩ := hl.array_inner
  obtain ⟨inner', rfl, listing'⟩ := hr.array_inner
  have padded : ∀ item ∈ items, Determined (Padded Spells) Stops item :=
    fun item member => Padded.determined (each item member) fun _ _ => Spells.begins
  have listed : Determined (Listing (Padded Spells)) Closes items :=
    Listing.determined padded fun _ _ padded => padded.begins fun _ _ => Spells.begins
  obtain ⟨rfl, rest⟩ := enclosed_unique listed listing listing' rfl (by decide) same
  exact ⟨rfl, rest⟩

theorem object_determined {members : List (String × Json)}
    (each : ∀ member ∈ members, Determined Spells Ends member.2) :
    Determined Spells Ends (.object members) := by
  intro left right tail other found hl hr same _ _
  have kinds := kind_unique hl hr same
  cases found <;> cases kinds
  obtain ⟨inner, rfl, listing⟩ := hl.object_inner
  obtain ⟨inner', rfl, listing'⟩ := hr.object_inner
  have listed : Determined (Listing (Member Spells)) Closes members :=
    Listing.determined (fun member among => Member.determined (each member among))
      fun _ _ => Member.begins
  obtain ⟨rfl, rest⟩ := enclosed_unique listed listing listing' rfl (by decide) same
  exact ⟨rfl, rest⟩

theorem null_determined : Determined Spells Ends .null := by
  intro left right tail other found hl hr same _ _
  have kinds := kind_unique hl hr same
  cases found <;> cases kinds
  cases hl
  cases hr
  exact ⟨rfl, List.append_cancel_left same⟩

theorem boolean_determined (value : Bool) : Determined Spells Ends (.boolean value) := by
  intro left right tail other found hl hr same _ _
  have kinds := kind_unique hl hr same
  cases found <;> cases kinds
  cases hl with
  | yes =>
    cases hr
    exact ⟨rfl, List.append_cancel_left same⟩
  | no =>
    cases hr
    exact ⟨rfl, List.append_cancel_left same⟩

theorem number_determined (digits : List Char) : Determined Spells Ends (.number digits) := by
  intro left right tail other found hl hr same ends ends'
  have kinds := kind_unique hl hr same
  cases found <;> cases kinds
  cases hl with
  | number first =>
    cases hr with
    | number second =>
      obtain ⟨rfl, rest⟩ := front_unique first.numerals second.numerals same ends ends'
      exact ⟨rfl, rest⟩

theorem text_determined (value : String) : Determined Spells Ends (.string value) := by
  intro left right tail other found hl hr same ends ends'
  have kinds := kind_unique hl hr same
  cases found <;> cases kinds
  cases hl with
  | string first =>
    cases hr with
    | string second =>
      obtain ⟨rfl, rest⟩ := string_determined value first second same ends ends'
      exact ⟨rfl, rest⟩

mutual
theorem determined (json : Json) : Determined Spells Ends json := by
  match json with
  | .null => exact null_determined
  | .boolean value => exact boolean_determined value
  | .number digits => exact number_determined digits
  | .string value => exact text_determined value
  | .array items => exact array_determined (items_determined items)
  | .object members => exact object_determined (members_determined members)

theorem items_determined (items : List Json) : ∀ item ∈ items, Determined Spells Ends item := by
  match items with
  | [] => exact fun _ member => absurd member List.not_mem_nil
  | item :: rest =>
    have first : Determined Spells Ends item := determined item
    exact List.forall_mem_cons.mpr ⟨first, items_determined rest⟩

theorem members_determined (members : List (String × Json)) :
    ∀ member ∈ members, Determined Spells Ends member.2 := by
  match members with
  | [] => exact fun _ member => absurd member List.not_mem_nil
  | (name, json) :: rest =>
    have first : Determined Spells Ends json := determined json
    exact List.forall_mem_cons.mpr ⟨first, members_determined rest⟩
end

theorem text_unique {text : String} {json found : Json} (hl : IsText text json)
    (hr : IsText text found) : json = found := by
  have stops : Stops [] := fun c first => by cases first
  exact (Padded.determined (determined json) (fun _ _ => Spells.begins) hl hr rfl stops stops).1

end Regesta.Json
