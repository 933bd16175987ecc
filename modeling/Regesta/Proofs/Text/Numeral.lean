import Mathlib.Data.Nat.Digits.Defs
import Regesta.Text.Numeral

namespace Regesta.Text

def IsDecimal (c : Char) : Prop := '0' ≤ c ∧ c ≤ '9'

def decimal (digits : List Char) : Nat :=
  Nat.ofDigits 10 (digits.reverse.map fun c => c.toNat - '0'.toNat)

theorem digit?_decimal {c : Char} (decimal : IsDecimal c) :
    digit? 10 c = some (c.toNat - '0'.toNat) := by
  have low : '0'.toNat ≤ c.toNat := decimal.1
  have high : c.toNat ≤ '9'.toNat := decimal.2
  have bound : c.toNat - 48 < 10 := by
    change c.toNat ≤ 57 at high
    omega
  have here : '0' ≤ c ∧ c ≤ '9' := decimal
  simp only [digit?, here, and_self, if_true, Option.filter_some, bound, decide_true]
  rfl

@[simp] theorem isDigitOf_iff (c : Char) : isDigitOf 10 c = true ↔ IsDecimal c := by
  constructor
  · intro digit
    by_cases decimal : '0' ≤ c ∧ c ≤ '9'
    · exact decimal
    · exfalso
      unfold isDigitOf digit? at digit
      rw [if_neg decimal] at digit
      by_cases lower : 'a' ≤ c ∧ c ≤ 'f'
      · have low : 'a'.toNat ≤ c.toNat := lower.1
        have beyond : ¬ c.toNat - 87 < 10 := by
          change 97 ≤ c.toNat at low
          omega
        simp [lower, beyond] at digit
      · by_cases upper : 'A' ≤ c ∧ c ≤ 'F'
        · have low : 'A'.toNat ≤ c.toNat := upper.1
          have beyond : ¬ c.toNat - 55 < 10 := by
            change 65 ≤ c.toNat at low
            omega
          simp [lower, upper, beyond] at digit
        · simp [lower, upper] at digit
  · intro decimal
    rw [isDigitOf, digit?_decimal decimal]
    rfl

theorem naturalFrom?_decimal {digits : List Char} (decimals : ∀ c ∈ digits, IsDecimal c)
    (before : Nat) :
    naturalFrom? 10 before digits = some (before * 10 ^ digits.length + decimal digits) := by
  induction digits generalizing before with
  | nil => simp [naturalFrom?, decimal]
  | cons c rest ih =>
    have first := digit?_decimal (decimals c List.mem_cons_self)
    have others := ih (fun d member => decimals d (List.mem_cons_of_mem _ member))
      (before * 10 + (c.toNat - '0'.toNat))
    have value : decimal (c :: rest) = decimal rest + 10 ^ rest.length * (c.toNat - '0'.toNat) := by
      rw [decimal, List.reverse_cons, List.map_append, Nat.ofDigits_append, List.length_map,
        List.length_reverse, List.map_singleton, Nat.ofDigits_singleton, decimal]
    rw [naturalFrom?, List.foldlM_cons, first]
    change naturalFrom? 10 _ rest = _
    rw [others, value, List.length_cons, Nat.pow_succ]
    congr 1
    ring

theorem natural?_decimal {digits : List Char} (filled : digits ≠ [])
    (decimals : ∀ c ∈ digits, IsDecimal c) : natural? 10 digits = some (decimal digits) := by
  have present : digits.isEmpty = false := by simpa using filled
  rw [natural?, present, if_neg Bool.false_ne_true, naturalFrom?_decimal decimals, Nat.zero_mul,
    Nat.zero_add]

end Regesta.Text
