import Regesta.Text.Blank
import Regesta.Text.Letter

namespace Regesta.Text

def blankCodes : List Nat :=
  List.range' 0x9 5 ++ List.range' 0x2000 11 ++
    [0x20, 0x85, 0xA0, 0x1680, 0x2028, 0x2029, 0x202F, 0x205F, 0x3000]

theorem mem_blankCodes {c : Char} (blank : isBlank c = true) : c.toNat ∈ blankCodes := by
  simp only [isBlank, Bool.or_eq_true, Bool.and_eq_true, decide_eq_true_eq, beq_iff_eq] at blank
  simp only [blankCodes, List.mem_append, List.mem_range'_1, List.mem_cons, List.not_mem_nil]
  omega

theorem blankCodes_apart : ∀ n ∈ blankCodes,
    isLetter (Char.ofNat n) = false ∧ isNumber (Char.ofNat n) = false := by
  decide +kernel

theorem isLetter_of_blank {c : Char} (blank : isBlank c = true) : isLetter c = false := by
  have apart := blankCodes_apart _ (mem_blankCodes blank)
  rw [Char.ofNat_toNat] at apart
  exact apart.1

theorem isNumber_of_blank {c : Char} (blank : isBlank c = true) : isNumber c = false := by
  have apart := blankCodes_apart _ (mem_blankCodes blank)
  rw [Char.ofNat_toNat] at apart
  exact apart.2

end Regesta.Text
