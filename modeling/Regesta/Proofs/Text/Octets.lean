import Mathlib.Data.List.Lex
import Mathlib.Tactic.SplitIfs

namespace Regesta.Text

def octets (text : String) : List UInt8 := text.toUTF8.data.toList

def OctetsBefore (a b : String) : Prop := octets a < octets b

theorem octets_eq_flatMap (text : String) :
    octets text = text.toList.flatMap String.utf8EncodeChar := by
  change text.toByteArray.data.toList = _
  rw [← String.utf8Encode_toList, List.utf8Encode, List.toList_data_toByteArray]

theorem octet_lt_iff {m n : Nat} (left : m < 256) (right : n < 256) :
    UInt8.ofNat m < UInt8.ofNat n ↔ m < n := by
  rw [UInt8.lt_iff_toNat_lt, UInt8.toNat_ofNat_of_lt' left, UInt8.toNat_ofNat_of_lt' right]

theorem octet_inj {m n : Nat} (left : m < 256) (right : n < 256) :
    UInt8.ofNat m = UInt8.ofNat n ↔ m = n := by
  rw [← UInt8.toNat_inj, UInt8.toNat_ofNat_of_lt' left, UInt8.toNat_ofNat_of_lt' right]

theorem digit_before {m n : Nat} (base : Nat) (before : m < n) :
    m / base < n / base ∨ m / base = n / base ∧ m % base < n % base := by
  rcases Nat.lt_or_eq_of_le (Nat.div_le_div_right (c := base) before.le) with higher | same
  · exact .inl higher
  · refine .inr ⟨same, ?_⟩
    have left := Nat.div_add_mod m base
    have right := Nat.div_add_mod n base
    rw [same] at left
    omega

theorem encode_before {c d : Char} (before : c.toNat < d.toNat) (left right : List UInt8) :
    String.utf8EncodeChar c ++ left < String.utf8EncodeChar d ++ right := by
  have bounded : d.val.toNat < 0x110000 := by
    have valid : d.val.toNat.isValidChar := d.valid
    unfold Nat.isValidChar at valid
    omega
  change c.val.toNat < d.val.toNat at before
  have last := digit_before 64 before
  have third := fun higher : c.val.toNat / 64 < d.val.toNat / 64 => digit_before 64 higher
  have second := fun higher : c.val.toNat / 4096 < d.val.toNat / 4096 => digit_before 64 higher
  have leftFirst : c.val.toNat / 262144 % 8 = c.val.toNat / 262144 := Nat.mod_eq_of_lt (by omega)
  have rightFirst : d.val.toNat / 262144 % 8 = d.val.toNat / 262144 := Nat.mod_eq_of_lt (by omega)
  simp only [Nat.div_div_eq_div_mul, Nat.reduceMul] at third second
  simp only [String.utf8EncodeChar]
  -- encodings of different lengths differ in the first octet, the others at the first digit that
  -- does, to the base of 64
  split_ifs <;>
    simp (disch := omega) only [List.cons_append, List.cons_lt_cons_iff, octet_lt_iff,
      octet_inj] <;>
    omega

theorem append_lt_append_iff (front : List UInt8) {left right : List UInt8} :
    front ++ left < front ++ right ↔ left < right := by
  induction front with
  | nil => rfl
  | cons octet rest ih => simp [ih]

theorem flatMap_encode_lt_iff {left right : List Char} :
    left.flatMap String.utf8EncodeChar < right.flatMap String.utf8EncodeChar ↔
      List.Lex (fun c d => c.toNat < d.toNat) left right := by
  induction left generalizing right with
  | nil =>
    cases right with
    | nil => simp
    | cons d others =>
      have filled : (d :: others).flatMap String.utf8EncodeChar ≠ [] := by simp
      obtain ⟨octet, rest, same⟩ := List.exists_cons_of_ne_nil filled
      rw [same]
      exact ⟨fun _ => .nil, fun _ => .nil⟩
  | cons c rest ih =>
    cases right with
    | nil => simp
    | cons d others =>
      rw [List.flatMap_cons, List.flatMap_cons, List.cons_lex_cons_iff]
      rcases lt_trichotomy c.toNat d.toNat with before | same | after
      · exact ⟨fun _ => .inl before, fun _ => encode_before before _ _⟩
      · rw [Char.toNat_inj] at same
        subst same
        rw [append_lt_append_iff, ih]
        simp
      · have late := encode_before after (others.flatMap String.utf8EncodeChar)
          (rest.flatMap String.utf8EncodeChar)
        refine ⟨fun early => absurd late (List.lt_asymm early), ?_⟩
        rintro (early | ⟨same, -⟩)
        · omega
        · subst same
          exact absurd after (lt_irrefl _)

theorem octetsBefore_iff {a b : String} :
    OctetsBefore a b ↔ List.Lex (fun c d : Char => c.toNat < d.toNat) a.toList b.toList := by
  rw [OctetsBefore, octets_eq_flatMap, octets_eq_flatMap, flatMap_encode_lt_iff]

end Regesta.Text
