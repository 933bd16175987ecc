namespace Regesta.Text

def digit? (radix : Nat) (c : Char) : Option Nat :=
  let value? :=
    if '0' ≤ c ∧ c ≤ '9' then some (c.toNat - 48)
    else if 'a' ≤ c ∧ c ≤ 'f' then some (c.toNat - 87)
    else if 'A' ≤ c ∧ c ≤ 'F' then some (c.toNat - 55)
    else none
  value?.filter (· < radix)

def isDigitOf (radix : Nat) (c : Char) : Bool := (digit? radix c).isSome

def naturalFrom? (radix : Nat) (before : Nat) (digits : List Char) : Option Nat :=
  digits.foldlM (fun value c => (digit? radix c).map (value * radix + ·)) before

def natural? (radix : Nat) (digits : List Char) : Option Nat :=
  if digits.isEmpty then none else naturalFrom? radix 0 digits

def maximalWord : Nat := 0xFFFFFFFFFFFFFFFF

/-- The number that decimal digits spell when 64 bits hold it; a plus may stand in front. -/
def word? (text : String) : Option Nat :=
  let digits :=
    match text.toList with
    | '+' :: rest => rest
    | whole => whole
  (natural? 10 digits).filter fun value => value ≤ maximalWord

end Regesta.Text
