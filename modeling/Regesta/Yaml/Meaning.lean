import Regesta.Text.Numeral
import Regesta.Text.Split
import Regesta.Yaml.Token

namespace Regesta.Yaml

inductive Meaning where
  | null
  | truth (value : Bool)
  | integer
  /-- An integer that takes more than 64 bits. -/
  | wideInteger
  | decimal
  | text
  | mismatch (asked : String)
  deriving DecidableEq, Repr

def isNullWord (text : String) : Bool :=
  text = "null" || text = "Null" || text = "NULL" || text = "~"

def truth? (text : String) : Option Bool :=
  match text with
  | "true" | "True" | "TRUE" => some true
  | "false" | "False" | "FALSE" => some false
  | _ => none

def dropSign : List Char → List Char
  | '+' :: rest => rest
  | '-' :: rest => rest
  | text => text

/-- Digits with a needless zero in front are no number. -/
def isPaddedDigits (text : List Char) : Bool :=
  match dropSign text with
  | '0' :: c :: rest => (c :: rest).all Char.isDigit
  | _ => false

def wholeDigits? (padded : Bool) (digits : List Char) : Option Nat :=
  match digits with
  | '0' :: 'x' :: rest => Text.natural? 16 rest
  | '0' :: 'o' :: rest => Text.natural? 8 rest
  | '0' :: 'b' :: rest => Text.natural? 2 rest
  | _ => if padded then none else Text.natural? 10 digits

def whole? (text : List Char) : Option Int :=
  let padded := isPaddedDigits text
  match text with
  | '-' :: digits => (wholeDigits? padded digits).map fun n => -(n : Int)
  | '+' :: digits => (wholeDigits? padded digits).map Int.ofNat
  | digits => (wholeDigits? padded digits).map Int.ofNat

/-- How wide a whole number is; beyond 128 bits it is none. -/
def wholeMeaning? (n : Int) : Option Meaning :=
  if -Nat.pow 2 63 ≤ n ∧ n < Nat.pow 2 64 then some .integer
  else if -Nat.pow 2 127 ≤ n ∧ n < Nat.pow 2 128 then some .wideInteger
  else none

/-- The least number that counts as infinite. -/
def infinity : Nat := Nat.pow 2 1024 - Nat.pow 2 970

def isFinite (mantissa : Nat) (exponent : Int) : Bool :=
  let size := (Nat.toDigits 10 mantissa).length + exponent
  if mantissa = 0 || size ≤ 308 then true
  else if 310 ≤ size then false
  else if 0 ≤ exponent then mantissa * Nat.pow 10 exponent.toNat < infinity
  else mantissa < infinity * Nat.pow 10 (-exponent).toNat

def exponent? (text : List Char) : Option Int :=
  match text with
  | '-' :: digits => (Text.natural? 10 digits).map fun n => -(n : Int)
  | '+' :: digits => (Text.natural? 10 digits).map Int.ofNat
  | digits => (Text.natural? 10 digits).map Int.ofNat

def isDecimal (text : List Char) : Bool :=
  let (whole, rest) := text.span Char.isDigit
  let (fraction, rest) :=
    match rest with
    | '.' :: rest => rest.span Char.isDigit
    | rest => ([], rest)
  let exponent? :=
    match rest with
    | [] => some 0
    | c :: rest => if c = 'e' || c = 'E' then exponent? rest else none
  match Text.natural? 10 (whole ++ fraction), exponent? with
  | some mantissa, some exponent => isFinite mantissa (exponent - fraction.length)
  | _, _ => false

def isFloat (text : List Char) : Bool :=
  let word := String.ofList (dropSign text)
  let special := word = ".inf" || word = ".Inf" || word = ".INF"
  let nan := [".nan", ".NaN", ".NAN"].contains (String.ofList text)
  special || nan || isDecimal (dropSign text)

def plainMeaning (text : String) : Meaning :=
  if text.isEmpty || isNullWord text then .null
  else
    match truth? text with
    | some value => .truth value
    | none =>
      match whole? text.toList >>= wholeMeaning? with
      | some meaning => meaning
      | none => if !isPaddedDigits text.toList && isFloat text.toList then .decimal else .text

/-- What a scalar with a tag means. Tags that are local to the document do not tell. -/
def taggedMeaning (tag : Tag) (style : Style) (text : String) : Meaning :=
  if tag = .standard "bool" then
    match truth? text with
    | some value => .truth value
    | none => .mismatch "a boolean"
  else if tag = .standard "int" then
    (whole? text.toList >>= wholeMeaning?).getD (.mismatch "an integer")
  else if tag = .standard "float" then
    if isFloat text.toList then .decimal else .mismatch "a float"
  else if tag = .standard "null" then if isNullWord text then .null else .mismatch "null"
  else if tag.isLocal && style = .plain then plainMeaning text
  else .text

def meaning (tag : Option Tag) (style : Style) (text : String) : Meaning :=
  match tag with
  | some tag => taggedMeaning tag style text
  | none => if style = .plain then plainMeaning text else .text

end Regesta.Yaml
