import Regesta.Proofs.Text.Numeral

/-!
The grammar of JSON texts (RFC 8259): which texts spell which values. Members of an object are kept
in their order, also when a name is repeated, and numbers as they are written. Escaped surrogates
spell a character in pairs only.
-/
namespace Regesta

inductive Json where
  | null
  | boolean (value : Bool)
  | number (digits : List Char)
  | string (value : String)
  | array (items : List Json)
  | object (members : List (String × Json))

namespace Json

open Text (IsDecimal)

def isBlank (c : Char) : Bool := c = ' ' || c = '\t' || c = '\n' || c = '\r'

def Gap (text : List Char) : Prop := ∀ c ∈ text, isBlank c = true

def IsDigits (digits : List Char) : Prop := digits ≠ [] ∧ ∀ c ∈ digits, IsDecimal c

/-- Whole numbers; only zero begins with a zero. -/
inductive IsWhole : List Char → Prop
  | zero : IsWhole ['0']
  | other {c : Char} {rest : List Char} :
    IsDecimal c → c ≠ '0' → (∀ d ∈ rest, IsDecimal d) → IsWhole (c :: rest)

inductive IsFraction : List Char → Prop
  | none : IsFraction []
  | some {digits : List Char} : IsDigits digits → IsFraction ('.' :: digits)

inductive IsExponent : List Char → Prop
  | none : IsExponent []
  | some {e : Char} {sign digits : List Char} :
    e = 'e' ∨ e = 'E' → sign = [] ∨ sign = ['+'] ∨ sign = ['-'] → IsDigits digits →
    IsExponent (e :: sign ++ digits)

inductive IsNumber : List Char → Prop
  | intro {minus whole fraction exponent : List Char} :
    minus = [] ∨ minus = ['-'] → IsWhole whole → IsFraction fraction → IsExponent exponent →
    IsNumber (minus ++ whole ++ fraction ++ exponent)

def shortEscapes : List (Char × Char) :=
  [('"', '"'), ('\\', '\\'), ('/', '/'), ('b', '\x08'), ('f', '\x0c'), ('n', '\n'), ('r', '\r'),
    ('t', '\t')]

structure IsUnit (digits : List Char) (unit : Nat) : Prop where
  four : digits.length = 4
  counts : Text.natural? 16 digits = some unit

def IsHigh (unit : Nat) : Prop := 0xD800 ≤ unit ∧ unit < 0xDC00

def IsLow (unit : Nat) : Prop := 0xDC00 ≤ unit ∧ unit < 0xE000

inductive SpellsChar : List Char → Char → Prop
  | plain {c : Char} : c ≠ '"' → c ≠ '\\' → 0x20 ≤ c.toNat → SpellsChar [c] c
  | short {sign c : Char} : (sign, c) ∈ shortEscapes → SpellsChar ['\\', sign] c
  | unit {digits : List Char} {unit : Nat} :
    IsUnit digits unit → ¬ IsHigh unit → ¬ IsLow unit →
    SpellsChar ('\\' :: 'u' :: digits) (Char.ofNat unit)
  | pair {first second : List Char} {high low : Nat} :
    IsUnit first high → IsHigh high → IsUnit second low → IsLow low →
    SpellsChar ('\\' :: 'u' :: first ++ '\\' :: 'u' :: second)
      (Char.ofNat (0x10000 + (high - 0xD800) * 0x400 + (low - 0xDC00)))

inductive SpellsChars : List Char → List Char → Prop
  | nil : SpellsChars [] []
  | cons {sign text value : List Char} {c : Char} :
    SpellsChar sign c → SpellsChars text value → SpellsChars (sign ++ text) (c :: value)

inductive SpellsString : List Char → String → Prop
  | quoted {inner value : List Char} :
    SpellsChars inner value → SpellsString ('"' :: inner ++ ['"']) (String.ofList value)

inductive Padded {α : Type} (spells : List Char → α → Prop) : List Char → α → Prop
  | intro {before text after : List Char} {value : α} :
    Gap before → spells text value → Gap after → Padded spells (before ++ text ++ after) value

inductive Separated {α : Type} (spells : List Char → α → Prop) : List Char → List α → Prop
  | last {text : List Char} {item : α} : spells text item → Separated spells text [item]
  | more {text rest : List Char} {item : α} {items : List α} :
    spells text item → Separated spells rest items →
    Separated spells (text ++ ',' :: rest) (item :: items)

inductive Member (spells : List Char → Json → Prop) : List Char → String × Json → Prop
  | intro {label text : List Char} {name : String} {json : Json} :
    Padded SpellsString label name → Padded spells text json →
    Member spells (label ++ ':' :: text) (name, json)

inductive Spells : List Char → Json → Prop
  | null : Spells "null".toList .null
  | yes : Spells "true".toList (.boolean true)
  | no : Spells "false".toList (.boolean false)
  | number {digits : List Char} : IsNumber digits → Spells digits (.number digits)
  | string {text : List Char} {value : String} :
    SpellsString text value → Spells text (.string value)
  | emptyArray {gap : List Char} : Gap gap → Spells ('[' :: gap ++ [']']) (.array [])
  | array {inner : List Char} {items : List Json} :
    Separated (Padded Spells) inner items → Spells ('[' :: inner ++ [']']) (.array items)
  | emptyObject {gap : List Char} : Gap gap → Spells ('\x7b' :: gap ++ ['\x7d']) (.object [])
  | object {inner : List Char} {members : List (String × Json)} :
    Separated (Member Spells) inner members → Spells ('\x7b' :: inner ++ ['\x7d']) (.object members)

def IsText (text : String) (json : Json) : Prop := Padded Spells text.toList json

end Json
end Regesta
