import Regesta.Xml.Character
import Regesta.Text.Numeral
import Regesta.Text.Split

namespace Regesta.Xml

def skipSpaces (text : List Char) : List Char := text.dropWhile isSpace

def startsSpace : List Char → Bool
  | c :: _ => isSpace c
  | [] => false

def spaces? (text : List Char) : Option (List Char) :=
  if startsSpace text then some (skipSpaces text) else none

def exactly? (expected : String) (text : List Char) : Option (List Char) :=
  expected.toList.isPrefixOf? text

def name? : List Char → Option (List Char × List Char)
  | [] => none
  | c :: rest => if isNameStart c then some ((c :: rest).span isNameChar) else none

structure WrittenName where
  label : List Char
  stem : List Char
  deriving DecidableEq

def startsName : List Char → Bool
  | c :: _ => isNameStart c
  | [] => false

/-- A name with at most one colon; the label may be empty, the stem may not. -/
def writtenName? (text : List Char) : Option (WrittenName × List Char) :=
  let (written, rest) := text.span isNameChar
  match Text.splitEvery ':' written with
  | [stem] => if startsName stem then some (⟨[], stem⟩, rest) else none
  | [label, stem] =>
    if (label.isEmpty || startsName label) && startsName stem then some (⟨label, stem⟩, rest)
    else none
  | _ => none

def equals? (text : List Char) : Option (List Char) :=
  match skipSpaces text with
  | '=' :: rest => some (skipSpaces rest)
  | _ => none

def quoted? : List Char → Option (List Char × List Char)
  | c :: rest =>
    if c = '"' || c = '\'' then Text.splitFirst [c] rest else none
  | [] => none

/-- The value of an attribute as it is written: allowed characters without `<` between two equal
quotes. -/
def attributeValue? (text : List Char) : Option (List Char × List Char) := do
  let (value, rest) ← quoted? text
  if value.all fun c => isAllowed c && c ≠ '<' then some (value, rest) else none

def writtenAttribute? (text : List Char) : Option ((WrittenName × List Char) × List Char) := do
  let (name, rest) ← writtenName? text
  let rest ← equals? rest
  let (value, rest) ← attributeValue? rest
  some ((name, value), rest)

inductive Reference where
  | character (c : Char)
  | entity (name : List Char)

/-- The character with a given number; numbers that no character has stand for U+FFFD. -/
def numberedChar? (n : Nat) : Option Char :=
  if n < 0x100000000 then
    let c := if h : n.isValidChar then Char.ofNatAux n h else '\uFFFD'
    if isAllowed c then some c else none
  else none

def predefined? (name : String) : Option Char :=
  match name with
  | "quot" => some '"'
  | "amp" => some '&'
  | "apos" => some '\''
  | "lt" => some '<'
  | "gt" => some '>'
  | _ => none

def reference? (text : List Char) : Option (Reference × List Char) := do
  let (reference, rest) ←
    match text with
    | '#' :: 'x' :: rest =>
      let (digits, rest) := rest.span (Text.isDigitOf 16)
      (Text.natural? 16 digits >>= numberedChar?).map fun c => (Reference.character c, rest)
    | '#' :: rest =>
      let (digits, rest) := rest.span (Text.isDigitOf 10)
      (Text.natural? 10 digits >>= numberedChar?).map fun c => (Reference.character c, rest)
    | _ => do
      let (name, rest) ← name? text
      match predefined? (String.ofList name) with
      | some c => some (Reference.character c, rest)
      | none => some (Reference.entity name, rest)
  match rest with
  | ';' :: rest => some (reference, rest)
  | _ => none

def doublesHyphen : List Char → Bool
  | [] => false
  | ['-'] => true
  | '-' :: '-' :: _ => true
  | _ :: rest => doublesHyphen rest

def comment? (text : List Char) : Option (List Char × List Char) := do
  let (value, rest) ← Text.splitFirst "-->".toList text
  if value.all isAllowed && !doublesHyphen value then some (value, rest) else none

def instruction? (text : List Char) : Option ((List Char × List Char) × List Char) := do
  if "<?xml ".toList.isPrefixOf text then none
  else
    let (target, rest) ← name? (text.drop 2)
    let (value, rest) ← Text.splitFirst "?>".toList (skipSpaces rest)
    if value.all isAllowed then some ((target, value), rest) else none

def section? (text : List Char) : Option (List Char × List Char) := do
  let (value, rest) ← Text.splitFirst "]]>".toList text
  if value.all isAllowed then some (value, rest) else none

end Regesta.Xml
