import Regesta.Value

namespace Regesta.Value

def hexDigit (n : Nat) : Char := Nat.digitChar (n % 16)

def escapeChar (c : Char) : List Char :=
  if c = '"' then ['\\', '"']
  else if c = '\\' then ['\\', '\\']
  else if c = '\x08' then ['\\', 'b']
  else if c = '\x0c' then ['\\', 'f']
  else if c = '\n' then ['\\', 'n']
  else if c = '\r' then ['\\', 'r']
  else if c = '\t' then ['\\', 't']
  else if c.toNat < 32 then ['\\', 'u', '0', '0', hexDigit (c.toNat / 16), hexDigit c.toNat]
  else [c]

def stringText (value : String) : List Char :=
  '"' :: (value.toList.flatMap escapeChar ++ ['"'])

mutual
def lineText : Value → List Char
  | .null => ['n', 'u', 'l', 'l']
  | .text value => stringText value
  | .list items => '[' :: itemsText items
  | .object members => '{' :: membersText members

def itemsText : List Value → List Char
  | [] => [']']
  | [item] => lineText item ++ [']']
  | item :: rest => lineText item ++ ',' :: itemsText rest

def membersText : List (String × Value) → List Char
  | [] => ['}']
  | [(name, value)] => stringText name ++ ':' :: (lineText value ++ ['}'])
  | (name, value) :: rest => stringText name ++ ':' :: (lineText value ++ ',' :: membersText rest)
end

def lineBreak (depth : Nat) : List Char := '\n' :: List.replicate (2 * depth) ' '

mutual
def pageText (depth : Nat) : Value → List Char
  | .null => ['n', 'u', 'l', 'l']
  | .text value => stringText value
  | .list [] => ['[', ']']
  | .list (item :: rest) => '[' :: pageItems (depth + 1) (item :: rest)
  | .object [] => ['{', '}']
  | .object (member :: rest) => '{' :: pageMembers (depth + 1) (member :: rest)

def pageItems (depth : Nat) : List Value → List Char
  | [] => lineBreak (depth - 1) ++ [']']
  | [item] => lineBreak depth ++ (pageText depth item ++ (lineBreak (depth - 1) ++ [']']))
  | item :: rest => lineBreak depth ++ (pageText depth item ++ ',' :: pageItems depth rest)

def pageMembers (depth : Nat) : List (String × Value) → List Char
  | [] => lineBreak (depth - 1) ++ ['}']
  | [(name, value)] =>
    lineBreak depth ++ (stringText name ++ ':' :: ' ' ::
      (pageText depth value ++ (lineBreak (depth - 1) ++ ['}'])))
  | (name, value) :: rest =>
    lineBreak depth ++ (stringText name ++ ':' :: ' ' ::
      (pageText depth value ++ ',' :: pageMembers depth rest))
end

def compact (value : Value) : String := String.ofList (lineText value)

def pretty (value : Value) : String := String.ofList (pageText 0 value)

end Regesta.Value
