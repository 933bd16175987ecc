import Regesta.Text.Numeral
import Regesta.Yaml.Cursor
import Regesta.Yaml.Token

namespace Regesta.Yaml

def isNameEnd (c : Char) : Bool :=
  c = '?' || c = ':' || c = ',' || c = ']' || c = '}' || c = '%' || c = '@' || c.toNat = 0x60

def anchorName? (cursor : Cursor) : Option (List Char × Cursor) :=
  let (name, cursor) := cursor.readWhile isWordChar
  if name.isEmpty then none
  else if cursor.closesAt 0 || cursor.satisfies 0 isNameEnd then some (name, cursor)
  else none

/-- Reads a tag handle: `!`, or a word between two of them. Without the second one the word is no
handle, which only a directive minds. -/
def handle? (directive : Bool) (cursor : Cursor) : Option (List Char × Cursor) :=
  if cursor.sees '!' then
    let (word, cursor) := (cursor.skip 1).readWhile isWordChar
    if cursor.sees '!' then some ('!' :: (word ++ ['!']), cursor.skip 1)
    else if directive && !word.isEmpty then none
    else some ('!' :: word, cursor)
  else none

def isUriChar (verbatim : Bool) (c : Char) : Bool :=
  isWordChar c || ";/?:@&=+$.!~*'()".toList.contains c ||
    (verbatim && (c = ',' || c = '[' || c = ']'))

def octets? : Nat → List Char → Option (List UInt8)
  | 0, _ => some []
  | n + 1, '%' :: a :: b :: rest => do
    let octet ← Text.natural? 16 [a, b]
    let octets ← octets? n rest
    some (octet.toUInt8 :: octets)
  | _ + 1, _ => none

def octetCount? (octet : UInt8) : Option Nat :=
  if octet < 0x80 then some 1
  else if octet / 32 = 6 then some 2
  else if octet / 16 = 14 then some 3
  else if octet / 8 = 30 then some 4
  else none

/-- Reads the escaped octets of one character of a URI. Only their leading bits are looked at, so
octets that encode no character may pass. -/
def uriEscape? (cursor : Cursor) : Option (List UInt8 × Cursor) := do
  let first ← octets? 1 cursor.rest
  let count ← octetCount? (first.headD 0)
  let octets ← octets? count cursor.rest
  if octets.tail.all fun octet => octet / 64 = 2 then some (octets, cursor.skip (3 * count))
  else none

def uri? (verbatim : Bool) : Nat → Cursor → Option (List UInt8 × Cursor)
  | 0, _ => none
  | fuel + 1, cursor =>
    match cursor.rest with
    | [] => some ([], cursor)
    | c :: _ =>
      if c = '%' then do
        let (octets, next) ← uriEscape? cursor
        let (rest, next) ← uri? verbatim fuel next
        some (octets ++ rest, next)
      else if isUriChar verbatim c then do
        let (rest, next) ← uri? verbatim fuel (cursor.skip 1)
        some (c.toNat.toUInt8 :: rest, next)
      else some ([], cursor)

def someUri? (verbatim : Bool) (cursor : Cursor) : Option (Tag × Cursor) := do
  let (uri, next) ← uri? verbatim (cursor.rest.length + 1) cursor
  if uri.isEmpty then none else some (⟨uri⟩, next)

/-- Reads a tag up to what ends it: its handle and the rest. A tag of which nothing counts behind
its sign has no handle, and is the sign. -/
def tagParts? (cursor : Cursor) : Option ((List Char × Tag) × Cursor) :=
  if cursor.satisfies 1 (· = '<') then do
    let (uri, cursor) ← someUri? true (cursor.skip 2)
    if cursor.sees '>' then some (([], uri), cursor.skip 1) else none
  else do
    let (handle, cursor) ← handle? false cursor
    if 1 < handle.length && handle.getLast? = some '!' then
      let (suffix, cursor) ← someUri? false cursor
      some ((handle, suffix), cursor)
    else
      let (more, cursor) ← uri? false (cursor.rest.length + 1) cursor
      let suffix := (Tag.ofText (String.ofList (handle.drop 1))).octets ++ more
      if suffix.headD 0 = 0 then some (([], Tag.ofText "!"), cursor)
      else some ((['!'], ⟨suffix⟩), cursor)

def tag? (flow : Bool) (cursor : Cursor) : Option (Token × Cursor) := do
  let ((handle, suffix), cursor) ← tagParts? cursor
  if cursor.closesAt 0 || (flow && cursor.sees ',') then some (.tag handle suffix, cursor)
  else none

def versionPart? (cursor : Cursor) : Option (Nat × Cursor) :=
  let (digits, cursor) := cursor.readWhile Char.isDigit
  if 9 < digits.length then none else (Text.natural? 10 digits).map (·, cursor)

def version? (cursor : Cursor) : Option (Token × Cursor) := do
  let (major, cursor) ← versionPart? cursor.skipBlanks
  if cursor.sees '.' then
    let (minor, cursor) ← versionPart? (cursor.skip 1)
    some (.version major minor, cursor)
  else none

def handleValue? (cursor : Cursor) : Option (Token × Cursor) := do
  let (name, cursor) ← handle? true cursor.skipBlanks
  if cursor.atBlank then
    let (value, cursor) ← someUri? true cursor.skipBlanks
    if cursor.closesAt 0 then some (.handle name value, cursor) else none
  else none

def directive? (cursor : Cursor) : Option (Token × Cursor) := do
  let (name, cursor) := (cursor.skip 1).readWhile isWordChar
  if !cursor.closesAt 0 then none
  else
    let (token, cursor) ←
      match String.ofList name with
      | "YAML" => version? cursor
      | "TAG" => handleValue? cursor
      | _ => none
    let cursor := cursor.skipComment
    if cursor.atBreak then some (token, cursor.skipLine)
    else if cursor.atEnd then some (token, cursor)
    else none

end Regesta.Yaml
