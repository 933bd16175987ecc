namespace Regesta.Yaml

def isBreak (c : Char) : Bool :=
  c = '\r' || c = '\n' || c = '\u0085' || c = '\u2028' || c = '\u2029'

def isBlank (c : Char) : Bool := c = ' ' || c = '\t'

def isWordChar (c : Char) : Bool := c.isAlphanum || c = '_' || c = '-'

def isPrintable (c : Char) : Bool :=
  let n := c.toNat
  n = 0x9 || n = 0xA || n = 0xD || (0x20 ≤ n && n ≤ 0x7E) || n = 0x85 ||
    (0xA0 ≤ n && n ≤ 0xD7FF) || (0xE000 ≤ n && n ≤ 0xFFFD) || 0x10000 ≤ n

def encodedLength (text : List Char) : Nat :=
  text.foldl (fun length c => length + c.utf8Size) 0

structure Cursor where
  rest : List Char
  offset : Nat
  line : Nat
  column : Nat

namespace Cursor

def start (text : List Char) : Cursor := ⟨text, 0, 0, 0⟩

def head? (cursor : Cursor) : Option Char := cursor.rest.head?

def sees (cursor : Cursor) (c : Char) : Bool := cursor.rest.head? = some c

def satisfies (cursor : Cursor) (n : Nat) (test : Char → Bool) : Bool := cursor.rest[n]?.any test

def atEnd (cursor : Cursor) : Bool := cursor.rest.isEmpty

def atBreak (cursor : Cursor) : Bool := cursor.satisfies 0 isBreak

def atBlank (cursor : Cursor) : Bool := cursor.satisfies 0 isBlank

def closesAt (cursor : Cursor) (n : Nat) : Bool :=
  match cursor.rest[n]? with
  | none => true
  | some c => isBlank c || isBreak c

def skip (cursor : Cursor) (n : Nat) : Cursor :=
  let offset := cursor.offset + encodedLength (cursor.rest.take n)
  ⟨cursor.rest.drop n, offset, cursor.line, cursor.column + n⟩

/-- Past a line break, and the break as it is read: the two-character break and most single ones
count as a line feed. -/
def readLine (cursor : Cursor) : List Char × Cursor :=
  match cursor.rest with
  | '\r' :: '\n' :: rest => (['\n'], ⟨rest, cursor.offset + 2, cursor.line + 1, 0⟩)
  | c :: rest =>
    let read := if c = '\u2028' || c = '\u2029' then c else '\n'
    ([read], ⟨rest, cursor.offset + c.utf8Size, cursor.line + 1, 0⟩)
  | [] => ([], cursor)

def skipLine (cursor : Cursor) : Cursor := cursor.readLine.2

def readWhile (cursor : Cursor) (test : Char → Bool) : List Char × Cursor :=
  let read := cursor.rest.takeWhile test
  (read, cursor.skip read.length)

def skipBlanks (cursor : Cursor) : Cursor := (cursor.readWhile isBlank).2

def skipToBreak (cursor : Cursor) : Cursor := (cursor.readWhile fun c => !isBreak c).2

def skipComment (cursor : Cursor) : Cursor :=
  let cursor := cursor.skipBlanks
  if cursor.sees '#' then cursor.skipToBreak else cursor

def atMarker (cursor : Cursor) (sign : Char) : Bool :=
  cursor.column = 0 && [sign, sign, sign].isPrefixOf cursor.rest && cursor.closesAt 3

def atDocumentMarker (cursor : Cursor) : Bool := cursor.atMarker '-' || cursor.atMarker '.'

end Cursor
end Regesta.Yaml
