import Regesta.Text.Numeral
import Regesta.Yaml.Cursor

namespace Regesta.Yaml

structure Gap where
  blanks : List Char
  broken : Bool
  first : List Char
  further : List Char

namespace Gap

def none : Gap := ⟨[], false, [], []⟩

def escaped : Gap := ⟨[], true, [], []⟩

def isNone (gap : Gap) : Bool := !gap.broken && gap.blanks.isEmpty

def folded (gap : Gap) : List Char :=
  if !gap.broken then gap.blanks
  else if gap.first = ['\n'] then if gap.further.isEmpty then [' '] else gap.further
  else gap.first ++ gap.further

end Gap

/-- Reads blanks and breaks. Where `indent` is given, a tab may not stand left of that column. -/
def readGap (indent : Option Nat) : Nat → Gap → Cursor → Option (Gap × Cursor)
  | 0, _, _ => none
  | fuel + 1, gap, cursor =>
    match cursor.rest with
    | [] => some (gap, cursor)
    | c :: _ =>
      if isBlank c then
        if gap.broken && c = '\t' && indent.any (cursor.column < ·) then none
        else
          let gap := if gap.broken then gap else { gap with blanks := gap.blanks ++ [c] }
          readGap indent fuel gap (cursor.skip 1)
      else if isBreak c then
        let (read, next) := cursor.readLine
        let gap :=
          if gap.broken then { gap with further := gap.further ++ read }
          else ⟨[], true, read, []⟩
        readGap indent fuel gap next
      else some (gap, cursor)

def isFlowSign (c : Char) : Bool := c = ',' || c = '[' || c = ']' || c = '{' || c = '}'

structure PlainScalar where
  /-- The text, last character first. -/
  text : List Char
  gap : Gap

def plainPiece (flow : Bool) : Nat → PlainScalar → Cursor → Option (PlainScalar × Cursor)
  | 0, _, _ => none
  | fuel + 1, scalar, cursor =>
    match cursor.rest with
    | [] => some (scalar, cursor)
    | c :: _ =>
      if cursor.closesAt 0 then some (scalar, cursor)
      else if flow && c = ':' && cursor.satisfies 1 fun d => isFlowSign d || d = '?' then none
      else if (c = ':' && cursor.closesAt 1) || (flow && isFlowSign c) then some (scalar, cursor)
      else
        let text := c :: (scalar.gap.folded.reverse ++ scalar.text)
        plainPiece flow fuel ⟨text, .none⟩ (cursor.skip 1)

def plainScalar (flow : Bool) (indent : Nat) :
    Nat → PlainScalar → Cursor → Option (PlainScalar × Cursor)
  | 0, _, _ => none
  | fuel + 1, scalar, cursor =>
    if cursor.atDocumentMarker || cursor.sees '#' then some (scalar, cursor)
    else do
      let (scalar, cursor) ← plainPiece flow (cursor.rest.length + 1) scalar cursor
      if !cursor.atBlank && !cursor.atBreak then some (scalar, cursor)
      else
        let (gap, cursor) ←
          readGap (some indent) (cursor.rest.length + 1) scalar.gap cursor
        let scalar := { scalar with gap }
        if !flow && cursor.column < indent then some (scalar, cursor)
        else plainScalar flow indent fuel scalar cursor

def escape? (c : Char) : Option Char :=
  match c with
  | '0' => some '\x00'
  | 'a' => some '\x07'
  | 'b' => some '\x08'
  | 't' | '\t' => some '\t'
  | 'n' => some '\n'
  | 'v' => some '\x0b'
  | 'f' => some '\x0c'
  | 'r' => some '\r'
  | 'e' => some '\x1b'
  | ' ' => some ' '
  | '"' => some '"'
  | '/' => some '/'
  | '\\' => some '\\'
  | 'N' => some '\u0085'
  | '_' => some '\u00a0'
  | 'L' => some '\u2028'
  | 'P' => some '\u2029'
  | _ => none

def escapeDigits? (c : Char) : Option Nat :=
  match c with
  | 'x' => some 2
  | 'u' => some 4
  | 'U' => some 8
  | _ => none

def readEscape? (text : List Char) : Option (Char × Nat) :=
  match text with
  | '\\' :: c :: rest =>
    match escape? c with
    | some value => some (value, 2)
    | none => do
      let digits ← escapeDigits? c
      let value ← Text.natural? 16 (rest.take digits)
      if (rest.take digits).length = digits then
        if h : value.isValidChar then some (Char.ofNatAux value h, 2 + digits) else none
      else none
  | _ => none

/-- Reads the characters of a quoted scalar up to a blank, a break or the closing quote; tells
whether an escaped line break was read last. -/
def quotedPiece (quote : Char) : Nat → List Char → Cursor → Option (List Char × Bool × Cursor)
  | 0, _, _ => none
  | fuel + 1, text, cursor =>
    match cursor.rest with
    | [] => some (text, false, cursor)
    | c :: rest =>
      if cursor.closesAt 0 then some (text, false, cursor)
      else if quote = '\'' && c = '\'' && rest.head? = some '\'' then
        quotedPiece quote fuel ('\'' :: text) (cursor.skip 2)
      else if c = quote then some (text, false, cursor)
      else if quote = '"' && c = '\\' then
        if (cursor.skip 1).atBreak then some (text, true, (cursor.skip 1).skipLine)
        else do
          let (value, length) ← readEscape? cursor.rest
          quotedPiece quote fuel (value :: text) (cursor.skip length)
      else quotedPiece quote fuel (c :: text) (cursor.skip 1)

def quotedScalar (quote : Char) : Nat → List Char → Cursor → Option (List Char × Cursor)
  | 0, _, _ => none
  | fuel + 1, text, cursor => do
    if cursor.atDocumentMarker || cursor.atEnd then none
    else
      let (text, escaped, cursor) ← quotedPiece quote (cursor.rest.length + 1) text cursor
      if cursor.sees quote then some (text, cursor.skip 1)
      else
        let start := if escaped then Gap.escaped else Gap.none
        let (gap, cursor) ← readGap none (cursor.rest.length + 1) start cursor
        quotedScalar quote fuel (gap.folded.reverse ++ text) cursor

inductive Chomping where
  | strip
  | clip
  | keep
  deriving DecidableEq

def chomping? (cursor : Cursor) : Option Chomping :=
  if cursor.sees '+' then some .keep else if cursor.sees '-' then some .strip else none

/-- Reads the indentation digit of a block scalar; zero is no digit here. -/
def indentDigit? (cursor : Cursor) : Option (Nat × Cursor) :=
  match cursor.head? >>= Text.digit? 10 with
  | none => some (0, cursor)
  | some 0 => none
  | some digit => some (digit, cursor.skip 1)

def blockSigns? (cursor : Cursor) : Option (Chomping × Nat × Cursor) :=
  match chomping? cursor with
  | some chomping => do
    let (digit, cursor) ← indentDigit? (cursor.skip 1)
    some (chomping, digit, cursor)
  | none => do
    let (digit, cursor) ← indentDigit? cursor
    if digit = 0 then some (.clip, 0, cursor)
    else
      match chomping? cursor with
      | some chomping => some (chomping, digit, cursor.skip 1)
      | none => some (.clip, digit, cursor)

/-- Reads the indentation and empty lines in front of a line of a block scalar, the breaks of the
empty lines, and the deepest column that was reached. Indentation zero is not yet known. -/
def blockBreaks (indent : Nat) :
    Nat → Nat → List Char → Cursor → Option (Nat × List Char × Cursor)
  | 0, _, _, _ => none
  | fuel + 1, deepest, breaks, cursor =>
    let spaces := (cursor.rest.takeWhile (· = ' ')).length
    let taken := if indent = 0 then spaces else min spaces (indent - cursor.column)
    let cursor := cursor.skip taken
    let deepest := max deepest cursor.column
    if (indent = 0 || cursor.column < indent) && cursor.sees '\t' then none
    else if cursor.atBreak then
      let (read, next) := cursor.readLine
      blockBreaks indent fuel deepest (breaks ++ read) next
    else some (deepest, breaks, cursor)

structure BlockScalar where
  text : List Char
  last : List Char
  further : List Char
  indented : Bool

def blockLines (fold : Bool) (indent : Nat) : Nat → BlockScalar → Cursor →
    Option (BlockScalar × Cursor)
  | 0, _, _ => none
  | fuel + 1, scalar, cursor =>
    if cursor.column = indent && !cursor.atEnd then do
      let indented := cursor.atBlank
      let joined :=
        if fold && scalar.last.head? = some '\n' && !scalar.indented && !indented then
          if scalar.further.isEmpty then [' '] else []
        else scalar.last
      let (line, cursor) := cursor.readWhile fun c => !isBreak c
      let (last, cursor) := cursor.readLine
      let (_, further, cursor) ← blockBreaks indent (cursor.rest.length + 1) 0 [] cursor
      let text := scalar.text ++ joined ++ scalar.further ++ line
      blockLines fold indent fuel ⟨text, last, further, indented⟩ cursor
    else some (scalar, cursor)

/-- Reads a block scalar after its sign, below a collection that is indented to `outer`. -/
def blockScalar (fold : Bool) (outer : Int) (cursor : Cursor) : Option (List Char × Cursor) := do
  let (chomping, digit, cursor) ← blockSigns? cursor
  let cursor := cursor.skipComment
  if !cursor.atEnd && !cursor.atBreak then none
  else
    let cursor := cursor.skipLine
    let given := if digit = 0 then 0 else (max outer 0).toNat + digit
    let (deepest, breaks, cursor) ← blockBreaks given (cursor.rest.length + 1) 0 [] cursor
    let indent := if given = 0 then max deepest (max (outer + 1) 1).toNat else given
    let (scalar, cursor) ←
      blockLines fold indent (cursor.rest.length + 1) ⟨[], [], breaks, false⟩ cursor
    let kept := if chomping = .strip then [] else scalar.last
    let further := if chomping = .keep then scalar.further else []
    some (scalar.text ++ kept ++ further, cursor)

end Regesta.Yaml
