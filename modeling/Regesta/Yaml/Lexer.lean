import Regesta.Yaml.Property
import Regesta.Yaml.Scalar

/-!
Cutting a YAML text into tokens. Whether a node is a key is only known at the colon after it, so the
place of every node that may yet turn out to be one is remembered; a key stands on one line and is
at most 1024 octets long.
-/
namespace Regesta.Yaml

structure PossibleKey where
  offset : Nat
  line : Nat
  column : Nat
  token : Nat
  required : Bool

def keyLength : Nat := 1024

structure Lexer where
  cursor : Cursor
  tokens : List Token
  count : Nat
  flow : Nat
  /-- The column of the innermost block collection, and those of the ones around it. -/
  indent : Int
  indents : List Int
  keyAllowed : Bool
  /-- The possible key at each depth of brackets, innermost first. -/
  keys : List (Option PossibleKey)

namespace Lexer

def start (text : List Char) : Lexer := ⟨.start text, [], 0, 0, -1, [], true, [none]⟩

def inFlow (lexer : Lexer) : Bool := lexer.flow ≠ 0

def emit (lexer : Lexer) (token : Token) : Lexer :=
  { lexer with tokens := token :: lexer.tokens, count := lexer.count + 1 }

def insert (lexer : Lexer) (before : Nat) (token : Token) : Lexer :=
  let later := lexer.count - before
  let tokens := lexer.tokens.take later ++ token :: lexer.tokens.drop later
  { lexer with tokens, count := lexer.count + 1 }

def indentTo (lexer : Lexer) (column before : Nat) (token : Token) : Lexer :=
  if lexer.inFlow || column ≤ lexer.indent then lexer
  else
    { lexer.insert before token with indent := column, indents := lexer.indent :: lexer.indents }

def outdent (column : Int) : List Int → Lexer → Lexer
  | [], lexer => lexer
  | outer :: indents, lexer =>
    if column < lexer.indent then
      outdent column indents { lexer.emit .blockEnd with indent := outer, indents }
    else lexer

def outdentTo (lexer : Lexer) (column : Int) : Lexer :=
  if lexer.inFlow then lexer else outdent column lexer.indents lexer

/-- The possible key when it is still one; nothing when it is not but should be. -/
def freshKey? (cursor : Cursor) (key : Option PossibleKey) : Option (Option PossibleKey) :=
  match key with
  | none => some none
  | some key =>
    if key.line < cursor.line || key.offset + keyLength < cursor.offset then
      if key.required then none else some none
    else some (some key)

def dropStale? (lexer : Lexer) : Option Lexer := do
  let keys ← lexer.keys.mapM (freshKey? lexer.cursor)
  some { lexer with keys }

def dropKey? (lexer : Lexer) : Option Lexer :=
  match lexer.keys with
  | some key :: others => if key.required then none else some { lexer with keys := none :: others }
  | _ => some lexer

def saveKey? (lexer : Lexer) : Option Lexer :=
  if lexer.keyAllowed then do
    let cursor := lexer.cursor
    let required := !lexer.inFlow && lexer.indent = cursor.column
    let lexer ← lexer.dropKey?
    let key : PossibleKey := ⟨cursor.offset, cursor.line, cursor.column, lexer.count, required⟩
    some { lexer with keys := some key :: lexer.keys.tail }
  else some lexer

def take (lexer : Lexer) (length : Nat) (token : Token) : Lexer :=
  { lexer.emit token with cursor := lexer.cursor.skip length }

def toToken : Nat → Lexer → Lexer
  | 0, lexer => lexer
  | fuel + 1, lexer =>
    let cursor := lexer.cursor
    let cursor := if cursor.column = 0 && cursor.sees '\uFEFF' then cursor.skip 1 else cursor
    let tabs := lexer.inFlow || !lexer.keyAllowed
    let cursor := (cursor.readWhile fun c => c = ' ' || (tabs && c = '\t')).2
    let cursor := if cursor.sees '#' then cursor.skipToBreak else cursor
    if cursor.atBreak then
      toToken fuel
        { lexer with cursor := cursor.skipLine, keyAllowed := lexer.keyAllowed || !lexer.inFlow }
    else { lexer with cursor }

def takeEnd? (lexer : Lexer) : Option Lexer := do
  let lexer ← (lexer.outdentTo (-1)).dropKey?
  some ({ lexer with keyAllowed := false }.emit .streamEnd)

def takeDirective? (lexer : Lexer) : Option Lexer := do
  let lexer ← (lexer.outdentTo (-1)).dropKey?
  let (token, cursor) ← directive? lexer.cursor
  some { lexer.emit token with keyAllowed := false, cursor }

def takeMarker? (lexer : Lexer) (token : Token) : Option Lexer := do
  let lexer ← (lexer.outdentTo (-1)).dropKey?
  some { lexer.take 3 token with keyAllowed := false }

def takeOpening? (lexer : Lexer) (token : Token) : Option Lexer := do
  let lexer ← lexer.saveKey?
  some
    { lexer.take 1 token with
      keyAllowed := true, keys := none :: lexer.keys, flow := lexer.flow + 1 }

def takeClosing? (lexer : Lexer) (token : Token) : Option Lexer := do
  let lexer ← lexer.dropKey?
  let keys := if lexer.inFlow then lexer.keys.tail else lexer.keys
  some { lexer.take 1 token with keyAllowed := false, keys, flow := lexer.flow - 1 }

def takeComma? (lexer : Lexer) : Option Lexer := do
  let lexer ← lexer.dropKey?
  some { lexer.take 1 .comma with keyAllowed := true }

def takeEntry? (lexer : Lexer) : Option Lexer := do
  if !lexer.inFlow && !lexer.keyAllowed then none
  else
    let lexer := lexer.indentTo lexer.cursor.column lexer.count .blockSequence
    let lexer ← lexer.dropKey?
    some { lexer.take 1 .entry with keyAllowed := true }

def takeKey? (lexer : Lexer) : Option Lexer := do
  if !lexer.inFlow && !lexer.keyAllowed then none
  else
    let lexer := lexer.indentTo lexer.cursor.column lexer.count .blockMapping
    let lexer ← lexer.dropKey?
    some { lexer.take 1 .key with keyAllowed := !lexer.inFlow }

def takeValue? (lexer : Lexer) : Option Lexer :=
  match lexer.keys with
  | some key :: keys =>
    let lexer := lexer.insert key.token .key
    let lexer := lexer.indentTo key.column key.token .blockMapping
    some { lexer.take 1 .value with keyAllowed := false, keys := none :: keys }
  | _ =>
    if !lexer.inFlow && !lexer.keyAllowed then none
    else
      let lexer := lexer.indentTo lexer.cursor.column lexer.count .blockMapping
      some { lexer.take 1 .value with keyAllowed := !lexer.inFlow }

def takeAnchor? (lexer : Lexer) (token : List Char → Token) : Option Lexer := do
  let lexer ← lexer.saveKey?
  let (name, cursor) ← anchorName? (lexer.cursor.skip 1)
  some { lexer.emit (token name) with keyAllowed := false, cursor }

def takeTag? (lexer : Lexer) : Option Lexer := do
  let lexer ← lexer.saveKey?
  let (token, cursor) ← tag? lexer.inFlow lexer.cursor
  some { lexer.emit token with keyAllowed := false, cursor }

def takeBlock? (lexer : Lexer) (style : Style) : Option Lexer := do
  let lexer ← lexer.dropKey?
  let (text, cursor) ← blockScalar (style = .folded) lexer.indent (lexer.cursor.skip 1)
  some { lexer.emit (.scalar style text) with keyAllowed := true, cursor }

def takeQuoted? (lexer : Lexer) (quote : Char) : Option Lexer := do
  let lexer ← lexer.saveKey?
  let cursor := lexer.cursor.skip 1
  let (text, cursor) ← quotedScalar quote (cursor.rest.length + 1) [] cursor
  some { lexer.emit (.scalar .quoted text.reverse) with keyAllowed := false, cursor }

def takePlain? (lexer : Lexer) : Option Lexer := do
  let lexer ← lexer.saveKey?
  let cursor := lexer.cursor
  let (scalar, cursor) ←
    plainScalar lexer.inFlow (lexer.indent + 1).toNat (cursor.rest.length + 1) ⟨[], .none⟩ cursor
  some
    { lexer.emit (.scalar .plain scalar.text.reverse) with
      keyAllowed := scalar.gap.broken, cursor }

def isSign (c : Char) : Bool :=
  "-?:,[]{}#&*!|>'\"%@".toList.contains c || c.toNat = 0x60

/-- Whether a plain scalar starts here: not with a sign, except for one with text close behind. -/
def startsPlain (lexer : Lexer) (c : Char) : Bool :=
  let cursor := lexer.cursor
  (!cursor.closesAt 0 && !isSign c) ||
    (c = '-' && !cursor.satisfies 1 isBlank) ||
    (!lexer.inFlow && (c = '?' || c = ':') && !cursor.closesAt 1)

def takeToken? (lexer : Lexer) : Option Lexer :=
  let cursor := lexer.cursor
  match cursor.head? with
  | none => lexer.takeEnd?
  | some c =>
    if cursor.column = 0 && c = '%' then lexer.takeDirective?
    else if cursor.atMarker '-' then lexer.takeMarker? .documentStart
    else if cursor.atMarker '.' then lexer.takeMarker? .documentEnd
    else if c = '[' then lexer.takeOpening? .flowSequence
    else if c = '{' then lexer.takeOpening? .flowMapping
    else if c = ']' then lexer.takeClosing? .flowSequenceEnd
    else if c = '}' then lexer.takeClosing? .flowMappingEnd
    else if c = ',' then lexer.takeComma?
    else if c = '-' && cursor.closesAt 1 then lexer.takeEntry?
    else if c = '?' && (lexer.inFlow || cursor.closesAt 1) then lexer.takeKey?
    else if c = ':' && (lexer.inFlow || cursor.closesAt 1) then lexer.takeValue?
    else if c = '*' then lexer.takeAnchor? .alias
    else if c = '&' then lexer.takeAnchor? .anchor
    else if c = '!' then lexer.takeTag?
    else if c = '|' && !lexer.inFlow then lexer.takeBlock? .literal
    else if c = '>' && !lexer.inFlow then lexer.takeBlock? .folded
    else if c = '\'' || c = '"' then lexer.takeQuoted? c
    else if lexer.startsPlain c then lexer.takePlain?
    else none

def next? (lexer : Lexer) : Option Lexer := do
  let lexer ← (toToken (lexer.cursor.rest.length + 1) lexer).dropStale?
  (lexer.outdentTo lexer.cursor.column).takeToken?

/-- The tokens that are certain: all before the first possible key. -/
def certain (lexer : Lexer) : Tokens :=
  let count := lexer.keys.foldl (fun n key => (key.map (min n ·.token)).getD n) lexer.count
  lexer.tokens.reverse.take count

/-- How many octets behind a token are looked at. -/
def lookahead : Nat := 4

/-- The tokens from here to the end of the text, or to where it breaks off. Only `limit` octets of
the text can be looked at. -/
def run (limit : Nat) : Nat → Lexer → Tokens
  | 0, lexer => lexer.certain
  | fuel + 1, lexer =>
    match lexer.dropStale? with
    | none => lexer.certain
    | some lexer =>
      match lexer.next? with
      | none => lexer.certain
      | some next =>
        if limit < next.cursor.offset + lookahead then lexer.certain
        else if next.tokens.head? = some .streamEnd then next.tokens.reverse
        else run limit fuel next

end Lexer

def blockLength : Nat := 16384

/-- How many octets come before the block with the first character that is not allowed, if there is
one. Before the characters that are left, `offset` octets have been read, and `filled` of them are
in the block that is being read; a block holds whole characters. -/
def readableLength? : Nat → Nat → List Char → Option Nat
  | _, _, [] => none
  | offset, filled, c :: rest =>
    let filled := if blockLength < filled + c.utf8Size then 0 else filled
    if isPrintable c then readableLength? (offset + c.utf8Size) (filled + c.utf8Size) rest
    else some (offset - filled)

def tokens (text : String) : Tokens :=
  let text := text.toList
  let limit := (readableLength? 0 0 text).getD (encodedLength text + Lexer.lookahead)
  Lexer.run limit (text.length + 1) (.start text)

end Regesta.Yaml
