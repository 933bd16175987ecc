import Regesta.Xml.Prolog

/-!
Entity references. References nest to a fixed depth, and below an outermost reference only so many
are followed, so that no document grows without bound. In attribute values the text of an entity
is read as text, in which `<` may stand as it is but not as a reference.
-/
namespace Regesta.Xml

def referenceDepth : Nat := 10

def referenceLimit : Nat := 255

/-- The count of references after one more is followed, with `remaining` levels left. -/
def countReference? (remaining count : Nat) : Option Nat :=
  if remaining = referenceDepth then some count
  else if referenceLimit ≤ count then none
  else some (count + 1)

/-- The count when a reference has been followed: an outermost one starts it anew. -/
def settleCount (remaining count : Nat) : Nat := if remaining = referenceDepth then 0 else count

/-- One literal character of an attribute value: blanks become spaces, and a carriage return
before a line feed is dropped. -/
def attributeChar (c : Char) (next : List Char) : List Char :=
  if c = '\r' && next.head? = some '\n' then []
  else if c = '\n' || c = '\r' || c = '\t' then [' ']
  else [c]

def attributeRun (entities : Entities) (inside : Bool)
    (expand : Nat → List Char → Option (List Char × Nat)) :
    Nat → Nat → List Char → Option (List Char × Nat)
  | 0, _, _ => none
  | _ + 1, count, [] => some ([], count)
  | fuel + 1, count, '&' :: rest => do
    let (reference, rest) ← reference? rest
    let (value, count) ←
      match reference with
      | .character c =>
        if inside then if c = '<' then none else some (attributeChar c [], count)
        else some ([c], count)
      | .entity name => do expand count (← entities.passage? name).text
    let (following, count) ← attributeRun entities inside expand fuel count rest
    some (value ++ following, count)
  | fuel + 1, count, c :: rest => do
    let (following, count) ← attributeRun entities inside expand fuel count rest
    some (attributeChar c rest ++ following, count)

def attributeText (entities : Entities) : Nat → Nat → List Char → Option (List Char × Nat)
  | 0, count, text =>
    attributeRun entities true (fun _ _ => none) (text.length + 1) count text
  | remaining + 1, count, text =>
    let expand := fun count value => do
      let count ← countReference? (remaining + 1) count
      let (value, count) ← attributeText entities remaining count value
      some (value, settleCount (remaining + 1) count)
    attributeRun entities (remaining + 1 ≠ referenceDepth) expand (text.length + 1) count text

end Regesta.Xml
