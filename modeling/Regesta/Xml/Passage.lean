/-!
Passages of a document. A passage knows what stands after it in its document, so that the text
between two of them can be told even where one is in an entity that is declared far from the other.
-/
namespace Regesta.Xml

/-- A part of a document, and what stands in the document after it. -/
structure Passage where
  text : List Char
  following : List Char

namespace Passage

def left (passage : Passage) : Nat := passage.text.length + passage.following.length

/-- The document from the start of one passage to that of another, which must not come first. -/
def until? (passage other : Passage) : Option (List Char) :=
  if passage.left < other.left then none
  else
    let length := passage.left - other.left
    some (passage.text.take length ++ passage.following.take (length - passage.text.length))

end Passage

end Regesta.Xml
