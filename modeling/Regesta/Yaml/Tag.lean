namespace Regesta.Yaml

structure Tag where
  octets : List UInt8
  deriving DecidableEq, Repr

namespace Tag

def ofText (text : String) : Tag := ⟨text.toUTF8.toList⟩

/-- The tag that a handle's tag and a suffix make. Each counts up to its first zero octet. -/
def joined (handle suffix : Tag) : Tag :=
  ⟨handle.octets.takeWhile (· ≠ 0) ++ suffix.octets.takeWhile (· ≠ 0)⟩

def standard (name : String) : Tag := ofText ("tag:yaml.org,2002:" ++ name)

def isLocal (tag : Tag) : Bool := tag.octets.head? = some 0x21

/-- The name in a local tag; without a name the sign counts as one. -/
def name? (tag : Tag) : Option String :=
  if tag.isLocal then
    let name := tag.octets.drop 1
    String.fromUTF8? ⟨(if name.isEmpty then tag.octets else name).toArray⟩
  else none

def isOwn (tag : Tag) : Bool := tag.name?.isSome

end Tag
end Regesta.Yaml
