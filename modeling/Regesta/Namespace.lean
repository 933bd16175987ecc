import Regesta.Error
import Regesta.Text.Blank
import Regesta.Text.Split
import Regesta.Xml.Node

/-!
Namespaces by label, and the names of attributes as manifests write them: plain (`id`), with a label
(`xml:id`), or with the namespace itself in braces.
-/
namespace Regesta

open Xml (ExpandedName)

abbrev Namespaces := List (String × String)

namespace Namespaces

def declared? (namespaces : Namespaces) (label : String) : Option String :=
  (namespaces.find? fun binding => binding.1 == label).map Prod.snd

/-- The namespace of a label; `xml` always has its own. -/
def resolve (namespaces : Namespaces) (label : String) : Except Error String :=
  if label = "xml" then .ok Xml.xmlUri
  else
    match namespaces.declared? label with
    | some uri => .ok uri
    | none => .error (.unboundLabel label)

def isForbidden (c : Char) : Bool := c = '{' || c = '}' || c = ':' || c = '/' || c = ' '

/-- A name from its parts; `whole` is what the manifest has. -/
def checkedName (uri : Option String) (stem whole : List Char) : Except Error ExpandedName :=
  if stem.isEmpty || stem.any isForbidden then .error (.invalidPath (String.ofList whole) .notAName)
  else .ok ⟨uri, String.ofList stem⟩

def trimmedName (namespaces : Namespaces) (name : List Char) : Except Error ExpandedName :=
  match name with
  | '{' :: rest =>
    match Text.splitFirst ['}'] rest with
    | none => .error (.invalidPath (String.ofList name) .openBrace)
    | some (uri, stem) => checkedName (some (String.ofList uri)) stem name
  | _ =>
    match Text.splitFirst [':'] name with
    | none => checkedName none name name
    | some (label, stem) => do
      let uri ← namespaces.resolve (String.ofList label)
      checkedName (some uri) stem name

def name (namespaces : Namespaces) (text : String) : Except Error ExpandedName :=
  namespaces.trimmedName (Text.trim text.toList)

end Namespaces
end Regesta
