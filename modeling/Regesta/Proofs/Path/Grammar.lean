import Regesta.Path.Reader
import Regesta.Proofs.Text.Numeral
import Regesta.Proofs.Text.Trim

namespace Regesta

open Xml (ExpandedName)
open Text (Blanks)

namespace Namespaces

/-- What a label stands for: `xml` has its own namespace, others that of their declaration. -/
inductive Binds (namespaces : Namespaces) : List Char → String → Prop
  | reserved : Binds namespaces "xml".toList Xml.xmlUri
  | declared {label : List Char} {uri : String} :
    String.ofList label ≠ "xml" → namespaces.declared? (String.ofList label) = some uri →
    Binds namespaces label uri

def IsLocal (stem : List Char) : Prop := stem ≠ [] ∧ ∀ c ∈ stem, isForbidden c = false

inductive Spells (namespaces : Namespaces) : List Char → ExpandedName → Prop
  | plain {stem : List Char} :
    IsLocal stem → Spells namespaces stem ⟨none, String.ofList stem⟩
  | labelled {label stem : List Char} {uri : String} :
    label.head? ≠ some '{' → ':' ∉ label → Binds namespaces label uri → IsLocal stem →
    Spells namespaces (label ++ ':' :: stem) ⟨some uri, String.ofList stem⟩
  | braced {uri stem : List Char} :
    '}' ∉ uri → IsLocal stem →
    Spells namespaces ('{' :: uri ++ '}' :: stem) ⟨some (String.ofList uri), String.ofList stem⟩

end Namespaces

inductive NodeTest.Spells (namespaces : Namespaces) : List Char → NodeTest → Prop
  | element : Spells namespaces ['*'] .element
  | node : Spells namespaces "node()".toList .node
  | text : Spells namespaces "text()".toList .text
  | tag {name : List Char} :
    Path.isName name = true → Spells namespaces name (.tag (String.ofList name))
  | name {label stem : List Char} {uri : String} :
    Path.isName label = true → namespaces.Binds label uri → Path.isName stem = true →
    Spells namespaces (label ++ ':' :: stem) (.name uri (String.ofList stem))
  | within {label : List Char} {uri : String} :
    Path.isName label = true → namespaces.Binds label uri →
    Spells namespaces (label ++ [':', '*']) (.within uri)

namespace Predicate

def IsQuote (c : Char) : Prop := c = '\'' ∨ c = '"'

def IsBracket (c : Char) : Prop := c = '[' ∨ c = ']'

inductive Closed : List Char → Prop
  | nil : Closed []
  | plain {c : Char} {rest : List Char} :
    ¬ IsQuote c → ¬ IsBracket c → Closed rest → Closed (c :: rest)
  | quoted {q : Char} {inner rest : List Char} :
    IsQuote q → q ∉ inner → Closed rest → Closed (q :: inner ++ q :: rest)

structure SpellsAttribute (namespaces : Namespaces) (text : List Char) (name : ExpandedName) :
    Prop where
  free : ∀ c ∈ text, Path.endsAttributeName c = false
  spells : namespaces.Spells text name

inductive Spells (namespaces : Namespaces) : List Char → Predicate → Prop
  | position {digits : List Char} :
    digits ≠ [] → (∀ c ∈ digits, Text.IsDecimal c) → 1 ≤ Text.decimal digits →
    Text.decimal digits < 2 ^ 64 → Spells namespaces digits (.position (Text.decimal digits))
  | last : Spells namespaces "last()".toList .last
  | hasAttribute {text : List Char} {name : ExpandedName} :
    SpellsAttribute namespaces text name → Spells namespaces ('@' :: text) (.hasAttribute name)
  | attributeIs {text before after value : List Char} {name : ExpandedName} {q : Char} :
    SpellsAttribute namespaces text name → Blanks before → Blanks after → IsQuote q → q ∉ value →
    Spells namespaces ('@' :: text ++ before ++ '=' :: after ++ q :: value ++ [q])
      (.attributeIs name (String.ofList value))
  | hasChild {text : List Char} {test : NodeTest} :
    test.Spells namespaces text → Spells namespaces text (.hasChild test)

inductive SpellsAll (namespaces : Namespaces) : List Char → List Predicate → Prop
  | nil : SpellsAll namespaces [] []
  | cons {gap before body after rest : List Char} {predicate : Predicate}
    {others : List Predicate} :
    Blanks gap → Blanks before → predicate.Spells namespaces body → Blanks after →
    Closed (before ++ body ++ after) → SpellsAll namespaces rest others →
    SpellsAll namespaces (gap ++ '[' :: before ++ body ++ after ++ ']' :: rest)
      (predicate :: others)

end Predicate

namespace Step

/-- Steps. Where no axis is named, it is the child axis. -/
inductive Spells (namespaces : Namespaces) : List Char → Step → Prop
  | self : Spells namespaces ['.'] ⟨.self, .node, []⟩
  | parent : Spells namespaces ['.', '.'] ⟨.parent, .node, []⟩
  | child {front back : List Char} {test : NodeTest} {predicates : List Predicate} :
    test.Spells namespaces front → Predicate.SpellsAll namespaces back predicates →
    Spells namespaces (front ++ back) ⟨.child, test, predicates⟩
  | along {name before after front back : List Char} {axis : Axis} {test : NodeTest}
    {predicates : List Predicate} :
    Axis.ofName? (String.ofList name) = some axis → Blanks before → Blanks after →
    test.Spells namespaces front → Predicate.SpellsAll namespaces back predicates →
    Spells namespaces (name ++ before ++ ':' :: ':' :: after ++ front ++ back)
      ⟨axis, test, predicates⟩

/-- Steps with slashes between them. Nothing before a slash stands for going anywhere below. -/
inductive SpellsAll (namespaces : Namespaces) : List Char → List Step → Prop
  | last {before text after : List Char} {step : Step} :
    Blanks before → step.Spells namespaces text → Blanks after →
    SpellsAll namespaces (before ++ text ++ after) [step]
  | cons {before text after rest : List Char} {step : Step} {others : List Step} :
    Blanks before → step.Spells namespaces text → Blanks after → SpellsAll namespaces rest others →
    SpellsAll namespaces (before ++ text ++ after ++ '/' :: rest) (step :: others)
  | anywhere {gap rest : List Char} {others : List Step} :
    Blanks gap → SpellsAll namespaces rest others →
    SpellsAll namespaces (gap ++ '/' :: rest) (⟨.descendantOrSelf, .node, []⟩ :: others)

end Step

/-- Routes. A slash in front starts at the document; a dot alone is no step. -/
inductive Route.Spells (namespaces : Namespaces) : List Char → Route → Prop
  | here : Spells namespaces ['.'] .here
  | document : Spells namespaces ['/'] (.steps true [])
  | absolute {text : List Char} {steps : List Step} :
    Step.SpellsAll namespaces text steps → Spells namespaces ('/' :: text) (.steps true steps)
  | relative {text : List Char} {steps : List Step} :
    text ≠ ['.'] → text.head? ≠ some '/' → Step.SpellsAll namespaces text steps →
    Spells namespaces text (.steps false steps)

end Regesta
