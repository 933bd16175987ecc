import Regesta.Text.Split

namespace Regesta

inductive Value where
  | null
  | text (value : String)
  | list (items : List Value)
  | object (members : List (String × Value))
  deriving Inhabited

abbrev Members := List (String × Value)

namespace Members

def get? (members : Members) (name : String) : Option Value :=
  (members.find? fun member => member.1 == name).map Prod.snd

/-- Writes a value under a name: in place when the name is there, at the end otherwise. -/
def set (name : String) (value : Value) : Members → Members
  | [] => [(name, value)]
  | member :: rest =>
    if member.1 == name then (name, value) :: rest else member :: set name value rest

end Members

namespace Value

def ofText? : Option String → Value
  | none => null
  | some value => text value

def member? (name : String) : Value → Option Value
  | object members => Members.get? members name
  | _ => none

def follow? (value : Value) (names : List String) : Option Value :=
  names.foldlM (fun current name => current.member? name) value

/-- The member names that a dotted path lists; between two dots there may be nothing. -/
def pathNames (path : String) : List String :=
  (Text.splitEvery '.' path.toList).map String.ofList

def get? (value : Value) (path : String) : Option Value := value.follow? (pathNames path)

inductive Kind where
  | null
  | text
  | list
  | object
  deriving DecidableEq, Repr

def kind : Value → Kind
  | null => .null
  | text _ => .text
  | list _ => .list
  | object _ => .object

end Value
end Regesta
