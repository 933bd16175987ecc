import Regesta.Error
import Regesta.Text.Blank

namespace Regesta

inductive Rendition where
  | record
  | xml
  | json
  deriving DecidableEq, Repr, Inhabited

namespace Rendition

def name : Rendition → String
  | record => "record"
  | xml => "xml"
  | json => "json"

def standard : Rendition := record

def ofName (text : String) : Except Error Rendition :=
  match String.ofList ((Text.trim text.toList).map Char.toLower) with
  | "record" => .ok record
  | "xml" => .ok xml
  | "json" => .ok json
  | _ => .error (.unsupportedFormat text)

end Rendition
end Regesta
