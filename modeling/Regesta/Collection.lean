import Regesta.Files
import Regesta.Path.Selection
import Regesta.Warning
import Regesta.Xml.Reader

namespace Regesta

structure Resource where
  id : String
  source : String

namespace Resource

/-- The document is read anew whenever it is asked for. -/
def document (resource : Resource) : Except Error Xml.Document :=
  match Xml.Document.read? resource.source with
  | none => .error (.illFormedResource resource.id)
  | some document => .ok document

def ofFile (id : String) (file : File) : Except Warning Resource :=
  match file.text? with
  | none => .error .unreadableDocument
  | some source =>
    match (Resource.mk id source).document with
    | .error _ => .error .illFormedDocument
    | .ok _ => .ok ⟨id, source⟩

def holds (resource : Resource) (path : Path) : Bool :=
  match resource.document with
  | .error _ => false
  | .ok document => !(path.select document.root).isEmpty

end Resource

structure Collection where
  directory : String
  deriving DecidableEq, Repr

namespace Collection

def joined (directory inner : String) : String :=
  if directory.isEmpty || directory.toList.getLast? == some '/' then directory ++ inner
  else directory ++ "/" ++ inner

/-- The collection with a name. Slashes in front of the name have no meaning. -/
def within (root name : String) : Collection :=
  ⟨joined root (String.ofList (name.toList.dropWhile fun c => c = '/'))⟩

/-- Whether a file name ends in `.xml`, in either case, with something in front. -/
def isXmlName (name : String) : Bool :=
  match Text.splitLast '.' name.toList with
  | none => false
  | some (stem, extension) => !stem.isEmpty && extension.map Char.toLower == ['x', 'm', 'l']

def isXmlFile (names : List String) : Bool := names.getLast?.any isXmlName

/-- Whether one name comes before another: at the first character in which they differ, or because
it ends first. -/
def nameBefore (a b : String) : Bool :=
  a.toList.lex b.toList fun c d => decide (c.toNat < d.toNat)

def namesBefore (a b : List String) : Bool := a.lex b nameBefore

def xmlFiles (contents : Directory) : List (List String × File) :=
  ((filesOf contents).filter fun file => isXmlFile file.1).mergeSort fun a b =>
    !namesBefore b.1 a.1

def identifier (names : List String) : String := "/".intercalate names

def files (collection : Collection) (contents : Option Directory) :
    Except Error (List (String × File)) :=
  match contents with
  | none => .error (.missingCollection collection.directory)
  | some contents => .ok ((xmlFiles contents).map fun (names, file) => (identifier names, file))

def list (collection : Collection) (contents : Option Directory) : Except Error (List String) :=
  (collection.files contents).map fun files => files.map Prod.fst

def modifiedSince (collection : Collection) (contents : Option Directory) (since : Moment) :
    Except Error (List String) :=
  (collection.files contents).map fun files =>
    (files.filter fun file => since < file.2.modified).map Prod.fst

def complaint? (file : String × File) : Option Warning :=
  match Resource.ofFile file.1 file.2 with
  | .error warning => some warning
  | .ok _ => none

def resource? (file : String × File) : Option Resource :=
  match Resource.ofFile file.1 file.2 with
  | .error _ => none
  | .ok resource => some resource

/-- The documents of a collection in which a path selects something. Files that hold no document
are told of. -/
def retrieve (collection : Collection) (contents : Option Directory) (path : Path) :
    Reported (List Resource) :=
  match collection.files contents with
  | .error error => .fail error
  | .ok files =>
    ⟨files.filterMap complaint?,
      .ok ((files.filterMap resource?).filter fun resource => resource.holds path)⟩

end Collection
end Regesta
