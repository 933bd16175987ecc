import Regesta.Error
import Regesta.Text.Split

namespace Regesta

/-- A point in time, in nanoseconds since the beginning of 1970. -/
abbrev Moment := Int

structure File where
  bytes : ByteArray
  modified : Moment
  deriving Inhabited

def File.text? (file : File) : Option String := String.fromUTF8? file.bytes

inductive Entry where
  | file (file : File)
  | directory (entries : List (String × Entry))
  deriving Inhabited

/-- The entries of a directory in the order in which they are enumerated, which means nothing. -/
abbrev Directory := List (String × Entry)

mutual
def Entry.files : Entry → List (List String × File)
  | .file file => [([], file)]
  | .directory entries => filesOf entries

def filesOf : List (String × Entry) → List (List String × File)
  | [] => []
  | (name, entry) :: rest =>
    entry.files.map (fun (names, file) => (name :: names, file)) ++ filesOf rest
end

namespace Directory

def find? (directory : Directory) (name : String) : Option Entry :=
  (List.find? (fun entry => entry.1 == name) directory).map Prod.snd

/-- Puts an entry under a name, in place of the one that has it, or takes that one away. -/
def put (directory : Directory) (name : String) (entry : Option Entry) : Directory :=
  List.filter (fun entry => entry.1 != name) directory ++
    (entry.map fun entry => (name, entry)).toList

def maximalName : Nat := 255

def maximalPath : Nat := 4095

/-- Where a walk stands: at an entry, inside of directories of which the nearest comes first. -/
structure Position where
  around : List Directory
  here : Entry

def Position.outside : Position := ⟨[], .directory []⟩

/-- Goes on to a name. The directory above the outermost one is not known to hold anything. -/
def Position.step (position : Position) (name : String) : Except FileFault Position :=
  match position.here with
  | .file _ => .error .notDirectory
  | .directory entries =>
    if name = "" ∨ name = "." then .ok position
    else if name = ".." then
      match position.around with
      | [] => .ok .outside
      | outer :: rest => .ok ⟨rest, .directory outer⟩
    else if maximalName < name.utf8ByteSize then .error .nameTooLong
    else
      match Directory.find? entries name with
      | none => .error .missing
      | some entry => .ok ⟨entries :: position.around, entry⟩

def names (path : String) : List String := (Text.splitEvery '/' path.toList).map String.ofList

def lookup (directory : Directory) (path : String) : Except FileFault Entry :=
  if path.isEmpty then .error .missing
  else if maximalPath < path.utf8ByteSize then .error .nameTooLong
  else
    let start : Position :=
      if path.toList.head? = some '/' then .outside else ⟨[], .directory directory⟩
    ((names path).foldlM Position.step start).map Position.here

def at? (directory : Directory) (path : String) : Option Directory :=
  match directory.lookup path with
  | .ok (.directory entries) => some entries
  | _ => none

def readText (directory : Directory) (path : String) : Except FileFault String :=
  match directory.lookup path with
  | .error fault => .error fault
  | .ok (.directory _) => .error .isDirectory
  | .ok (.file file) =>
    match file.text? with
    | none => .error .notText
    | some text => .ok text

/-- The names that lead to the end of a path from the top, detours left out. -/
def direct (path : String) : List String :=
  ((names path).foldl
    (fun before name =>
      if name = "" ∨ name = "." then before
      else if name = ".." then before.tail
      else name :: before)
    []).reverse

/-- Changes what some names lead to; the directories on the way are made. -/
def update (change : Option Entry → Except FileFault (Option Entry)) :
    List String → Directory → Except FileFault Directory
  | [], _ => .error .isDirectory
  | [name], directory => (change (directory.find? name)).map (directory.put name)
  | name :: rest, directory =>
    match directory.find? name with
    | some (.file _) => .error .notDirectory
    | some (.directory inner) =>
      (update change rest inner).map fun inner => directory.put name (some (.directory inner))
    | none =>
      (update change rest []).map fun inner => directory.put name (some (.directory inner))

def write (directory : Directory) (path : String) (file : File) : Except FileFault Directory :=
  update
    (fun present =>
      match present with
      | some (.directory _) => .error .isDirectory
      | _ => .ok (some (.file file)))
    (direct path) directory

def makeDirectory (directory : Directory) (path : String) : Except FileFault Directory :=
  update
    (fun present =>
      match present with
      | some (.file _) => .error .notDirectory
      | some (.directory entries) => .ok (some (.directory entries))
      | none => .ok (some (.directory [])))
    (direct path) directory

def remove (directory : Directory) (path : String) : Except FileFault Directory :=
  update
    (fun present =>
      match present with
      | none => .error .missing
      | some _ => .ok none)
    (direct path) directory

end Directory
end Regesta
