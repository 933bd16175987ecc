import Regesta.CommandLine
import Regesta.Manifest.Validation
import Regesta.Watcher

namespace Regesta

structure Access (m : Type → Type) where
  readText : (path : String) → m (Except FileFault String)
  contents : (path : String) → m (Option Directory)
  now : m Moment

inductive Outcome where
  | finished (output : String)
  /-- Output, and then more whenever a look at the collection brings something new. The interval
  between two looks is in milliseconds. -/
  | watching (output : String) (interval : Nat) (watcher : Watcher)

def Mode.title : Mode → String
  | lenient => "Lenient"
  | strict => "Strict"

namespace Program

def versionText : String := "briefedition-mapper 0.1.0\n"

def usageText : String :=
  "Usage: briefedition-mapper [OPTIONS] <COMMAND>\n\n" ++
  "Commands:\n" ++
  "  validate                       Load the manifest and check its rules\n" ++
  "  list <ENTITY>                  Print all records of an entity type as JSON\n" ++
  "  show <ENTITY> <ID> [-f FORMAT] Print one entity: record, json or xml\n" ++
  "  watch [-i SECONDS]             Keep the collection loaded and report updates\n\n" ++
  "Options:\n" ++
  "  -m, --manifest <PATH>          Manifest file\n" ++
  "  -r, --root <PATH>              Directory containing the collection\n" ++
  "  -h, --help                     Print help\n" ++
  "  -V, --version                  Print version\n"

def entityLine (entity : Entity) : String :=
  "  " ++ entity.name ++ " " ++ entity.root.source ++ " (" ++
    toString entity.properties.length ++ " properties, id " ++ entity.idAttribute.render ++ ")\n"

def manifestText (path : String) (manifest : Manifest) : String :=
  "Manifest valid: " ++ path ++ "\n  Collection: " ++ manifest.collection ++ "\n  Mode: " ++
    manifest.mode.title ++ "\n" ++ String.join (manifest.entities.map entityLine)

def countText (service : Service) : String :=
  String.join <| service.manifest.entities.map fun entity =>
    "  " ++ entity.name ++ ": " ++ toString (service.snapshot.records entity.name).length ++
      " records\n"

def watchText (settings : Settings) : String :=
  "Watching " ++ settings.collectionRoot ++ " every " ++
    Settings.durationText settings.watchInterval ++ "\n"

def listText (service : Service) (entity : String) : Except Error String := do
  let records ← service.entities entity
  pure ((Value.list (records.map Record.toValue)).pretty ++ "\n")

def showText (service : Service) (entity id : String) (rendition : Rendition) :
    Except Error String := do
  match ← service.render? entity id rendition with
  | some text => pure (text ++ "\n")
  | none => .error (.notFound entity id)

variable {m : Type → Type} [Monad m]

def manifest (access : Access m) (settings : Settings) : m (Reported Manifest) := do
  let text ← access.readText settings.manifestPath
  return do
    let text ← Reported.ofExcept (text.mapError .file)
    Manifest.load text

def service (access : Access m) (settings : Settings) : m (Reported Service) := do
  let reported ← manifest access settings
  match reported.result with
  | .error error => return ⟨reported.warnings, .error error⟩
  | .ok manifest =>
    let collection := Collection.within settings.collectionRoot manifest.collection
    let now ← access.now
    let contents ← access.contents collection.directory
    return do
      let manifest ← reported
      Service.start manifest collection now contents

def run (access : Access m) (settings : Settings) : Command → m (Reported Outcome)
  | .validate => do
    let manifest ← manifest access settings
    return do
      let manifest ← manifest
      pure (.finished (manifestText settings.manifestPath manifest))
  | .list entity => do
    let service ← service access settings
    return do
      let service ← service
      let text ← Reported.ofExcept (listText service entity)
      pure (.finished text)
  | .show entity id form =>
    match Rendition.ofName form with
    | .error error => return .fail error
    | .ok rendition => do
      let service ← service access settings
      return do
        let service ← service
        let text ← Reported.ofExcept (showText service entity id rendition)
        pure (.finished text)
  | .watch _ => do
    let service ← service access settings
    return do
      let service ← service
      pure
        (.watching (watchText settings ++ countText service) settings.watchInterval
          (.start service))

def start (access : Access m) (environment : String → Option String) (invocation : Invocation) :
    m (Reported Outcome) :=
  match Settings.ofEnvironment environment with
  | .error error => return .fail error
  | .ok settings => run access (invocation.settings settings) invocation.command

def look (watcher : Watcher) (now : Moment) (contents : Option Directory) : Watcher × String :=
  let next := watcher.poll now contents
  let loadedAt := next.service.snapshot.loadedAt
  (next,
    if loadedAt = watcher.service.snapshot.loadedAt then "" else countText next.service)

end Program
end Regesta
