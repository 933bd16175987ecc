import Regesta.Rendition
import Regesta.Snapshot
import Regesta.Text.Quoted
import Regesta.Value.Json
import Regesta.Xml.Data

namespace Regesta

open Xml (Document Place)

structure Service where
  manifest : Manifest
  collection : Collection
  snapshot : Snapshot

namespace Service

def headerTag : String := "teiHeader"

def start (manifest : Manifest) (collection : Collection) (now : Moment)
    (contents : Option Directory) : Reported Service := do
  let snapshot ← Snapshot.load manifest collection now contents
  pure ⟨manifest, collection, snapshot⟩

def entities (service : Service) (entity : String) : Except Error (List Record) := do
  let _ ← service.manifest.entity entity
  pure (service.snapshot.records entity)

def get? (service : Service) (entity id : String) : Except Error (Option Record) := do
  let _ ← service.manifest.entity entity
  pure ((service.snapshot.find? entity id).map Finding.record)

/-- What an entity is as data: its header, when it has one, and the whole of it otherwise. -/
def dataText (place : Place) : String := ((place.find? headerTag).getD place).toValue.pretty

def placeOf? (entity : Entity) (id : String) (document : Document) : Option Place :=
  (entity.places document).find? fun place => entity.id? place == some id

def sourceText (name id : String) (place : Place) : Except Error (Option String) :=
  match place.source? with
  | some source => .ok (some source)
  | none => .error (.invertedSource name id)

def renderSource (entity : Entity) (id : String) (resource : Resource)
    (form : Place → Except Error (Option String)) : Except Error (Option String) := do
  let document ← resource.document
  match placeOf? entity id document with
  | none => pure none
  | some place => form place

def render? (service : Service) (entity id : String) (rendition : Rendition) :
    Except Error (Option String) := do
  let descriptor ← service.manifest.entity entity
  match service.snapshot.find? entity id with
  | none => pure none
  | some finding =>
    match rendition with
    | .record => pure (some finding.record.toValue.pretty)
    | .xml => renderSource descriptor id finding.resource (sourceText descriptor.name id)
    | .json => renderSource descriptor id finding.resource fun place => pure (some (dataText place))

def refresh (service : Service) (now : Moment) (contents : Option Directory) : Reported Service :=
  start service.manifest service.collection now contents

def isStale (service : Service) (since : Moment) (contents : Option Directory) :
    Except Error Bool := do
  let modified ← service.collection.modifiedSince contents since
  let listing ← service.collection.list contents
  pure (!modified.isEmpty || listing != service.snapshot.listing)

/-- The service with a new snapshot if there is reason for one; and nothing otherwise. -/
def refreshModified (service : Service) (now since : Moment) (contents : Option Directory) :
    Reported (Option Service) := do
  let stale ← Reported.ofExcept (service.isStale since contents)
  if stale then
    let service ← service.refresh now contents
    pure (some service)
  else pure none

def summary (service : Service) : String :=
  "Service \x7b collection: " ++ Text.quoted service.manifest.collection ++ ", .. \x7d"

end Service
end Regesta
