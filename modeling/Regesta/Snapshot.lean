import Regesta.Collection
import Regesta.Record

namespace Regesta

structure Finding where
  record : Record
  resource : Resource

structure Holdings where
  /-- By identifier, the latest first. -/
  resources : List (String × Resource)
  records : List Record

namespace Holdings

def empty : Holdings := ⟨[], []⟩

/-- Adds a document with its records. Another document of the same identifier gives way to it. -/
def add (holdings : Holdings) (resource : Resource) (records : List Record) : Holdings :=
  ⟨(resource.id, resource) :: holdings.resources, holdings.records ++ records⟩

def addAll (mode : Mode) (entity : Entity) (holdings : Holdings) :
    List Resource → Reported Holdings
  | [] => pure holdings
  | resource :: rest =>
    match resource.document with
    | .error _ => do
      Reported.warn .illFormedDocument
      addAll mode entity holdings rest
    | .ok document => do
      let (warnings, records) := entity.records mode document
      Reported.warnAll warnings
      let named := records.map fun record => { record with resource := some resource.id }
      addAll mode entity (holdings.add resource named) rest

def find? (holdings : Holdings) (id : String) : Option Finding := do
  let record ← holdings.records.find? fun record => record.isAddressable && record.id == id
  let name ← record.resource
  let resource ← holdings.resources.lookup name
  some ⟨record, resource⟩

end Holdings

structure Snapshot where
  holdings : List (String × Holdings)
  listing : List String
  loadedAt : Moment

namespace Snapshot

def gather (collection : Collection) (mode : Mode) (contents : Option Directory)
    (entity : Entity) : Reported Holdings := do
  let resources ← collection.retrieve contents entity.root
  Holdings.empty.addAll mode entity resources

/-- Loads a snapshot while files may change. The collection is looked at once for each entity type
and then once more for its listing; `contents n` is what its directory holds at the look with number
`n`. -/
def loadDuring (manifest : Manifest) (collection : Collection) (loadedAt : Moment)
    (contents : Nat → Option Directory) : Reported Snapshot := do
  let holdings ←
    Reported.forEach manifest.entities.zipIdx fun (entity, look) => do
      let found ← gather collection manifest.mode (contents look) entity
      pure (entity.name, found)
  let listing ← Reported.ofExcept (collection.list (contents manifest.entities.length))
  pure ⟨holdings, listing, loadedAt⟩

def load (manifest : Manifest) (collection : Collection) (loadedAt : Moment)
    (contents : Option Directory) : Reported Snapshot :=
  loadDuring manifest collection loadedAt fun _ => contents

def holdings? (snapshot : Snapshot) (entity : String) : Option Holdings :=
  snapshot.holdings.lookup entity

def records (snapshot : Snapshot) (entity : String) : List Record :=
  ((snapshot.holdings? entity).map Holdings.records).getD []

def find? (snapshot : Snapshot) (entity id : String) : Option Finding :=
  (snapshot.holdings? entity).bind fun holdings => holdings.find? id

end Snapshot
end Regesta
