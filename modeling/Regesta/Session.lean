import Regesta.Service

namespace Regesta

inductive Change where
  | write (path : String) (file : File)
  | makeDirectory (path : String)
  | remove (path : String)

def Change.apply (change : Change) (files : Directory) : Except FileFault Directory :=
  match change with
  | write path file => files.write path file
  | makeDirectory path => files.makeDirectory path
  | remove path => files.remove path

structure Session where
  manifest : Manifest
  collection : Collection
  files : Directory
  service : Option Service
  /-- Whether the snapshot was replaced since somebody asked. -/
  swapped : Bool

inductive Action where
  | change (change : Change)
  | start
  | refresh
  | refreshModified (since : Moment)
  | watched (change : Change)
  | askSwapped

inductive Answer where
  | done
  | flag (value : Bool)
  deriving DecidableEq, Repr

structure Performed where
  session : Session
  warnings : List Warning
  answer : Except Error Answer

namespace Session

def contents (session : Session) : Option Directory :=
  session.files.at? session.collection.directory

def unchanged (session : Session) (warnings : List Warning) (answer : Except Error Answer) :
    Performed :=
  ⟨session, warnings, answer⟩

def adopt (session : Session) (swapped : Bool) (answer : Answer) (work : Reported Service) :
    Performed :=
  match work.result with
  | .error error => session.unchanged work.warnings (.error error)
  | .ok service =>
    ⟨{ session with service := some service, swapped := swapped }, work.warnings, .ok answer⟩

def change (session : Session) (change : Change) : Performed :=
  match change.apply session.files with
  | .error fault => session.unchanged [] (.error (.file fault))
  | .ok files => ⟨{ session with files := files }, [], .ok .done⟩

def start (session : Session) (now : Moment) : Performed :=
  session.adopt false .done
    (Service.start session.manifest session.collection now session.contents)

def refresh (session : Session) (service : Service) (now : Moment) (answer : Answer) :
    Performed :=
  session.adopt true answer (service.refresh now session.contents)

def refreshModified (session : Session) (service : Service) (now since : Moment) : Performed :=
  let work := service.refreshModified now since session.contents
  match work.result with
  | .error error => session.unchanged work.warnings (.error error)
  | .ok none => session.unchanged work.warnings (.ok (.flag false))
  | .ok (some service) =>
    ⟨{ session with service := some service, swapped := true }, work.warnings,
      .ok (.flag true)⟩

def watched (session : Session) (service : Service) (now : Moment) (change : Change) :
    Performed :=
  match (session.change change).answer with
  | .error error => session.unchanged [] (.error error)
  | .ok _ =>
    let refreshed := (session.change change).session.refresh service now (.flag true)
    { refreshed with warnings := [] }

/-- Carries out an action; none when it needs a service and there is none. -/
def perform (session : Session) (now : Moment) : Action → Option Performed
  | .change change => some (session.change change)
  | .start => some (session.start now)
  | .refresh => session.service.map fun service => session.refresh service now .done
  | .refreshModified since =>
    session.service.map fun service => session.refreshModified service now since
  | .watched change => session.service.map fun service => session.watched service now change
  | .askSwapped =>
    session.service.map fun _ =>
      ⟨{ session with swapped := false }, [], .ok (.flag session.swapped)⟩

end Session
end Regesta
