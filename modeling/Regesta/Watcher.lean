import Regesta.Service

/-!
Watchers look at a collection again and again, and refresh a service when files have changed. Each
look goes back to a little before the one before it, since a file system may give a file a time that
is earlier than the moment at which it was written.
-/
namespace Regesta

structure Watcher where
  service : Service
  /-- Files written after this moment are taken for changed. -/
  lastChecked : Moment

namespace Watcher

/-- How far a look goes back before the one before it, in nanoseconds. -/
def grace : Int := 2 * 1000000000

def start (service : Service) : Watcher := ⟨service, service.snapshot.loadedAt⟩

/-- One look. A look that fails changes nothing. -/
def poll (watcher : Watcher) (now : Moment) (contents : Option Directory) : Watcher :=
  match (watcher.service.refreshModified now watcher.lastChecked contents).result with
  | .error _ => watcher
  | .ok none => { watcher with lastChecked := now - grace }
  | .ok (some service) => ⟨service, now - grace⟩

end Watcher
end Regesta
