import Regesta.Proofs.Service.Refresh

namespace Regesta

inductive Query where
  | entities (entity : String)
  | get (entity id : String)
  | render (entity id : String) (rendition : Rendition)

inductive Reply where
  | records (answer : Except Error (List Record))
  | record (answer : Except Error (Option Record))
  | text (answer : Except Error (Option String))

namespace Service

def reply (service : Service) : Query → Reply
  | .entities entity => .records (service.entities entity)
  | .get entity id => .record (service.get? entity id)
  | .render entity id rendition => .text (service.render? entity id rendition)

theorem AnswersAs.reply {a b : Service} (same : a.AnswersAs b) (query : Query) :
    a.reply query = b.reply query := by
  cases query with
  | entities entity => exact congrArg Reply.records (same.entities entity)
  | get entity id => exact congrArg Reply.record (same.get entity id)
  | render entity id rendition => exact congrArg Reply.text (same.render entity id rendition)

theorem start_again {manifest : Manifest} {collection : Collection} {opened : Moment}
    {contents : Option Directory} {service : Service}
    (started : (start manifest collection opened contents).result = .ok service) (now : Moment) :
    ∃ fresh, (start manifest collection now contents).result = .ok fresh ∧
      service.AnswersAs fresh := by
  obtain ⟨tree, rfl⟩ := start_some started
  obtain ⟨sameManifest, _, loaded⟩ := start_ok_iff.mp started
  obtain ⟨fresh, restarted⟩ := start_total manifest collection now tree
  obtain ⟨freshManifest, _, reloaded⟩ := start_ok_iff.mp restarted
  rw [Snapshot.load_result, Except.ok.injEq] at loaded reloaded
  refine ⟨fresh, restarted, answersAs_of_holdings (sameManifest.trans freshManifest.symm) ?_⟩
  rw [← loaded, ← reloaded]

end Service

namespace Action

def Replaces (action : Action) : Except Error Answer → Prop
  | .error _ => False
  | .ok answer =>
    match action with
    | .start | .refresh | .watched _ => True
    | .refreshModified _ => answer = .flag true
    | .change _ | .askSwapped => False

instance (action : Action) (answer : Except Error Answer) : Decidable (action.Replaces answer) :=
  match answer, action with
  | .error _, _ | .ok _, .change _ | .ok _, .askSwapped => .isFalse id
  | .ok _, .start | .ok _, .refresh | .ok _, .watched _ => .isTrue True.intro
  | .ok answer, .refreshModified _ => inferInstanceAs (Decidable (answer = .flag true))

def Adopts (action : Action) : Prop :=
  ∀ answer, action.Replaces answer ↔ ∃ value, answer = .ok value

theorem start_adopts : start.Adopts := by
  intro answer
  cases answer <;> simp [Replaces]

theorem refresh_adopts : refresh.Adopts := by
  intro answer
  cases answer <;> simp [Replaces]

theorem watched_adopts (change : Change) : (watched change).Adopts := by
  intro answer
  cases answer <;> simp [Replaces]

end Action

namespace Session

def Shows (session : Session) (files : Directory) : Prop :=
  ∃ service opened, session.service = some service ∧
    (Service.start session.manifest session.collection opened
      (files.at? session.collection.directory)).result = .ok service

/-- What an action makes of a session that has a service: there is a new service for the files as
they are now, or the old one stays. -/
structure Moves (session : Session) (action : Action) (performed : Performed) : Prop where
  manifest : performed.session.manifest = session.manifest
  collection : performed.session.collection = session.collection
  replaced : action.Replaces performed.answer → performed.session.Shows performed.session.files
  kept : ¬ action.Replaces performed.answer → performed.session.service = session.service

theorem unchanged_moves {session : Session} {action : Action} {answer : Except Error Answer}
    (calm : ¬ action.Replaces answer) (warnings : List Warning) :
    session.Moves action (session.unchanged warnings answer) :=
  ⟨rfl, rfl, fun replaces => absurd replaces calm, fun _ => rfl⟩

theorem change_moves (session : Session) (change : Change) :
    session.Moves (.change change) (session.change change) := by
  rw [Session.change]
  cases change.apply session.files with
  | error fault => exact unchanged_moves id []
  | ok files => exact ⟨rfl, rfl, False.elim, fun _ => rfl⟩

theorem adopt_ok {session : Session} {work : Reported Service} {service : Service}
    (worked : work.result = .ok service) (swapped : Bool) (answer : Answer) :
    session.adopt swapped answer work =
      ⟨{ session with service := some service, swapped := swapped }, work.warnings, .ok answer⟩ := by
  rw [adopt, worked]

theorem adopt_moves {session : Session} {action : Action} (adopts : action.Adopts)
    (swapped : Bool) (answer : Answer) (now : Moment) :
    session.Moves action (session.adopt swapped answer
      (Service.start session.manifest session.collection now session.contents)) := by
  cases started : (Service.start session.manifest session.collection now
      session.contents).result with
  | error error =>
    rw [adopt, started]
    exact unchanged_moves (by simp [adopts _]) _
  | ok service =>
    rw [adopt_ok started]
    have replaces : action.Replaces (.ok answer) := (adopts _).mpr ⟨answer, rfl⟩
    exact ⟨rfl, rfl, fun _ => ⟨service, now, rfl, started⟩, fun kept => absurd replaces kept⟩

section Running

variable {session : Session} {service : Service}

theorem refresh_moves {action : Action} (adopts : action.Adopts)
    (manifest : service.manifest = session.manifest)
    (collection : service.collection = session.collection) (now : Moment) (answer : Answer) :
    session.Moves action (session.refresh service now answer) := by
  rw [refresh, Service.refresh, manifest, collection]
  exact adopt_moves adopts true answer now

theorem refreshModified_moves (manifest : service.manifest = session.manifest)
    (collection : service.collection = session.collection) (now since : Moment) :
    session.Moves (.refreshModified since) (session.refreshModified service now since) := by
  rw [refreshModified]
  cases outcome : (service.refreshModified now since session.contents).result with
  | error error => exact unchanged_moves id _
  | ok refreshed =>
    cases refreshed with
    | none => exact unchanged_moves (by simp [Action.Replaces]) _
    | some fresh =>
      rw [Service.refreshModified, Reported.bind_ok_iff] at outcome
      obtain ⟨stale, _, outcome⟩ := outcome
      cases stale with
      | false => cases outcome
      | true =>
        obtain ⟨_, started, same⟩ := Reported.map_ok_iff.mp outcome
        cases same
        rw [Service.refresh, manifest, collection] at started
        exact ⟨rfl, rfl, fun _ => ⟨fresh, now, rfl, started⟩, fun kept => absurd rfl kept⟩

theorem watched_moves (manifest : service.manifest = session.manifest)
    (collection : service.collection = session.collection) (now : Moment) (change : Change) :
    session.Moves (.watched change) (session.watched service now change) := by
  rw [watched, Session.change]
  cases change.apply session.files with
  | error fault => exact unchanged_moves id []
  | ok files =>
    have moves := @refresh_moves { session with files := files } service (.watched change)
      (Action.watched_adopts change) manifest collection now (.flag true)
    exact ⟨moves.manifest, moves.collection, moves.replaced, moves.kept⟩

theorem perform_moves (running : session.service = some service)
    (manifest : service.manifest = session.manifest)
    (collection : service.collection = session.collection) (now : Moment) (action : Action) :
    ∃ performed, session.perform now action = some performed ∧ session.Moves action performed := by
  cases action with
  | change change => exact ⟨_, rfl, session.change_moves change⟩
  | start => exact ⟨_, rfl, adopt_moves Action.start_adopts false .done now⟩
  | refresh =>
    rw [perform, running]
    exact ⟨_, rfl, refresh_moves Action.refresh_adopts manifest collection now .done⟩
  | refreshModified since =>
    rw [perform, running]
    exact ⟨_, rfl, refreshModified_moves manifest collection now since⟩
  | watched change =>
    rw [perform, running]
    exact ⟨_, rfl, watched_moves manifest collection now change⟩
  | askSwapped =>
    rw [perform, running]
    exact ⟨_, rfl, rfl, rfl, False.elim, fun _ => running.symm⟩

end Running

inductive Step where
  | act (now : Moment) (action : Action)
  | ask (query : Query)

structure Run where
  session : Session
  loaded : Directory

namespace Run

def reply (run : Run) (query : Query) : Option Reply :=
  run.session.service.map fun service => service.reply query

def next (run : Run) : Step → Run
  | .ask _ => run
  | .act now action =>
    match run.session.perform now action with
    | none => run
    | some performed =>
      ⟨performed.session,
        if action.Replaces performed.answer then performed.session.files else run.loaded⟩

def after (run : Run) (steps : List Step) : Run := steps.foldl next run

structure Holds (session : Session) (run : Run) : Prop where
  manifest : run.session.manifest = session.manifest
  collection : run.session.collection = session.collection
  shows : run.session.Shows run.loaded

variable {session : Session} {run : Run}

theorem Holds.perform (holds : run.Holds session) (now : Moment) (action : Action) :
    ∃ performed, run.session.perform now action = some performed ∧
      run.session.Moves action performed := by
  obtain ⟨service, opened, running, started⟩ := holds.shows
  obtain ⟨manifest, collection, _⟩ := Service.start_ok_iff.mp started
  exact perform_moves running manifest collection now action

theorem Holds.next (holds : run.Holds session) (step : Step) : (run.next step).Holds session := by
  cases step with
  | ask query => exact holds
  | act now action =>
    obtain ⟨performed, done, moves⟩ := holds.perform now action
    rw [Run.next, done]
    refine ⟨moves.manifest.trans holds.manifest, moves.collection.trans holds.collection, ?_⟩
    by_cases replaces : action.Replaces performed.answer
    · simp only [if_pos replaces]
      exact moves.replaced replaces
    · simp only [if_neg replaces]
      rw [Shows, moves.manifest, moves.collection, moves.kept replaces]
      exact holds.shows

theorem Holds.after (holds : run.Holds session) (steps : List Step) :
    (run.after steps).Holds session := by
  induction steps generalizing run with
  | nil => exact holds
  | cons step rest ih => exact ih (holds.next step)

end Run

def opened (session : Session) (now : Moment) : Run := ⟨(session.start now).session, session.files⟩

theorem opened_holds {session : Session} {now : Moment}
    (started : (session.start now).answer = .ok .done) : (session.opened now).Holds session := by
  have moves : session.Moves .start (session.start now) :=
    adopt_moves Action.start_adopts false .done now
  have files : (session.start now).session.files = session.files := by
    rw [start, adopt]
    split <;> rfl
  have replaces : Action.start.Replaces (session.start now).answer := by
    rw [started]
    exact True.intro
  refine ⟨moves.manifest, moves.collection, ?_⟩
  rw [opened, ← files]
  exact moves.replaced replaces

/-- Whatever has been done since a session was started, its service replies as one that is started
afresh for the files as they were when the snapshot was last replaced. Only what replaces the
snapshot makes a difference to what is replied next. -/
theorem run_replies_as_loaded {session : Session} {begun : Moment}
    (started : (session.start begun).answer = .ok .done) (steps : List Step) :
    (∀ now, ∃ fresh,
      (Service.start session.manifest session.collection now
        (((session.opened begun).after steps).loaded.at? session.collection.directory)).result =
          .ok fresh ∧
      ∀ query, ((session.opened begun).after steps).reply query = some (fresh.reply query)) ∧
    ∀ now action, ∃ performed,
      ((session.opened begun).after steps).session.perform now action = some performed ∧
      (¬ action.Replaces performed.answer → ∀ query,
        ((session.opened begun).after (steps ++ [.act now action])).reply query =
          ((session.opened begun).after steps).reply query) := by
  have holds := (opened_holds started).after steps
  constructor
  · intro now
    obtain ⟨service, opened, running, loaded⟩ := holds.shows
    rw [holds.manifest, holds.collection] at loaded
    obtain ⟨fresh, restarted, same⟩ := Service.start_again loaded now
    refine ⟨fresh, restarted, fun query => ?_⟩
    rw [Run.reply, running, ← same.reply query]
    rfl
  · intro now action
    obtain ⟨performed, done, moves⟩ := holds.perform now action
    refine ⟨performed, done, fun kept query => ?_⟩
    rw [Run.after, List.foldl_append, List.foldl_cons, List.foldl_nil, ← Run.after, Run.next, done,
      Run.reply, Run.reply, moves.kept kept]

namespace Rewritten

def unopened : Session :=
  ⟨manifest, ⟨"briefe"⟩, [("briefe", .directory (contents rewritten))], none, false⟩

def deletion : List Step :=
  [.ask (.render "letters" "L2" .xml), .act 6 (.change (.remove "briefe")), .act 7 .refresh,
    .ask (.render "letters" "L2" .json)]

def running (snapshot : Snapshot) : Session :=
  { unopened with service := some ⟨manifest, ⟨"briefe"⟩, snapshot⟩ }

def emptied (snapshot : Snapshot) : Session := { running snapshot with files := [] }

theorem unopened_contents : unopened.contents = some (contents rewritten) :=
  session_contents ⟨manifest, ⟨"briefe"⟩, ⟨[], [], 0⟩⟩

theorem unopened_starts :
    ∃ snapshot warnings, unopened.start 5 = ⟨running snapshot, warnings, .ok .done⟩ := by
  obtain ⟨service, started⟩ := Service.start_total manifest ⟨"briefe"⟩ 5 (contents rewritten)
  obtain ⟨sameManifest, sameCollection, _⟩ := Service.start_ok_iff.mp started
  have same : service = ⟨manifest, ⟨"briefe"⟩, service.snapshot⟩ := by
    rw [← sameManifest, ← sameCollection]
  rw [← unopened_contents] at started
  refine ⟨service.snapshot,
    (Service.start manifest ⟨"briefe"⟩ 5 unopened.contents).warnings, ?_⟩
  rw [running, ← same]
  exact adopt_ok started false .done

theorem emptied_contents (snapshot : Snapshot) : (emptied snapshot).contents = none := by
  have missing : Directory.at? [] "briefe" = none := by rfl
  exact missing

theorem deletion_done (snapshot : Snapshot) :
    (Run.mk (running snapshot) unopened.files).after deletion =
      ⟨emptied snapshot, unopened.files⟩ := by
  have removed : (Run.mk (running snapshot) unopened.files).next
      (.act 6 (.change (.remove "briefe"))) = ⟨emptied snapshot, unopened.files⟩ := by
    rfl
  have failed : (emptied snapshot).perform 7 .refresh =
      some ⟨emptied snapshot, [], .error (.missingCollection "briefe")⟩ := by
    rw [perform, emptied, running, Option.map_some, ← running, ← emptied, refresh,
      emptied_contents]
    rfl
  have steps : (Run.mk (running snapshot) unopened.files).after deletion =
      ((Run.mk (running snapshot) unopened.files).next
        (.act 6 (.change (.remove "briefe")))).next (.act 7 .refresh) := by
    rfl
  rw [steps, removed, Run.next, failed]
  rfl

theorem run_replies_after_deletion :
    ∃ fresh,
      (unopened.start 5).answer = .ok .done ∧
      ((unopened.opened 5).after deletion).session.files = [] ∧
      (Service.start manifest ⟨"briefe"⟩ 9 (some (contents rewritten))).result = .ok fresh ∧
      ∀ query, ((unopened.opened 5).after deletion).reply query = some (fresh.reply query) := by
  obtain ⟨snapshot, warnings, begun⟩ := unopened_starts
  have started : (unopened.start 5).answer = .ok .done := by rw [begun]
  obtain ⟨fresh, restarted, replies⟩ := (run_replies_as_loaded started deletion).1 9
  have done : (unopened.opened 5).after deletion = ⟨emptied snapshot, unopened.files⟩ := by
    rw [opened, begun, deletion_done]
  have again : unopened.files.at? "briefe" = some (contents rewritten) := unopened_contents
  refine ⟨fresh, started, ?_, ?_, replies⟩
  · rw [done]
    rfl
  · rw [done] at restarted
    rw [← again]
    exact restarted

end Rewritten

end Session
end Regesta
