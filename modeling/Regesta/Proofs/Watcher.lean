import Regesta.Proofs.Service.Concurrent
import Regesta.Proofs.Session
import Regesta.Watcher

namespace Regesta

/-- Names from the top lead to what a collection knows by some identifier. -/
def Collection.Knows (collection : Collection) (names : List String) (id : String) : Prop :=
  ∃ outer ∈ Directory.trail collection.directory, ∃ rest,
    names = outer.reverse ++ rest ∧ id = identifier rest

/-- Names from the top lead to where a collection has its XML files. -/
def Collection.Sees (collection : Collection) (names : List String) : Prop :=
  ∃ outer ∈ Directory.trail collection.directory, ∃ rest,
    names = outer.reverse ++ rest ∧ isXmlFile rest = true

namespace Service

theorem start_loadedAt {manifest : Manifest} {collection : Collection} {now : Moment}
    {contents : Option Directory} {service : Service}
    (started : (start manifest collection now contents).result = .ok service) :
    service.snapshot.loadedAt = now := by
  obtain ⟨tree, rfl⟩ := start_some started
  obtain ⟨_, _, loaded⟩ := start_ok_iff.mp started
  rw [Snapshot.load_result, Except.ok.injEq] at loaded
  rw [← loaded]

end Service

namespace Watcher

inductive Event where
  | changed (time : Moment) (change : Change)
  | polled (time : Moment) (reachable : Bool)

namespace Event

def time : Event → Moment
  | changed time _ => time
  | polled time _ => time

/-- Files are stamped with the time of the change, cut to what the file system can tell apart. -/
def Stamped (granularity : Int) : Event → Prop
  | changed time change =>
    change.Writes fun file => time - granularity < file.modified ∧ file.modified ≤ time
  | polled _ _ => True

end Event

def InOrder (last : Moment) : List Event → Prop
  | [] => True
  | event :: rest => last ≤ event.time ∧ InOrder event.time rest

structure Watch where
  files : Directory
  watcher : Watcher

namespace Watch

def view (watch : Watch) (reachable : Bool) : Option Directory :=
  if reachable then watch.files.at? watch.watcher.service.collection.directory else none

def next (watch : Watch) : Event → Watch
  | .changed _ change => { watch with files := watch.files.after [change] }
  | .polled time reachable =>
    { watch with watcher := watch.watcher.poll time (watch.view reachable) }

def run (watch : Watch) (events : List Event) : Watch := events.foldl next watch

/-- A file is written before any look has succeeded, with a time that is not later than the load. -/
inductive Hasty (begun : Moment) : Watch → List Event → String → File → Prop where
  | written {watch : Watch} {time : Moment} {path : String} {file : File} {events : List Event}
      (early : file.modified ≤ begun) :
      Hasty begun watch (.changed time (.write path file) :: events) path file
  | changed {watch : Watch} {time : Moment} {change : Change} {path : String} {file : File}
      {events : List Event}
      (later : Hasty begun (watch.next (.changed time change)) events path file) :
      Hasty begun watch (.changed time change :: events) path file
  | missed {watch : Watch} {time : Moment} {reachable : Bool} {path : String} {file : File}
      {events : List Event} (missing : watch.view reachable = none)
      (later : Hasty begun (watch.next (.polled time reachable)) events path file) :
      Hasty begun watch (.polled time reachable :: events) path file

def Overlooked (collection : Collection) (begun : Moment) (watch : Watch) (events : List Event)
    (file : String × File) : Prop :=
  ∃ path, collection.Knows (Directory.direct path) file.1 ∧ watch.Hasty begun events path file.2

def Pending (collection : Collection) (first : Service) (overlooked : List String → File → Prop)
    (watch : Watch) (names : List String) (file : File) : Prop :=
  collection.Sees names → watch.watcher.lastChecked < file.modified ∨
    watch.watcher.service = first ∧ overlooked names file

/-- The service was started for some files, and all that the collection has besides is pending. -/
structure Covers (manifest : Manifest) (collection : Collection) (first : Service)
    (overlooked : List String → File → Prop) (watch : Watch) : Prop where
  wellFormed : watch.files.WellFormed
  seen : ∃ (opened : Moment) (files before : Directory),
    files.WellFormed ∧ files.at? collection.directory = some before ∧
    (Service.start manifest collection opened (some before)).result = .ok watch.watcher.service ∧
    files.Inherits (watch.Pending collection first overlooked) watch.files

end Watch

variable {manifest : Manifest} {collection : Collection} {first : Service}
  {overlooked : List String → File → Prop} {watcher : Watcher} {watch : Watch}

@[simp] theorem poll_missing (now : Moment) : watcher.poll now none = watcher := by
  rw [poll, Service.refreshModified_missing]

theorem poll_upToDate {contents : Directory}
    (upToDate : watcher.service.UpToDate watcher.lastChecked contents) (now : Moment) :
    watcher.poll now (some contents) = ⟨watcher.service, now - grace⟩ := by
  rw [poll, Service.refreshModified_upToDate upToDate]

theorem poll_stale {contents : Directory} {fresh : Service} {now : Moment}
    (stale : ¬ watcher.service.UpToDate watcher.lastChecked contents)
    (started : (Service.start watcher.service.manifest watcher.service.collection now
      (some contents)).result = .ok fresh) :
    watcher.poll now (some contents) = ⟨fresh, now - grace⟩ := by
  rw [poll, Service.refreshModified_stale stale started]

namespace Watch

theorem Covers.view (covers : watch.Covers manifest collection first overlooked)
    (reachable : Bool) :
    watch.view reachable = if reachable then watch.files.at? collection.directory else none := by
  obtain ⟨_, _, _, _, _, started, _⟩ := covers.seen
  rw [Watch.view, (Service.start_ok_iff.mp started).2.1]

theorem Covers.changed (covers : watch.Covers manifest collection first overlooked)
    {change : Change} (puts : change.Puts (watch.Pending collection first overlooked))
    (time : Moment) :
    (watch.next (.changed time change)).Covers manifest collection first overlooked := by
  obtain ⟨opened, files, before, sound, there, started, inherits⟩ := covers.seen
  refine ⟨Directory.after_wellFormed covers.wellFormed _,
    opened, files, before, sound, there, started, inherits.trans ?_⟩
  apply Directory.after_inherits
  simpa using puts

theorem polled_missing {reachable : Bool} (missing : watch.view reachable = none) (time : Moment) :
    watch.next (.polled time reachable) = watch := by
  rw [next, missing, poll_missing]

/-- What a collection has in one tree and in another: the same files, and each of them as it was,
unless something is so of it. -/
def Resembles (but : String × File → Prop) (seen current : Directory) : Prop :=
  List.Forall₂ (fun old new => old.1 = new.1 ∧ (old.2 = new.2 ∨ but new))
    (Collection.inventory seen) (Collection.inventory current)

theorem Resembles.refl (but : String × File → Prop) (tree : Directory) : Resembles but tree tree :=
  List.forall₂_same.mpr fun _ _ => ⟨rfl, .inl rfl⟩

theorem Resembles.imp {but other : String × File → Prop} {seen current : Directory}
    (resembles : Resembles but seen current) (each : ∀ file, but file → other file) :
    Resembles other seen current :=
  List.Forall₂.imp (fun _ new both => ⟨both.1, both.2.imp_right (each new)⟩) resembles

theorem Resembles.eq {but : String × File → Prop} {seen current : Directory}
    (resembles : Resembles but seen current)
    (none : ∀ file ∈ Collection.inventory current, ¬ but file) :
    Collection.inventory seen = Collection.inventory current := by
  unfold Resembles at resembles
  generalize Collection.inventory seen = old at resembles
  generalize Collection.inventory current = new at resembles none
  induction resembles with
  | nil => rfl
  | cons here _ ih =>
    obtain ⟨absent, later⟩ := List.forall_mem_cons.mp none
    rw [ih later, Prod.ext here.1 (here.2.resolve_right absent)]

theorem settled {files current : Directory} (wellFormed : watch.files.WellFormed)
    (there : watch.files.at? collection.directory = some current)
    (old : ∀ file ∈ Collection.inventory current, file.2.modified ≤ watch.watcher.lastChecked)
    (inherits : files.Inherits (watch.Pending collection first overlooked) watch.files) :
    files.Inherits (fun names file => collection.Sees names →
      watch.watcher.service = first ∧ overlooked names file) watch.files := by
  intro names file present
  refine (inherits names file present).imp_right fun pending seen => ?_
  rcases pending seen with newer | missed
  · obtain ⟨outer, led, rest, rfl, isXml⟩ := seen
    have inside := ((Directory.at?_files wellFormed there).2 rest file).mpr ⟨outer, led, present⟩
    have older := old _ (List.mem_map_of_mem (Collection.mem_xmlFiles.mpr ⟨inside, isXml⟩))
    exact absurd newer (Int.not_lt.mpr older)
  · exact missed

theorem resembles_of_inherits {written : List String → File → Prop}
    {files after before current : Directory} (wellFormed : files.WellFormed)
    (still : after.WellFormed) (earlier : files.at? collection.directory = some before)
    (now : after.at? collection.directory = some current)
    (listed : (Collection.inventory current).map Prod.fst =
      (Collection.inventory before).map Prod.fst)
    (inherits : files.Inherits (fun names file => collection.Sees names → written names file)
      after) :
    Resembles (fun file => ∃ names, collection.Knows names file.1 ∧ written names file.2) before
      current := by
  refine forall₂_of_listed listed ?_
  intro id old new inBefore inAfter
  refine ⟨rfl, ?_⟩
  obtain ⟨⟨rest, _⟩, member, same⟩ := List.mem_map.mp inAfter
  cases same
  obtain ⟨inside, isXml⟩ := Collection.mem_xmlFiles.mp member
  rcases inherits.at? wellFormed still earlier now rest new inside with kept | ⟨outer, led, fresh⟩
  · left
    have listed := Collection.mem_xmlFiles.mpr ⟨kept, isXml⟩
    have apart := Collection.inventory_apart (Directory.at?_files wellFormed earlier).1
    have same := List.inj_on_of_nodup_map apart inBefore (List.mem_map_of_mem listed) rfl
    exact (Prod.mk.inj same).2
  · right
    exact ⟨outer.reverse ++ rest, ⟨outer, led, rest, rfl, rfl⟩,
      fresh ⟨outer, led, rest, rfl, isXml⟩⟩

theorem Covers.polled (covers : watch.Covers manifest collection first overlooked)
    {reachable : Bool} {current : Directory} (there : watch.view reachable = some current)
    (time : Moment) :
    (watch.next (.polled time reachable)).Covers manifest collection first overlooked ∧
      (watch.next (.polled time reachable)).watcher.lastChecked = time - grace ∧
      ∃ moment seen, (Service.start manifest collection moment (some seen)).result =
        .ok (watch.next (.polled time reachable)).watcher.service ∧
        Resembles (fun file => ∃ names, collection.Knows names file.1 ∧
          (watch.next (.polled time reachable)).watcher.service = first ∧
            overlooked names file.2) seen current := by
  obtain ⟨opened, files, before, sound, earlier, started, inherits⟩ := covers.seen
  have now : watch.files.at? collection.directory = some current := by
    rw [covers.view] at there
    cases reachable with
    | false => cases there
    | true => exact there
  obtain ⟨sameManifest, sameCollection, loaded⟩ := Service.start_ok_iff.mp started
  rw [next, there]
  by_cases upToDate : watch.watcher.service.UpToDate watch.watcher.lastChecked current
  · rw [poll_upToDate upToDate]
    have settled := settled covers.wellFormed now upToDate.old inherits
    have listed : (Collection.inventory current).map Prod.fst =
        (Collection.inventory before).map Prod.fst := by
      rw [Snapshot.load_result, Except.ok.injEq] at loaded
      rw [upToDate.listed, ← loaded]
    refine ⟨⟨covers.wellFormed, opened, files, before, sound, earlier, started, ?_⟩, rfl, opened,
      before, started, ?_⟩
    · exact settled.imp fun names file missed seen => .inr (missed seen)
    · exact resembles_of_inherits sound covers.wellFormed earlier now listed settled
  · -- The new snapshot is of the files as they are, so that nothing is pending any more.
    obtain ⟨fresh, restarted⟩ := Service.start_total manifest collection time current
    have replaced := restarted
    rw [← sameManifest, ← sameCollection] at replaced
    rw [poll_stale upToDate replaced]
    exact ⟨⟨covers.wellFormed, time, watch.files, current, covers.wellFormed, now, restarted,
      .refl _⟩, rfl, time, current, restarted, .refl _ _⟩

/-- What the times of a watch come to: the next look goes back far enough for what is still to be
written, or else no look has succeeded and what is written in haste may be overlooked. -/
def LooksBack (begun last : Moment) (first : Service) (overlooked : List String → File → Prop)
    (watch : Watch) (events : List Event) : Prop :=
  watch.watcher.lastChecked ≤ last - grace ∨
    watch.watcher = ⟨first, begun⟩ ∧
      ∀ path file, watch.Hasty begun events path file → overlooked (Directory.direct path) file

theorem LooksBack.before {begun last : Moment} {event : Event} {events : List Event}
    (looksBack : watch.LooksBack begun last first overlooked (event :: events))
    (order : last ≤ event.time) (calm : (watch.next event).watcher = watch.watcher)
    (hasty : ∀ path file, (watch.next event).Hasty begun events path file →
      watch.Hasty begun (event :: events) path file) :
    (watch.next event).LooksBack begun event.time first overlooked events := by
  rw [LooksBack, calm]
  rcases looksBack with late | ⟨same, missed⟩
  · exact .inl (Int.le_trans late (Int.sub_le_sub_right order grace))
  · exact .inr ⟨same, fun path file early => missed path file (hasty path file early)⟩

/-- After a look the grace covers the time of a file; before it, only the time itself can. -/
theorem LooksBack.puts {begun last time granularity : Moment} {change : Change}
    {events : List Event}
    (looksBack : watch.LooksBack begun last first overlooked (.changed time change :: events))
    (order : last ≤ time) (fine : granularity ≤ grace)
    (stamped : (Event.changed time change).Stamped granularity) :
    change.Puts (watch.Pending collection first overlooked) := by
  cases change with
  | makeDirectory path => exact True.intro
  | remove path => exact True.intro
  | write path file =>
    intro _
    rcases looksBack with late | ⟨same, missed⟩
    · left
      calc watch.watcher.lastChecked
        _ ≤ last - grace := late
        _ ≤ time - granularity := Int.sub_le_sub order fine
        _ < file.modified := stamped.1
    · rw [same]
      by_cases early : file.modified ≤ begun
      · exact .inr ⟨rfl, missed path file (.written early)⟩
      · exact .inl (Int.not_le.mp early)

theorem Covers.run (covers : watch.Covers manifest collection first overlooked)
    {granularity : Int} (fine : granularity ≤ grace) {begun last : Moment} {events : List Event}
    (inOrder : InOrder last events) (stamped : ∀ event ∈ events, event.Stamped granularity)
    (looksBack : watch.LooksBack begun last first overlooked events) :
    (watch.run events).Covers manifest collection first overlooked := by
  induction events generalizing watch last with
  | nil => exact covers
  | cons event rest ih =>
    obtain ⟨order, inOrder⟩ := inOrder
    obtain ⟨here, later⟩ := List.forall_mem_cons.mp stamped
    cases event with
    | changed time change =>
      exact ih (covers.changed (looksBack.puts order fine here) time) inOrder later
        (looksBack.before order rfl fun _ _ early => .changed early)
    | polled time reachable =>
      cases seen : watch.view reachable with
      | none =>
        have same := polled_missing seen time
        have covers : (watch.next (.polled time reachable)).Covers manifest collection first
            overlooked := by
          rw [same]
          exact covers
        exact ih covers inOrder later
          (looksBack.before order (by rw [same]) fun _ _ early => .missed seen early)
      | some current =>
        -- Haste ends here: from now on the grace covers whatever is written.
        obtain ⟨covers, checked, _⟩ := covers.polled seen time
        exact ih covers inOrder later (.inl (Int.le_of_eq checked))

/-- After a look that succeeds, the service answers for all files as they are, but for those that
were written in haste; and for these too, if it is not the first service any more. -/
theorem poll_catches_up {files : Directory} {begun : Moment} {service : Service}
    {granularity : Int} {events : List Event} {current : Directory} (wellFormed : files.WellFormed)
    (started : (Service.start manifest collection begun
      (files.at? collection.directory)).result = .ok service)
    (fine : granularity ≤ grace) (inOrder : InOrder begun events)
    (stamped : ∀ event ∈ events, event.Stamped granularity)
    (present : ((Watch.mk files (start service)).run events).files.at? collection.directory =
      some current) (time now : Moment) :
    ∃ (later shown fresh : Service) (seen : Directory),
      ((Watch.mk files (start service)).run (events ++ [.polled time true])).watcher.service =
        later ∧
      (Service.start manifest collection now (some seen)).result = .ok shown ∧
      (Service.start manifest collection now (some current)).result = .ok fresh ∧
      later.AnswersAs shown ∧
      Resembles (fun file => later = service ∧
        (Watch.mk files (start service)).Overlooked collection begun events file) seen current ∧
      ((∀ file ∈ Collection.inventory current,
        ¬ (later = service ∧
          (Watch.mk files (start service)).Overlooked collection begun events file)) →
        later.AnswersAs fresh) := by
  obtain ⟨before, there⟩ := Service.start_some started
  rw [there] at started
  have first : start service = ⟨service, begun⟩ := by
    rw [start, Service.start_loadedAt started]
  have covers : (Watch.mk files (start service)).Covers manifest collection service
      fun names file => ∃ path, Directory.direct path = names ∧
        (Watch.mk files (start service)).Hasty begun events path file :=
    ⟨wellFormed, begun, files, before, wellFormed, there, started, .refl files⟩
  have still := covers.run fine inOrder stamped
    (.inr ⟨first, fun path file early => ⟨path, rfl, early⟩⟩)
  have view : ((Watch.mk files (start service)).run events).view true = some current := by
    rw [still.view, if_pos rfl, present]
  obtain ⟨_, _, moment, seen, restarted, resembles⟩ := still.polled view time
  obtain ⟨shown, again, same⟩ := Service.start_again restarted now
  obtain ⟨fresh, anew⟩ := Service.start_total manifest collection now current
  have missed : Resembles (fun file =>
      (((Watch.mk files (start service)).run events).next (.polled time true)).watcher.service =
          service ∧
        (Watch.mk files (start service)).Overlooked collection begun events file) seen current := by
    refine resembles.imp ?_
    rintro file ⟨_, knows, still, path, rfl, hasty⟩
    exact ⟨still, path, knows, hasty⟩
  rw [run, List.foldl_append]
  refine ⟨_, shown, fresh, seen, rfl, again, anew, same, missed, ?_⟩
  intro none
  obtain ⟨sameManifest, _, loaded⟩ := Service.start_ok_iff.mp restarted
  obtain ⟨freshManifest, _, reloaded⟩ := Service.start_ok_iff.mp anew
  rw [Snapshot.load_result, Except.ok.injEq] at loaded reloaded
  apply Service.answersAs_of_holdings (sameManifest.trans freshManifest.symm)
  rw [← loaded, ← reloaded, missed.eq none]

end Watch

end Watcher

namespace Watcher.Hasty

open Letters (file record recordsIn_first recordsIn_second inventory_single)
open Session.Rewritten (letters manifest)

def second : Int := 1000000000

def contents (letter : File) : Directory := [("a.xml", .file letter)]

def files (letter : File) : Directory := [("briefe", .directory (contents letter))]

theorem at_briefe (letter : File) : (files letter).at? "briefe" = some (contents letter) := by
  rfl

theorem after_write (old new : File) :
    (files old).after [.write "briefe/a.xml" new] = files new := by
  rfl

theorem upToDate {service : Service} {old new : File} {opened since : Moment}
    (started : (Service.start manifest ⟨"briefe"⟩ opened (some (contents old))).result =
      .ok service) (before : new.modified ≤ since) : service.UpToDate since (contents new) := by
  obtain ⟨_, _, loaded⟩ := Service.start_ok_iff.mp started
  rw [Snapshot.load_result, contents, inventory_single, Except.ok.injEq] at loaded
  refine ⟨?_, ?_⟩
  · rw [contents, inventory_single]
    simpa using before
  · rw [contents, inventory_single, ← loaded]
    rfl

theorem entities_of_start {service : Service} {letter : File} {records : List Record}
    {opened : Moment}
    (started : (Service.start manifest ⟨"briefe"⟩ opened (some (contents letter))).result =
      .ok service)
    (found : letters.recordsIn .lenient ("a.xml", letter) = records) :
    service.entities "letters" = .ok records := by
  obtain ⟨sameManifest, _, loaded⟩ := Service.start_ok_iff.mp started
  have known : manifest.entity "letters" = .ok letters := rfl
  rw [Service.entities_known (by rw [sameManifest]; exact known),
    Snapshot.records_eq (Snapshot.holdings?_load loaded known), contents, inventory_single,
    List.flatMap_singleton]
  exact congrArg Except.ok found

/-- A letter is rewritten right after the load, which took place at 10.4 seconds. -/
def rewrite : List Event :=
  [.changed (107 * second / 10) (.write "briefe/a.xml" (file "L2" (10 * second))),
    .polled (124 * second / 10) true, .polled (144 * second / 10) true]

theorem rewrite_after_load_missed :
    ∃ service fresh,
      (Service.start manifest ⟨"briefe"⟩ (104 * second / 10)
        ((files (file "L1" second)).at? "briefe")).result = .ok service ∧
      second ≤ grace ∧ InOrder (104 * second / 10) rewrite ∧
      (∀ event ∈ rewrite, event.Stamped second) ∧
      ((Watch.mk (files (file "L1" second)) (start service)).run rewrite).files =
        files (file "L2" (10 * second)) ∧
      ((Watch.mk (files (file "L1" second)) (start service)).run
        rewrite).watcher.service.entities "letters" = .ok [Letters.record "L1" "a.xml"] ∧
      (Service.start manifest ⟨"briefe"⟩ (144 * second / 10)
        ((files (file "L2" (10 * second))).at? "briefe")).result = .ok fresh ∧
      fresh.entities "letters" = .ok [Letters.record "L2" "a.xml"] := by
  obtain ⟨service, started⟩ := Service.start_total manifest ⟨"briefe"⟩ (104 * second / 10)
    (contents (file "L1" second))
  obtain ⟨fresh, restarted⟩ := Service.start_total manifest ⟨"briefe"⟩ (144 * second / 10)
    (contents (file "L2" (10 * second)))
  have collection : service.collection = ⟨"briefe"⟩ := (Service.start_ok_iff.mp started).2.1
  have view : ∀ checked, (Watch.mk (files (file "L2" (10 * second))) ⟨service, checked⟩).view true =
      some (contents (file "L2" (10 * second))) := by
    intro checked
    rw [Watch.view, collection]
    exact at_briefe _
  have blind : ∀ checked now, 10 * second ≤ checked →
      (Watch.mk (files (file "L2" (10 * second))) ⟨service, checked⟩).next (.polled now true) =
        ⟨files (file "L2" (10 * second)), ⟨service, now - grace⟩⟩ := by
    intro checked now late
    rw [Watch.next, view, poll, Service.refreshModified_upToDate (upToDate started late)]
  have begun : service.snapshot.loadedAt = 104 * second / 10 := Service.start_loadedAt started
  have passed : (Watch.mk (files (file "L1" second)) (start service)).run rewrite =
      ⟨files (file "L2" (10 * second)), ⟨service, 144 * second / 10 - grace⟩⟩ := by
    rw [Watch.run, rewrite, List.foldl_cons, Watch.next, after_write, start, begun,
      List.foldl_cons, blind _ _ (by decide), List.foldl_cons, blind _ _ (by decide)]
    rfl
  refine ⟨service, fresh, started, by decide, ?_, ?_, ?_, ?_, restarted, ?_⟩
  · exact ⟨by decide, by decide, by decide, True.intro⟩
  · simp only [rewrite, List.forall_mem_cons, Event.Stamped, Change.Writes]
    refine ⟨⟨?_, ?_⟩, trivial, trivial, by simp⟩ <;> decide
  · rw [passed]
  · rw [passed]
    exact entities_of_start started (recordsIn_first _ _)
  · exact entities_of_start restarted (recordsIn_second _ _)

def laterRewrite : List Event :=
  [.changed (9 * second) (.write "briefe/a.xml" (file "L2" (8 * second))),
    .polled (10 * second) false]

theorem nothing_hasty (watch : Watch) (path : String) (letter : File) :
    ¬ watch.Hasty (5 * second) laterRewrite path letter := by
  rintro (early | later)
  · exact absurd early (by decide)
  · rcases later with _ | _ | ⟨_, later⟩
    cases later

theorem poll_catches_up_later :
    ∃ service fresh,
      (Service.start manifest ⟨"briefe"⟩ (5 * second)
        ((files (file "L1" second)).at? "briefe")).result = .ok service ∧
      InOrder (5 * second) laterRewrite ∧
      (∀ event ∈ laterRewrite, event.Stamped (2 * second)) ∧
      (∀ path letter, ¬ (Watch.mk (files (file "L1" second)) (start service)).Hasty (5 * second)
        laterRewrite path letter) ∧
      (Service.start manifest ⟨"briefe"⟩ (12 * second)
        (some (contents (file "L2" (8 * second))))).result = .ok fresh ∧
      ((Watch.mk (files (file "L1" second)) (start service)).run
        (laterRewrite ++ [.polled (12 * second) true])).watcher.service.AnswersAs fresh := by
  obtain ⟨service, started⟩ := Service.start_total manifest ⟨"briefe"⟩ (5 * second)
    (contents (file "L1" second))
  have wellFormed : (files (file "L1" second)).WellFormed := by
    simp only [files, contents, Directory.WellFormed, Entry.WellFormed]
    decide
  have inOrder : InOrder (5 * second) laterRewrite := ⟨by decide, by decide, True.intro⟩
  have stamped : ∀ event ∈ laterRewrite, event.Stamped (2 * second) := by
    simp only [laterRewrite, List.forall_mem_cons, Event.Stamped, Change.Writes]
    refine ⟨⟨?_, ?_⟩, trivial, by simp⟩ <;> decide
  have present : ((Watch.mk (files (file "L1" second)) (start service)).run
      laterRewrite).files.at? "briefe" = some (contents (file "L2" (8 * second))) := by
    rw [Watch.run, laterRewrite, List.foldl_cons, Watch.next, after_write]
    exact at_briefe _
  obtain ⟨_, _, fresh, _, rfl, _, restarted, _, _, answers⟩ :=
    Watch.poll_catches_up wellFormed started (by decide) inOrder stamped present (12 * second)
      (12 * second)
  refine ⟨service, fresh, started, inOrder, stamped, nothing_hasty _, restarted, answers ?_⟩
  rintro _ _ ⟨_, path, _, hasty⟩
  exact nothing_hasty _ path _ hasty

end Watcher.Hasty
end Regesta
