import Regesta.Proofs.Except
import Regesta.Proofs.Files.Tree
import Regesta.Proofs.Text.Split
import Regesta.Session

namespace Regesta

def filesAt (entry : Option Entry) : List (List String × File) := (entry.map Entry.files).getD []

namespace Directory

/-- Every file of the later directory is in the earlier one, or has been written where it is. -/
def Inherits (written : List String → File → Prop) (before after : Directory) : Prop :=
  ∀ names file, (names, file) ∈ filesOf after → (names, file) ∈ filesOf before ∨ written names file

section

variable {written : List String → File → Prop}

theorem Inherits.refl (directory : Directory) : directory.Inherits written directory :=
  fun _ _ member => .inl member

theorem Inherits.imp {other : List String → File → Prop} {before after : Directory}
    (inherits : before.Inherits written after)
    (each : ∀ names file, written names file → other names file) : before.Inherits other after :=
  fun names file member => (inherits names file member).imp_right (each names file)

theorem Inherits.trans {first second third : Directory} (early : first.Inherits written second)
    (late : second.Inherits written third) : first.Inherits written third := by
  intro names file member
  rcases late names file member with kept | new
  · exact early names file kept
  · exact .inr new

theorem Inherits.at? {before after old new : Directory} {path : String}
    (wellFormed : before.WellFormed) (still : after.WellFormed)
    (inherits : before.Inherits written after) (earlier : before.at? path = some old)
    (later : after.at? path = some new) :
    old.Inherits (fun rest file => ∃ names ∈ trail path, written (names.reverse ++ rest) file)
      new := by
  intro rest file member
  obtain ⟨names, led, below⟩ := ((at?_files still later).2 rest file).mp member
  rcases inherits _ file below with kept | fresh
  · exact .inl (((at?_files wellFormed earlier).2 rest file).mpr ⟨names, led, kept⟩)
  · exact .inr ⟨names, led, fresh⟩

theorem put_inherits {directory : Directory} {name : String} {entry : Option Entry}
    (inner : ∀ names file, (names, file) ∈ filesAt entry →
      (names, file) ∈ filesAt (directory.find? name) ∨ written (name :: names) file) :
    directory.Inherits written (directory.put name entry) := by
  intro names file member
  cases names with
  | nil => exact absurd member (nil_not_mem_filesOf _ _)
  | cons first rest =>
    obtain ⟨found, placed, below⟩ := mem_filesOf.mp member
    rw [put, List.mem_append] at placed
    rcases placed with kept | added
    · exact .inl (mem_filesOf.mpr ⟨found, (List.mem_filter.mp kept).1, below⟩)
    · cases entry with
      | none => cases added
      | some entry =>
        simp only [Option.map_some, Option.toList_some, List.mem_singleton, Prod.mk.injEq] at added
        obtain ⟨rfl, rfl⟩ := added
        rcases inner rest file below with present | new
        · cases there : directory.find? first with
          | none => simp [filesAt, there] at present
          | some old =>
            rw [there] at present
            exact .inl (mem_filesOf.mpr ⟨old, mem_of_find? there, present⟩)
        · exact .inr new

end

theorem wellFormed_iff {entries : Directory} :
    entries.WellFormed ↔ (entries.map Prod.fst).Nodup ∧
      ∀ entry ∈ entries, '/' ∉ entry.1.toList ∧ entry.2.WellFormed := by
  induction entries with
  | nil => simp [WellFormed]
  | cons first rest ih =>
    rw [WellFormed, ih, List.map_cons, List.nodup_cons, List.forall_mem_cons]
    tauto

theorem put_wellFormed {directory : Directory} {name : String} {entry : Option Entry}
    (wellFormed : directory.WellFormed) (slashless : '/' ∉ name.toList)
    (inner : ∀ found ∈ entry, found.WellFormed) : (directory.put name entry).WellFormed := by
  obtain ⟨apart, each⟩ := wellFormed_iff.mp wellFormed
  have still : ((List.filter (fun entry => entry.1 != name) directory).map Prod.fst).Nodup :=
    apart.sublist (List.filter_sublist.map _)
  rw [put, wellFormed_iff]
  constructor
  · rw [List.map_append, List.nodup_append]
    refine ⟨still, by cases entry <;> simp, ?_⟩
    intro other member added present same
    obtain ⟨found, kept, rfl⟩ := List.mem_map.mp member
    have differ := (List.mem_filter.mp kept).2
    cases entry with
    | none => cases present
    | some entry => simp_all
  · intro found member
    rcases List.mem_append.mp member with kept | added
    · exact each found (List.mem_filter.mp kept).1
    · cases entry with
      | none => cases added
      | some entry =>
        rw [List.mem_singleton.mp added]
        exact ⟨slashless, inner entry rfl⟩

section

variable {change : Option Entry → Except FileFault (Option Entry)}

theorem update_inherits {written : List String → File → Prop} {names : List String}
    {directory after : Directory}
    (each : ∀ present result, change present = .ok result → ∀ rest file,
      (rest, file) ∈ filesAt result → (rest, file) ∈ filesAt present ∨ written (names ++ rest) file)
    (updated : update change names directory = .ok after) : directory.Inherits written after := by
  induction names generalizing written directory after with
  | nil => cases updated
  | cons name rest ih =>
    cases rest with
    | nil =>
      obtain ⟨result, made, rfl⟩ := map_ok_iff.mp updated
      exact put_inherits (each _ _ made)
    | cons next others =>
      rw [update] at updated
      · cases there : directory.find? name with
        | none =>
          rw [there] at updated
          obtain ⟨inner, made, rfl⟩ := map_ok_iff.mp updated
          apply put_inherits
          intro names file member
          rcases @ih (fun names => written (name :: names)) _ _ each made names file member with
            kept | new
          · cases kept
          · exact .inr new
        | some entry =>
          cases entry with
          | file _ =>
            rw [there] at updated
            cases updated
          | directory old =>
            rw [there] at updated
            obtain ⟨inner, made, rfl⟩ := map_ok_iff.mp updated
            apply put_inherits
            rw [there]
            exact @ih (fun names => written (name :: names)) _ _ each made
      · simp

theorem update_wellFormed {names : List String} {directory after : Directory}
    (each : ∀ present result, change present = .ok result →
      (∀ entry ∈ present, entry.WellFormed) → ∀ entry ∈ result, entry.WellFormed)
    (slashless : ∀ name ∈ names, '/' ∉ name.toList) (wellFormed : directory.WellFormed)
    (updated : update change names directory = .ok after) : after.WellFormed := by
  induction names generalizing directory after with
  | nil => cases updated
  | cons name rest ih =>
    obtain ⟨here, below⟩ := List.forall_mem_cons.mp slashless
    have present : ∀ entry ∈ directory.find? name, entry.WellFormed :=
      fun entry found => (wellFormed.of_mem (mem_of_find? found)).2
    cases rest with
    | nil =>
      obtain ⟨result, made, rfl⟩ := map_ok_iff.mp updated
      exact put_wellFormed wellFormed here (each _ _ made present)
    | cons next others =>
      rw [update] at updated
      · cases there : directory.find? name with
        | none =>
          rw [there] at updated
          obtain ⟨inner, made, rfl⟩ := map_ok_iff.mp updated
          have empty : WellFormed [] := True.intro
          have made : WellFormed inner := ih below empty made
          exact put_wellFormed wellFormed here (by rintro _ ⟨⟩; exact made)
        | some entry =>
          cases entry with
          | file _ =>
            rw [there] at updated
            cases updated
          | directory old =>
            rw [there] at updated
            obtain ⟨inner, made, rfl⟩ := map_ok_iff.mp updated
            have made : WellFormed inner := ih below (present _ there) made
            exact put_wellFormed wellFormed here (by rintro _ ⟨⟩; exact made)
      · simp

end

theorem direct_slashless (path : String) : ∀ name ∈ direct path, '/' ∉ name.toList := by
  have cut : ∀ name ∈ names path, '/' ∉ name.toList := by
    intro name member
    obtain ⟨part, split, rfl⟩ := List.mem_map.mp member
    rw [String.toList_ofList]
    exact Text.splitEvery_fresh '/' path.toList part split
  have kept : ∀ (path before : List String), (∀ name ∈ path, '/' ∉ name.toList) →
      (∀ name ∈ before, '/' ∉ name.toList) → ∀ name ∈ path.foldl
        (fun before name =>
          if name = "" ∨ name = "." then before
          else if name = ".." then before.tail
          else name :: before) before, '/' ∉ name.toList := by
    intro path
    induction path with
    | nil => exact fun before _ slashless => slashless
    | cons name rest ih =>
      intro before slashless fresh
      obtain ⟨here, later⟩ := List.forall_mem_cons.mp slashless
      rw [List.foldl_cons]
      apply ih _ later
      split
      · exact fresh
      split
      · exact fun other member => fresh other (List.mem_of_mem_tail member)
      · exact List.forall_mem_cons.mpr ⟨here, fresh⟩
  intro name member
  rw [direct, List.mem_reverse] at member
  exact kept _ [] cut (by simp) name member

end Directory

namespace Change

def Writes (written : File → Prop) : Change → Prop
  | write _ file => written file
  | makeDirectory _ => True
  | remove _ => True

def Puts (written : List String → File → Prop) : Change → Prop
  | write path file => written (Directory.direct path) file
  | makeDirectory _ => True
  | remove _ => True

variable {files after : Directory} {change : Change}

theorem Writes.imp {written other : File → Prop} (writes : change.Writes written)
    (each : ∀ file, written file → other file) : change.Writes other := by
  cases change with
  | write path file => exact each file writes
  | makeDirectory path => exact True.intro
  | remove path => exact True.intro

theorem Writes.puts {written : File → Prop} (writes : change.Writes written) :
    change.Puts fun _ => written := by
  cases change with
  | write path file => exact writes
  | makeDirectory path => exact True.intro
  | remove path => exact True.intro

theorem apply_eq_update (change : Change) :
    ∃ (path : String) (step : Option Entry → Except FileFault (Option Entry)),
      (∀ files, change.apply files = Directory.update step (Directory.direct path) files) ∧
      ∀ present result, step present = .ok result →
        result = present ∨ result = none ∨ result = some (.directory []) ∨
          ∃ file, change = .write path file ∧ result = some (.file file) := by
  cases change with
  | write path file =>
    refine ⟨path, _, fun _ => rfl, ?_⟩
    intro present result made
    rcases present with _ | _ | _ <;> cases made <;> simp
  | makeDirectory path =>
    refine ⟨path, _, fun _ => rfl, ?_⟩
    intro present result made
    rcases present with _ | _ | _ <;> cases made <;> simp
  | remove path =>
    refine ⟨path, _, fun _ => rfl, ?_⟩
    intro present result made
    cases present <;> cases made
    simp

theorem apply_inherits {written : List String → File → Prop} (puts : change.Puts written)
    (applied : change.apply files = .ok after) : files.Inherits written after := by
  obtain ⟨path, step, updates, outcomes⟩ := change.apply_eq_update
  rw [updates] at applied
  refine Directory.update_inherits ?_ applied
  intro present result made rest found member
  rcases outcomes present result made with rfl | rfl | rfl | ⟨file, rfl, rfl⟩
  · exact .inl member
  · cases member
  · cases member
  · simp only [filesAt, Entry.files, Option.map_some, Option.getD_some, List.mem_singleton,
      Prod.mk.injEq] at member
    rw [member.1, member.2, List.append_nil]
    exact .inr puts

theorem apply_wellFormed (wellFormed : files.WellFormed)
    (applied : change.apply files = .ok after) : after.WellFormed := by
  obtain ⟨path, step, updates, puts⟩ := change.apply_eq_update
  rw [updates] at applied
  refine Directory.update_wellFormed ?_ (Directory.direct_slashless path) wellFormed applied
  intro present result made before
  rcases puts present result made with rfl | rfl | rfl | ⟨file, rfl, rfl⟩
  · exact before
  · simp
  · rintro _ ⟨⟩
    exact True.intro
  · rintro _ ⟨⟩
    exact True.intro

end Change

namespace Directory

def after (files : Directory) : List Change → Directory
  | [] => files
  | change :: rest => ((change.apply files).toOption.getD files).after rest

theorem after_wellFormed {files : Directory} (wellFormed : files.WellFormed)
    (changes : List Change) : (files.after changes).WellFormed := by
  induction changes generalizing files with
  | nil => exact wellFormed
  | cons change rest ih =>
    rw [after]
    apply ih
    cases applied : change.apply files with
    | error _ => exact wellFormed
    | ok result => exact Change.apply_wellFormed wellFormed applied

theorem after_inherits {written : List String → File → Prop} {changes : List Change}
    (puts : ∀ change ∈ changes, change.Puts written) (files : Directory) :
    files.Inherits written (files.after changes) := by
  induction changes generalizing files with
  | nil => exact .refl files
  | cons change rest ih =>
    obtain ⟨here, later⟩ := List.forall_mem_cons.mp puts
    rw [after]
    refine Inherits.trans ?_ (ih later _)
    cases applied : change.apply files with
    | error _ => exact .refl files
    | ok result => exact Change.apply_inherits here applied

end Directory
end Regesta
