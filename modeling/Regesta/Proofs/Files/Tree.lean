import Mathlib.Data.List.Basic
import Mathlib.Data.List.Pairwise
import Regesta.Files

namespace Regesta

mutual
def Entry.WellFormed : Entry → Prop
  | .file _ => True
  | .directory entries => Directory.WellFormed entries

/-- No two entries of a directory have one name, and no name has a slash. -/
def Directory.WellFormed : Directory → Prop
  | [] => True
  | (name, entry) :: rest =>
    '/' ∉ name.toList ∧ name ∉ rest.map Prod.fst ∧ entry.WellFormed ∧ Directory.WellFormed rest
end

theorem nil_not_mem_filesOf (entries : Directory) (file : File) : ([], file) ∉ filesOf entries := by
  induction entries with
  | nil => simp [filesOf]
  | cons first rest ih => simp [filesOf, ih]

@[simp] theorem mem_filesOf {entries : Directory} {name : String} {names : List String}
    {file : File} :
    (name :: names, file) ∈ filesOf entries ↔
      ∃ entry, (name, entry) ∈ entries ∧ (names, file) ∈ entry.files := by
  induction entries with
  | nil => simp [filesOf]
  | cons first rest ih =>
    obtain ⟨other, entry⟩ := first
    simp only [filesOf, List.mem_append, List.mem_map, List.mem_cons, ih, Prod.mk.injEq]
    constructor
    · rintro (⟨⟨inner, found⟩, member, ⟨rfl, rfl⟩, rfl⟩ | ⟨later, member, inside⟩)
      · exact ⟨entry, .inl ⟨rfl, rfl⟩, member⟩
      · exact ⟨later, .inr member, inside⟩
    · rintro ⟨later, ⟨rfl, rfl⟩ | member, inside⟩
      · exact .inl ⟨(names, file), inside, rfl, rfl⟩
      · exact .inr ⟨later, member, inside⟩

namespace Directory

theorem WellFormed.of_mem {entries : Directory} {name : String} {entry : Entry}
    (wellFormed : WellFormed entries) (member : (name, entry) ∈ entries) :
    '/' ∉ name.toList ∧ entry.WellFormed := by
  induction entries with
  | nil => cases member
  | cons first rest ih =>
    obtain ⟨other, found⟩ := first
    rcases List.mem_cons.mp member with same | later
    · cases same
      exact ⟨wellFormed.1, wellFormed.2.2.1⟩
    · exact ih wellFormed.2.2.2 later

theorem mem_of_find? {entries : Directory} {name : String} {entry : Entry}
    (found : entries.find? name = some entry) : (name, entry) ∈ entries := by
  obtain ⟨pair, first, same⟩ := Option.map_eq_some_iff.mp found
  have named := List.find?_some first
  have member := List.mem_of_find?_eq_some first
  simp only [beq_iff_eq] at named
  rwa [← named, ← same]

theorem find?_eq_some_iff {entries : Directory} {name : String} {entry : Entry}
    (wellFormed : WellFormed entries) :
    entries.find? name = some entry ↔ (name, entry) ∈ entries := by
  refine ⟨mem_of_find?, fun member => ?_⟩
  induction entries with
  | nil => cases member
  | cons first rest ih =>
    obtain ⟨other, found⟩ := first
    rcases List.mem_cons.mp member with same | later
    · cases same
      simp [find?]
    · have inner := ih wellFormed.2.2.2 later
      have differ : other ≠ name := by
        rintro rfl
        exact wellFormed.2.1 (List.mem_map_of_mem later)
      simp only [find?] at inner
      simp [find?, differ, inner]

/-- What has a name is all that the files below that name are in. -/
theorem mem_filesOf_of_find? {entries : Directory} {name : String} {entry : Entry}
    (wellFormed : WellFormed entries) (found : entries.find? name = some entry)
    {names : List String} {file : File} :
    (name :: names, file) ∈ filesOf entries ↔ (names, file) ∈ entry.files := by
  rw [mem_filesOf]
  constructor
  · rintro ⟨other, member, inside⟩
    rw [← find?_eq_some_iff wellFormed, found, Option.some.injEq] at member
    rwa [member]
  · intro inside
    exact ⟨entry, mem_of_find? found, inside⟩

theorem WellFormed.slashless {entries : Directory} {names : List String} {file : File}
    (wellFormed : WellFormed entries) (member : (names, file) ∈ filesOf entries) :
    ∀ name ∈ names, '/' ∉ name.toList := by
  induction names generalizing entries with
  | nil => simp
  | cons name rest ih =>
    obtain ⟨entry, inside, below⟩ := mem_filesOf.mp member
    obtain ⟨slashless, inner⟩ := wellFormed.of_mem inside
    intro other later
    rcases List.mem_cons.mp later with rfl | later
    · exact slashless
    · cases entry with
      | file found =>
        simp only [Entry.files, List.mem_singleton, Prod.mk.injEq] at below
        rw [below.1] at later
        cases later
      | directory entries => exact ih inner below other later

mutual
theorem files_apart : (entry : Entry) → entry.WellFormed →
    entry.files.Pairwise fun a b => a.1 ≠ b.1
  | .file _, _ => List.pairwise_singleton _ _
  | .directory entries, wellFormed => filesOf_apart entries wellFormed

theorem filesOf_apart : (entries : Directory) → WellFormed entries →
    (filesOf entries).Pairwise fun a b => a.1 ≠ b.1
  | [], _ => .nil
  | (name, entry) :: rest, wellFormed => by
    have inner := files_apart entry wellFormed.2.2.1
    have outer := filesOf_apart rest wellFormed.2.2.2
    rw [filesOf, List.pairwise_append, List.pairwise_map]
    refine ⟨inner.imp fun differ same => differ (List.cons.inj same).2, outer, ?_⟩
    rintro _ member ⟨names, file⟩ later same
    obtain ⟨_, _, rfl⟩ := List.mem_map.mp member
    subst same
    obtain ⟨other, inside, _⟩ := mem_filesOf.mp later
    exact wellFormed.2.1 (List.mem_map_of_mem inside)
end

theorem WellFormed.nodup {entries : Directory} (wellFormed : WellFormed entries) :
    (filesOf entries).Nodup :=
  (filesOf_apart entries wellFormed).imp fun differ same => differ (congrArg Prod.fst same)

inductive Reaches (top : Directory) : List String → Position → Prop where
  | start : Reaches top [] ⟨[], .directory top⟩
  | enter {names : List String} {name : String} {around : List Directory} {entries : Directory}
      {entry : Entry} (reached : Reaches top names ⟨around, .directory entries⟩)
      (found : entries.find? name = some entry) :
      Reaches top (name :: names) ⟨entries :: around, entry⟩

theorem Reaches.files {top : Directory} {names : List String} {position : Position}
    (reached : Reaches top names position) (wellFormed : top.WellFormed) :
    position.here.WellFormed ∧ ∀ rest file,
      (rest, file) ∈ position.here.files ↔ (names.reverse ++ rest, file) ∈ filesOf top := by
  induction reached with
  | start => exact ⟨wellFormed, fun _ _ => Iff.rfl⟩
  | @enter names name around entries entry _ found ih =>
    obtain ⟨inner, below⟩ := ih
    refine ⟨(WellFormed.of_mem inner (mem_of_find? found)).2, fun rest file => ?_⟩
    rw [List.reverse_cons, List.append_assoc, List.singleton_append, ← below]
    exact (mem_filesOf_of_find? inner found).symm

def follow (names : Option (List String)) (name : String) : Option (List String) :=
  if name = "" ∨ name = "." then names
  else if name = ".." then names.bind List.tail?
  else names.map fun names => name :: names

/-- A walk through a tree stands where some names lead to, or outside. -/
def Stands (top : Directory) (position : Position) : Option (List String) → Prop
  | none => position = .outside
  | some names => Reaches top names position

theorem step_stands {top : Directory} {position next : Position} {names : Option (List String)}
    {name : String} (stands : Stands top position names) (stepped : position.step name = .ok next) :
    Stands top next (follow names name) := by
  obtain ⟨around, here⟩ := position
  unfold Position.step at stepped
  unfold follow
  cases here with
  | file _ => cases stepped
  | directory entries =>
    by_cases stays : name = "" ∨ name = "."
    · simp only [if_pos stays, Except.ok.injEq] at stepped ⊢
      rwa [← stepped]
    by_cases up : name = ".."
    · simp only [if_neg stays, if_pos up] at stepped ⊢
      cases names with
      | none =>
        cases stands
        exact (Except.ok.inj stepped).symm
      | some names =>
        cases stands with
        | start => exact (Except.ok.inj stepped).symm
        | enter reached _ =>
          cases stepped
          exact reached
    · simp only [if_neg stays, if_neg up] at stepped ⊢
      split at stepped
      · cases stepped
      · split at stepped
        · cases stepped
        · next entry found =>
          cases stepped
          cases names with
          | none =>
            cases stands
            cases found
          | some names => exact .enter stands found

theorem walk_stands {top : Directory} {position last : Position} {names : Option (List String)}
    {path : List String} (stands : Stands top position names)
    (walked : path.foldlM Position.step position = .ok last) :
    Stands top last (path.foldl follow names) := by
  induction path generalizing position names with
  | nil =>
    cases walked
    exact stands
  | cons name rest ih =>
    rw [List.foldlM_cons] at walked
    cases stepped : position.step name with
    | error _ => simp [stepped, Bind.bind, Except.bind] at walked
    | ok next =>
      simp only [stepped, Bind.bind, Except.bind] at walked
      exact ih (step_stands stands stepped) walked

/-- The names that a path comes to in any tree, the last one first. -/
def trail (path : String) : Option (List String) :=
  (names path).foldl follow (if path.toList.head? = some '/' then none else some [])

theorem lookup_stands {top : Directory} {path : String} {entry : Entry}
    (found : top.lookup path = .ok entry) :
    ∃ position, position.here = entry ∧ Stands top position (trail path) := by
  unfold lookup at found
  split at found
  · cases found
  · split at found
    · cases found
    · cases walked : (names path).foldlM Position.step
          (if path.toList.head? = some '/' then .outside else ⟨[], .directory top⟩) with
      | error _ => simp [walked, Except.map] at found
      | ok last =>
        simp only [walked, Except.map, Except.ok.injEq] at found
        refine ⟨last, found, walk_stands ?_ walked⟩
        split
        · exact rfl
        · exact .start

/-- The directory at the end of a path holds just the files below the names that the path comes
to. -/
theorem at?_files {top contents : Directory} {path : String} (wellFormed : top.WellFormed)
    (found : top.at? path = some contents) :
    contents.WellFormed ∧ ∀ rest file, (rest, file) ∈ filesOf contents ↔
      ∃ names ∈ trail path, (names.reverse ++ rest, file) ∈ filesOf top := by
  unfold at? at found
  split at found
  · next entries looked =>
    cases found
    obtain ⟨position, here, stands⟩ := lookup_stands looked
    cases led : trail path with
    | none =>
      rw [led] at stands
      cases stands
      cases here
      exact ⟨True.intro, fun _ _ => by simp [filesOf]⟩
    | some names =>
      rw [led] at stands
      have below := stands.files wellFormed
      rw [here] at below
      exact ⟨below.1, fun rest file => by simpa [Entry.files] using below.2 rest file⟩
  · cases found

end Directory
end Regesta
