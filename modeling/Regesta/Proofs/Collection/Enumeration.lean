import Regesta.Proofs.Collection.Listing
import Regesta.Proofs.Text.Octets

namespace Regesta

open Xml (Document)

namespace Directory

inductive Leads : Directory → List String → File → Prop where
  | here {entries : Directory} {name : String} {file : File}
      (member : (name, Entry.file file) ∈ entries) : Leads entries [name] file
  | inside {entries inner : Directory} {name : String} {names : List String} {file : File}
      (member : (name, Entry.directory inner) ∈ entries) (leads : Leads inner names file) :
      Leads entries (name :: names) file

theorem leads_iff {entries : Directory} {names : List String} {file : File} :
    entries.Leads names file ↔ (names, file) ∈ filesOf entries := by
  constructor
  · intro leads
    induction leads with
    | here member => exact mem_filesOf.mpr ⟨_, member, by simp [Entry.files]⟩
    | inside member _ ih => exact mem_filesOf.mpr ⟨_, member, ih⟩
  · intro listed
    induction names generalizing entries with
    | nil => exact absurd listed (nil_not_mem_filesOf _ _)
    | cons name rest ih =>
      obtain ⟨entry, member, below⟩ := mem_filesOf.mp listed
      cases entry with
      | file found =>
        simp only [Entry.files, List.mem_singleton, Prod.mk.injEq] at below
        rw [below.1, below.2]
        exact .here member
      | directory inner => exact .inside member (ih below)

/-- The same tree with the entries of each directory in an order of their own. -/
inductive Reordered : Directory → Directory → Prop where
  | nil : Reordered [] []
  | file (name : String) (file : File) {left right : Directory} (rest : Reordered left right) :
      Reordered ((name, .file file) :: left) ((name, .file file) :: right)
  | directory (name : String) {inner other left right : Directory}
      (inside : Reordered inner other) (rest : Reordered left right) :
      Reordered ((name, .directory inner) :: left) ((name, .directory other) :: right)
  | swap (first second : String × Entry) (rest : Directory) :
      Reordered (first :: second :: rest) (second :: first :: rest)
  | trans {left middle right : Directory} (first : Reordered left middle)
      (second : Reordered middle right) : Reordered left right

variable {left right : Directory}

theorem Reordered.filesOf_perm (reordered : Reordered left right) :
    (filesOf left).Perm (filesOf right) := by
  induction reordered with
  | nil => exact .nil
  | file name file _ ih => exact ih.append_left _
  | directory name _ _ inside rest => exact (inside.map _).append rest
  | swap first second rest => exact List.perm_append_comm_assoc _ _ _
  | trans _ _ first second => exact first.trans second

theorem Reordered.names_perm (reordered : Reordered left right) :
    (left.map Prod.fst).Perm (right.map Prod.fst) := by
  induction reordered with
  | nil => exact .nil
  | file name _ _ ih => exact ih.cons name
  | directory name _ _ _ ih => exact ih.cons name
  | swap first second rest => exact .swap _ _ _
  | trans _ _ first second => exact first.trans second

theorem Reordered.wellFormed (reordered : Reordered left right) (wellFormed : left.WellFormed) :
    right.WellFormed := by
  induction reordered with
  | nil => exact wellFormed
  | file name file rest ih =>
    obtain ⟨slashless, fresh, inner, outer⟩ := wellFormed
    rw [rest.names_perm.mem_iff] at fresh
    exact ⟨slashless, fresh, inner, ih outer⟩
  | directory name _ rest inside outside =>
    obtain ⟨slashless, fresh, inner, outer⟩ := wellFormed
    rw [rest.names_perm.mem_iff] at fresh
    exact ⟨slashless, fresh, inside inner, outside outer⟩
  | swap first second rest =>
    obtain ⟨slashless, fresh, inner, otherSlashless, otherFresh, otherInner, outer⟩ := wellFormed
    rw [List.map_cons, List.mem_cons, not_or] at fresh
    refine ⟨otherSlashless, ?_, otherInner, slashless, fresh.2, inner, outer⟩
    rw [List.map_cons, List.mem_cons, not_or]
    exact ⟨Ne.symm fresh.1, otherFresh⟩
  | trans _ _ first second => exact second (first wellFormed)

end Directory

def File.Holds (file : File) (source : String) (path : Path) : Prop :=
  file.bytes = source.toUTF8 ∧
    ∃ document, Document.read? source = some document ∧ path.select document.root ≠ []

namespace Collection

/-- The part of a name after its last dot is `xml` in some case, and there is something before. -/
def HasXmlExtension (name : String) : Prop :=
  ∃ stem extension, name.toList = stem ++ '.' :: extension ∧ stem ≠ [] ∧ '.' ∉ extension ∧
    extension.map Char.toLower = ['x', 'm', 'l']

theorem isXmlName_iff {name : String} : isXmlName name = true ↔ HasXmlExtension name := by
  unfold isXmlName Text.splitLast HasXmlExtension
  constructor
  · intro xml
    cases cut : Text.splitFirst ['.'] name.toList.reverse with
    | none => simp [cut] at xml
    | some parts =>
      obtain ⟨extension, stem⟩ := parts
      have whole := congrArg List.reverse (Text.splitFirst_sound cut)
      have fresh := Text.splitFirst_fresh cut
      simp only [cut, Option.map_some, Bool.and_eq_true, Bool.not_eq_true', beq_iff_eq,
        List.isEmpty_eq_false_iff] at xml
      refine ⟨stem.reverse, extension.reverse, ?_, xml.1, by simpa using fresh, xml.2⟩
      simpa using whole
  · rintro ⟨stem, extension, whole, filled, fresh, lower⟩
    have back : name.toList.reverse = extension.reverse ++ ['.'] ++ stem.reverse := by
      simp [whole]
    rw [back, Text.splitFirst_complete (by simpa using fresh)]
    simp [filled, lower]

theorem xmlFiles_reordered {left right : Directory} (reordered : left.Reordered right)
    (wellFormed : left.WellFormed) : xmlFiles right = xmlFiles left := by
  have same : (xmlFiles right).Perm (xmlFiles left) :=
    ((List.mergeSort_perm _ _).trans (reordered.filesOf_perm.symm.filter _)).trans
      (List.mergeSort_perm _ _).symm
  refine List.Perm.eq_of_pairwise ?_ (xmlFiles_ordered (reordered.wellFormed wellFormed))
    (xmlFiles_ordered wellFormed) same
  intro first second _ _ before after
  exact absurd after (asymm before)

theorem nameBefore_iff_octets {a b : String} : NameBefore a b ↔ Text.OctetsBefore a b := by
  rw [nameBefore_iff, Text.octetsBefore_iff]
  rfl

theorem namesBefore_iff_octets {a b : List String} :
    NamesBefore a b ↔ List.Lex Text.OctetsBefore a b := by
  have same : NameBefore = Text.OctetsBefore := by
    funext a b
    exact propext nameBefore_iff_octets
  rw [namesBefore_iff, same]

/-- The files of a tree that have the extension, in the order of the names that lead to them, each
name by its octets. -/
structure Lists (contents : Directory) (files : List (List String × File)) : Prop where
  members : ∀ names file, (names, file) ∈ files ↔
    contents.Leads names file ∧ ∃ name, names.getLast? = some name ∧ HasXmlExtension name
  ordered : files.Pairwise fun a b => List.Lex Text.OctetsBefore a.1 b.1

theorem xmlFiles_lists {contents : Directory} (wellFormed : contents.WellFormed) :
    Lists contents (xmlFiles contents) where
  members names file := by
    rw [mem_xmlFiles, ← Directory.leads_iff, isXmlFile, Option.any_eq_true]
    simp only [isXmlName_iff]
  ordered := (xmlFiles_ordered wellFormed).imp namesBefore_iff_octets.mp

theorem holds_of_resource? {file : String × File} {resource : Resource} {path : Path}
    (found : resource? file = some resource) (held : resource.holds path = true) :
    resource.id = file.1 ∧ file.2.Holds resource.source path := by
  obtain ⟨id, text, _⟩ := resource?_eq_some_iff.mp found
  obtain ⟨document, read, selects⟩ := Resource.holds_iff.mp held
  exact ⟨id, File.text?_eq_some_iff.mp text, document, Resource.document_ok_iff.mp read, selects⟩

def shows (path : Path) (file : List String × File) : Bool :=
  (resource? (identifier file.1, file.2)).any fun resource => resource.holds path

theorem shows_iff {path : Path} {file : List String × File} :
    shows path file = true ↔ ∃ source, file.2.Holds source path := by
  rw [shows, Option.any_eq_true]
  constructor
  · rintro ⟨resource, found, held⟩
    exact ⟨resource.source, (holds_of_resource? found held).2⟩
  · rintro ⟨source, bytes, document, read, selects⟩
    have text := File.text?_eq_some_iff.mpr bytes
    obtain ⟨resource, found, _, readable⟩ :=
      @resource?_of_read (identifier file.1, file.2) _ _ text read
    exact ⟨resource, found, Resource.holds_iff.mpr ⟨document, readable, selects⟩⟩

theorem retrieved_from_shown (path : Path) (files : List (List String × File)) :
    List.Forall₂
      (fun file resource => resource.id = identifier file.1 ∧ file.2.Holds resource.source path)
      (files.filter (shows path))
      (((files.map fun (names, file) => (identifier names, file)).filterMap resource?).filter
        fun resource => resource.holds path) := by
  induction files with
  | nil => exact .nil
  | cons file rest ih =>
    rw [List.map_cons]
    cases found : resource? (identifier file.1, file.2) with
    | none =>
      have hidden : ¬ shows path file = true := by simp [shows, found]
      rwa [List.filter_cons_of_neg hidden, List.filterMap_cons_none found]
    | some resource =>
      rw [List.filterMap_cons_some found]
      cases held : resource.holds path with
      | false =>
        have hidden : ¬ shows path file = true := by simp [shows, found, held]
        rwa [List.filter_cons_of_neg hidden, List.filter_cons_of_neg (by simp [held])]
      | true =>
        have shown : shows path file = true := by simp [shows, found, held]
        rw [List.filter_cons_of_pos shown, List.filter_cons_of_pos (by exact held)]
        exact .cons (holds_of_resource? found held) ih

namespace Letters

def page : File := ⟨"<p/>".toUTF8, 0⟩

def enumerated : Directory :=
  [("1855", .directory [("a.XML", .file page), ("notes.txt", .file page)]),
    ("1855-56.xml", .file page)]

def enumeratedBack : Directory :=
  [("1855-56.xml", .file page),
    ("1855", .directory [("notes.txt", .file page), ("a.XML", .file page)])]

theorem wellFormed : enumerated.WellFormed := by
  simp [enumerated, Directory.WellFormed, Entry.WellFormed]

theorem reordered : enumerated.Reordered enumeratedBack :=
  .trans (.directory _ (.swap _ _ _) (.file _ _ .nil)) (.swap _ _ _)

theorem listed (collection : Collection) :
    collection.list (some enumerated) = .ok ["1855/a.XML", "1855-56.xml"] := by
  have kept : (filesOf enumerated).filter (fun file => isXmlFile file.1) =
      [(["1855", "a.XML"], page), (["1855-56.xml"], page)] := by
    rfl
  change Except.ok ((inventory enumerated).map Prod.fst) = _
  rw [inventory_of_ordered kept (by rw [List.pairwise_pair]; rfl)]
  rfl

end Letters

/-- A listing has the files of a tree that have the extension, each once, and is the same however
directories are enumerated. What is retrieved and what is modified are parts of it. Its identifiers
need not be in order. -/
theorem answers_of_tree (collection : Collection) :
    (∀ contents : Directory, contents.WellFormed → ∃ files : List (List String × File),
      Lists contents files ∧
      collection.list (some contents) = .ok (files.map fun file => identifier file.1) ∧
      (files.map fun file => identifier file.1).Nodup ∧
      (∀ path, ∃ shown resources,
        (collection.retrieve (some contents) path).result = .ok resources ∧
        shown.Sublist files ∧
        (∀ file ∈ files, file ∈ shown ↔ ∃ source, file.2.Holds source path) ∧
        List.Forall₂
          (fun file resource => resource.id = identifier file.1 ∧
            file.2.Holds resource.source path)
          shown resources) ∧
      (∀ since, collection.modifiedSince (some contents) since =
        .ok ((files.filter fun file => since < file.2.modified).map
          fun file => identifier file.1)) ∧
      ∀ other, contents.Reordered other →
        collection.list (some other) = collection.list (some contents) ∧
        (∀ path, collection.retrieve (some other) path =
          collection.retrieve (some contents) path) ∧
        ∀ since, collection.modifiedSince (some other) since =
          collection.modifiedSince (some contents) since) ∧
    ∃ (contents : Directory) (listing : List String), contents.WellFormed ∧
      collection.list (some contents) = .ok listing ∧ ¬ listing.Pairwise Text.OctetsBefore := by
  refine ⟨?_, ?_⟩
  · intro contents wellFormed
    refine ⟨xmlFiles contents, xmlFiles_lists wellFormed, ?_, ?_, ?_, ?_, ?_⟩
    · simp [list, files, Except.map]
    · simpa [inventory, Function.comp_def] using inventory_apart wellFormed
    · intro path
      refine ⟨(xmlFiles contents).filter (shows path), _, rfl, List.filter_sublist, ?_,
        retrieved_from_shown path _⟩
      intro file member
      rw [List.mem_filter, shows_iff]
      exact and_iff_right member
    · intro since
      simp [modifiedSince, files, Except.map, List.filter_map, Function.comp_def]
    · intro other reordered
      have same : collection.files (some other) = collection.files (some contents) := by
        rw [files, files, xmlFiles_reordered reordered wellFormed]
      simp only [list, retrieve, modifiedSince, same, implies_true, and_self]
  · refine ⟨Letters.enumerated, _, Letters.wellFormed, Letters.listed collection, ?_⟩
    rw [List.pairwise_pair, Text.octetsBefore_iff]
    decide

theorem answers_of_letters :
    Letters.enumerated.WellFormed ∧ Letters.enumerated.Reordered Letters.enumeratedBack ∧
    (∃ files : List (List String × File),
      (["1855", "a.XML"], Letters.page) ∈ files ∧ (["1855", "notes.txt"], Letters.page) ∉ files ∧
      (Collection.mk "briefe").list (some Letters.enumeratedBack) =
        .ok (files.map fun file => identifier file.1)) ∧
    (Collection.mk "briefe").list (some Letters.enumeratedBack) =
      .ok ["1855/a.XML", "1855-56.xml"] := by
  obtain ⟨files, lists, list, -, -, -, independent⟩ :=
    (answers_of_tree ⟨"briefe"⟩).1 Letters.enumerated Letters.wellFormed
  have same := (independent _ Letters.reordered).1
  refine ⟨Letters.wellFormed, Letters.reordered, ⟨files, ?_, ?_, same.trans list⟩,
    same.trans (Letters.listed _)⟩
  · refine (lists.members _ _).mpr ⟨.inside (.head _) (.here (.head _)), "a.XML", rfl, ?_⟩
    exact isXmlName_iff.mp rfl
  · intro member
    obtain ⟨-, name, last, extension⟩ := (lists.members _ _).mp member
    cases last
    exact absurd (isXmlName_iff.mpr extension) Bool.false_ne_true

end Collection
end Regesta
