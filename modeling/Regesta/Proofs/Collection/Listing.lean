import Mathlib.Data.List.Lex
import Mathlib.Data.List.Sort
import Regesta.Proofs.Files.Tree
import Regesta.Proofs.Snapshot.Scan
import Regesta.Proofs.Text.Split

namespace Regesta.Collection

def CharBefore (c d : Char) : Prop := c.toNat < d.toNat

def NameBefore (a b : String) : Prop := nameBefore a b = true

def NamesBefore (a b : List String) : Prop := namesBefore a b = true

instance : IsOrderConnected Char CharBefore := ⟨fun a b c before => by
  unfold CharBefore at *
  omega⟩

instance : Std.Trichotomous CharBefore := ⟨fun a b left right => by
  unfold CharBefore at *
  exact Char.toNat_inj.mp (by omega)⟩

instance : Std.Asymm CharBefore := ⟨fun a b before => by
  unfold CharBefore at *
  omega⟩

theorem nameBefore_iff {a b : String} : NameBefore a b ↔ List.Lex CharBefore a.toList b.toList := by
  rw [NameBefore, nameBefore, List.lex_eq_true_iff_lex]
  simp only [decide_eq_true_eq]
  rfl

instance : IsOrderConnected String NameBefore := ⟨fun a b c before => by
  simp only [nameBefore_iff] at *
  exact IsOrderConnected.conn _ _ _ before⟩

instance : Std.Trichotomous NameBefore := ⟨fun a b left right => by
  simp only [nameBefore_iff] at *
  exact String.toList_inj.mp (Std.Trichotomous.trichotomous _ _ left right)⟩

instance : Std.Asymm NameBefore := ⟨fun a b before => by
  simp only [nameBefore_iff] at *
  exact asymm before⟩

theorem namesBefore_iff {a b : List String} : NamesBefore a b ↔ List.Lex NameBefore a b := by
  rw [NamesBefore, namesBefore, List.lex_eq_true_iff_lex]
  rfl

instance : IsOrderConnected (List String) NamesBefore := ⟨fun a b c before => by
  simp only [namesBefore_iff] at *
  exact IsOrderConnected.conn _ _ _ before⟩

instance : Std.Trichotomous NamesBefore := ⟨fun a b left right => by
  simp only [namesBefore_iff] at *
  exact Std.Trichotomous.trichotomous _ _ left right⟩

instance : Std.Asymm NamesBefore := ⟨fun a b before => by
  simp only [namesBefore_iff] at *
  exact asymm before⟩

@[simp] theorem mem_xmlFiles {contents : Directory} {file : List String × File} :
    file ∈ xmlFiles contents ↔ file ∈ filesOf contents ∧ isXmlFile file.1 = true := by
  rw [xmlFiles, List.mem_mergeSort, List.mem_filter]

theorem xmlFiles_ordered {contents : Directory} (wellFormed : contents.WellFormed) :
    (xmlFiles contents).Pairwise fun a b => NamesBefore a.1 b.1 := by
  have apart : (xmlFiles contents).Pairwise fun a b => a.1 ≠ b.1 := by
    refine (List.mergeSort_perm _ _).symm.pairwise ?_ fun differ => differ.symm
    exact (Directory.filesOf_apart contents wellFormed).filter _
  have sorted : (xmlFiles contents).Pairwise fun a b => (!namesBefore b.1 a.1) = true := by
    apply List.pairwise_mergeSort
    · intro a b c first second
      rw [Bool.not_eq_true', ← Bool.not_eq_true] at *
      intro before
      have connected : NamesBefore c.1 b.1 ∨ NamesBefore b.1 a.1 :=
        IsOrderConnected.conn _ _ _ before
      rcases connected with late | early
      · exact second late
      · exact first early
    · intro a b
      rw [Bool.or_eq_true, Bool.not_eq_true', Bool.not_eq_true', ← Bool.not_eq_true,
        ← Bool.not_eq_true]
      by_cases before : NamesBefore b.1 a.1
      · have after : ¬ NamesBefore a.1 b.1 := asymm before
        exact .inr after
      · exact .inl before
  refine (sorted.and apart).imp ?_
  rintro a b ⟨early, differ⟩
  rw [Bool.not_eq_true', ← Bool.not_eq_true] at early
  by_contra late
  exact differ (Std.Trichotomous.trichotomous a.1 b.1 late early)

theorem xmlFiles_sublist {before after : Directory} (wellFormed : before.WellFormed)
    (still : after.WellFormed) (kept : ∀ file ∈ xmlFiles after, file ∈ xmlFiles before) :
    (xmlFiles after).Sublist (xmlFiles before) := by
  have antisymmetric : Std.Antisymm fun a b : List String × File => NamesBefore a.1 b.1 :=
    ⟨fun a b first second => absurd second (asymm first)⟩
  have apart : (xmlFiles after).Nodup :=
    (List.mergeSort_perm _ _).nodup_iff.mpr (still.nodup.filter _)
  exact List.sublist_of_subperm_of_pairwise (List.subperm_of_subset apart kept)
    (xmlFiles_ordered still) (xmlFiles_ordered wellFormed)

theorem inventory_sublist {before after : Directory} (wellFormed : before.WellFormed)
    (still : after.WellFormed) (kept : ∀ file ∈ xmlFiles after, file ∈ xmlFiles before) :
    (inventory after).Sublist (inventory before) :=
  (xmlFiles_sublist wellFormed still kept).map _

/-- Names without slashes are known by the identifier that they make. -/
theorem identifier_injective {left right : List String} (leftFilled : left ≠ [])
    (rightFilled : right ≠ []) (leftSlashless : ∀ name ∈ left, '/' ∉ name.toList)
    (rightSlashless : ∀ name ∈ right, '/' ∉ name.toList)
    (same : identifier left = identifier right) : left = right := by
  have parts : ∀ names : List String, names ≠ [] → (∀ name ∈ names, '/' ∉ name.toList) →
      Text.splitEvery '/' (identifier names).toList = names.map String.toList := by
    intro names filled slashless
    have separator : "/".toList = ['/'] := by decide
    rw [identifier, String.toList_intercalate, separator, Text.splitEvery_intercalate]
    · simpa using filled
    · simpa using slashless
  have whole := parts left leftFilled leftSlashless
  rw [same, parts right rightFilled rightSlashless] at whole
  have injective : Function.Injective String.toList := fun _ _ => String.toList_injective
  exact (List.map_injective_iff.mpr injective whole).symm

theorem inventory_apart {contents : Directory} (wellFormed : contents.WellFormed) :
    ((inventory contents).map Prod.fst).Nodup := by
  rw [inventory, List.map_map, List.Nodup, List.pairwise_map]
  refine (xmlFiles_ordered wellFormed).imp_of_mem ?_
  rintro ⟨left, file⟩ ⟨right, other⟩ first second before same
  have filled : ∀ names file, (names, file) ∈ xmlFiles contents → names ≠ [] := by
    rintro names file member rfl
    exact absurd (mem_xmlFiles.mp member).1 (nil_not_mem_filesOf _ _)
  have slashless : ∀ names file, (names, file) ∈ xmlFiles contents →
      ∀ name ∈ names, '/' ∉ name.toList :=
    fun names file member => wellFormed.slashless (mem_xmlFiles.mp member).1
  have equal := identifier_injective (filled _ _ first) (filled _ _ second) (slashless _ _ first)
    (slashless _ _ second) same
  subst equal
  exact asymm before before

end Regesta.Collection
