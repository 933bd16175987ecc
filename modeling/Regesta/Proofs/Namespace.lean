import Regesta.Proofs.Except
import Regesta.Proofs.Path.Grammar
import Regesta.Proofs.Text.Split

namespace Regesta.Namespaces

open Xml (ExpandedName)

variable (namespaces : Namespaces)

@[simp] theorem resolve_ok_iff (label : List Char) (uri : String) :
    namespaces.resolve (String.ofList label) = .ok uri ↔ namespaces.Binds label uri := by
  unfold resolve
  by_cases reserved : String.ofList label = "xml"
  · have text : label = "xml".toList := by
      have same := congrArg String.toList reserved
      rwa [String.toList_ofList] at same
    rw [if_pos reserved]
    constructor
    · intro same
      cases same
      exact text ▸ .reserved
    · intro binds
      cases binds with
      | reserved => rfl
      | declared other _ => exact absurd reserved other
  · rw [if_neg reserved]
    constructor
    · intro found
      cases declared : namespaces.declared? (String.ofList label) with
      | none => simp [declared] at found
      | some stored =>
        simp only [declared, Except.ok.injEq] at found
        exact .declared reserved (found ▸ declared)
    · intro binds
      cases binds with
      | reserved => exact absurd (String.ofList_toList) reserved
      | declared _ declared => rw [declared]

@[simp] theorem checkedName_ok_iff (uri : Option String) (stem whole : List Char)
    (name : ExpandedName) :
    checkedName uri stem whole = .ok name ↔ IsLocal stem ∧ name = ⟨uri, String.ofList stem⟩ := by
  have checks : (stem.isEmpty || stem.any isForbidden) = true ↔ ¬ IsLocal stem := by
    simp only [IsLocal, Bool.or_eq_true, List.isEmpty_iff, List.any_eq_true, not_and, ne_eq]
    constructor
    · rintro (rfl | ⟨c, member, forbidden⟩) filled free
      · exact filled rfl
      · rw [free c member] at forbidden
        cases forbidden
    · intro broken
      by_cases filled : stem = []
      · exact .inl filled
      · right
        by_contra free
        apply broken filled
        intro c member
        by_contra forbidden
        exact free ⟨c, member, by simpa using forbidden⟩
  unfold checkedName
  by_cases fits : IsLocal stem
  · have fine : ¬ (stem.isEmpty || stem.any isForbidden) = true := fun bad => checks.mp bad fits
    rw [if_neg fine, Except.ok.injEq]
    exact ⟨fun same => ⟨fits, same.symm⟩, fun both => both.2.symm⟩
  · rw [if_pos (checks.mpr fits)]
    constructor
    · intro refused; cases refused
    · intro both; exact absurd both.1 fits

theorem IsLocal.not_mem {stem : List Char} (fits : IsLocal stem) {c : Char}
    (forbidden : isForbidden c = true) : c ∉ stem := by
  intro member
  rw [fits.2 c member] at forbidden
  cases forbidden

theorem tight_braced {uri stem : List Char} (filled : stem ≠ [])
    (last : ∀ c, stem.getLast? = some c → Text.isBlank c = false) :
    Text.Tight ('{' :: uri ++ '}' :: stem) := by
  constructor
  · intro c first
    cases first
    decide
  · intro c final
    apply last c
    rwa [List.getLast?_append_cons, List.getLast?_cons_of_ne_nil filled] at final

@[simp] theorem trimmedName_ok_iff (text : List Char) (name : ExpandedName) :
    namespaces.trimmedName text = .ok name ↔ namespaces.Spells text name := by
  constructor
  · intro read
    unfold trimmedName at read
    split at read
    · next rest =>
      split at read
      · cases read
      · next uri stem cut =>
        obtain ⟨fits, rfl⟩ := (checkedName_ok_iff _ _ _ _).mp read
        have parts := Text.splitFirst_sound cut
        rw [List.append_assoc, List.singleton_append] at parts
        rw [parts]
        exact .braced (Text.splitFirst_fresh cut) fits
    · next plain =>
      split at read
      · obtain ⟨fits, rfl⟩ := (checkedName_ok_iff _ _ _ _).mp read
        exact .plain fits
      · next label stem cut =>
        obtain ⟨uri, resolved, checked⟩ := bind_ok_iff.mp read
        obtain ⟨fits, rfl⟩ := (checkedName_ok_iff _ _ _ _).mp checked
        have parts := Text.splitFirst_sound cut
        rw [List.append_assoc, List.singleton_append] at parts
        subst parts
        refine .labelled ?_ (Text.splitFirst_fresh cut) ((resolve_ok_iff _ _ _).mp resolved) fits
        intro brace
        cases label with
        | nil => cases brace
        | cons c rest =>
          cases brace
          exact plain _ rfl
  · intro spells
    cases spells with
    | @plain stem fits =>
      have whole : Text.splitFirst [':'] text = none := Text.splitFirst_none (fits.not_mem rfl)
      have checked := (checkedName_ok_iff none text text _).mpr ⟨fits, rfl⟩
      unfold trimmedName
      split
      · exact absurd List.mem_cons_self (fits.not_mem rfl)
      · rw [whole]
        exact checked
    | @labelled label stem uri bare fresh binds fits =>
      have cut : Text.splitFirst [':'] (label ++ ':' :: stem) = some (label, stem) := by
        have found : Text.splitFirst [':'] (label ++ [':'] ++ stem) = some (label, stem) :=
          Text.splitFirst_complete fresh
        rwa [List.append_assoc, List.singleton_append] at found
      unfold trimmedName
      split
      · next rest same =>
        cases label with
        | nil => cases same
        | cons c others =>
          cases same
          exact absurd rfl bare
      · rw [cut]
        exact bind_ok_iff.mpr ⟨uri, (resolve_ok_iff _ _ _).mpr binds,
          (checkedName_ok_iff _ _ _ _).mpr ⟨fits, rfl⟩⟩
    | @braced uri stem fresh fits =>
      have cut : Text.splitFirst ['}'] (uri ++ '}' :: stem) = some (uri, stem) := by
        have found : Text.splitFirst ['}'] (uri ++ ['}'] ++ stem) = some (uri, stem) :=
          Text.splitFirst_complete fresh
        rwa [List.append_assoc, List.singleton_append] at found
      rw [List.cons_append, trimmedName, cut]
      exact (checkedName_ok_iff _ _ _ _).mpr ⟨fits, rfl⟩

@[simp] theorem name_spelled_iff (text : String) (name : ExpandedName) :
    namespaces.name text = .ok name ↔ namespaces.Spells (Text.trim text.toList) name :=
  namespaces.trimmedName_ok_iff _ name

end Regesta.Namespaces
