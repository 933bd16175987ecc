import Mathlib.Data.List.Forall2

namespace Regesta

variable {ε α β : Type}

@[simp] theorem bind_ok_iff {first : Except ε α} {next : α → Except ε β} {result : β} :
    (first >>= next) = .ok result ↔ ∃ value, first = .ok value ∧ next value = .ok result := by
  cases first <;> simp [Bind.bind, Except.bind]

@[simp] theorem map_ok_iff {first : Except ε α} {change : α → β} {result : β} :
    first.map change = .ok result ↔ ∃ value, first = .ok value ∧ change value = result := by
  cases first <;> simp [Except.map]

theorem bind_succeeds_iff {first : Except ε α} {next : α → Except ε β} :
    (∃ result, (first >>= next) = .ok result) ↔
      ∃ value, first = .ok value ∧ ∃ result, next value = .ok result := by
  cases first <;> simp [Bind.bind, Except.bind]

theorem bind_error_iff {first : Except ε α} {next : α → Except ε β} {error : ε} :
    (first >>= next) = .error error ↔
      first = .error error ∨ ∃ value, first = .ok value ∧ next value = .error error := by
  cases first <;> simp [Bind.bind, Except.bind]

theorem mapM_ok_iff {items : List α} {action : α → Except ε β} {results : List β} :
    items.mapM action = .ok results ↔
      List.Forall₂ (fun item result => action item = .ok result) items results := by
  induction items generalizing results with
  | nil =>
    rw [List.mapM_nil, List.forall₂_nil_left_iff]
    exact ⟨fun same => (Except.ok.inj same).symm, fun same => same ▸ rfl⟩
  | cons item rest ih =>
    rw [List.mapM_cons, bind_ok_iff, List.forall₂_cons_left_iff]
    constructor
    · intro ⟨value, first, later⟩
      obtain ⟨values, others, same⟩ := bind_ok_iff.mp later
      exact ⟨value, values, first, ih.mp others, (Except.ok.inj same).symm⟩
    · intro found
      obtain ⟨value, values, first, others, rfl⟩ := found
      exact ⟨value, first, bind_ok_iff.mpr ⟨values, ih.mpr others, rfl⟩⟩

theorem mapM_succeeds_iff {items : List α} {action : α → Except ε β} :
    (∃ results, items.mapM action = .ok results) ↔
      ∀ item ∈ items, ∃ result, action item = .ok result := by
  induction items with
  | nil => exact ⟨fun _ _ member => absurd member List.not_mem_nil, fun _ => ⟨[], rfl⟩⟩
  | cons item rest ih =>
    rw [List.forall_mem_cons, ← ih]
    constructor
    · intro ⟨results, whole⟩
      rw [List.mapM_cons] at whole
      obtain ⟨value, first, later⟩ := bind_ok_iff.mp whole
      obtain ⟨values, others, _⟩ := bind_ok_iff.mp later
      exact ⟨⟨value, first⟩, ⟨values, others⟩⟩
    · intro ⟨⟨value, first⟩, ⟨values, others⟩⟩
      refine ⟨value :: values, ?_⟩
      rw [List.mapM_cons, first]
      exact bind_ok_iff.mpr ⟨value, rfl, bind_ok_iff.mpr ⟨values, others, rfl⟩⟩

theorem mapM_error {items : List α} {action : α → Except ε β} {error : ε}
    (failed : items.mapM action = .error error) : ∃ item ∈ items, action item = .error error := by
  induction items with
  | nil => cases failed
  | cons item rest ih =>
    rw [List.mapM_cons, bind_error_iff] at failed
    rcases failed with first | ⟨value, _, later⟩
    · exact ⟨item, List.mem_cons_self, first⟩
    · rcases bind_error_iff.mp later with others | ⟨values, _, impossible⟩
      · obtain ⟨other, among, found⟩ := ih others
        exact ⟨other, List.mem_cons_of_mem _ among, found⟩
      · cases impossible

end Regesta
