import Regesta.Proofs.Except
import Regesta.Warning

namespace Regesta.Reported

variable {α β : Type}

-- How work ends is told by its parts alone; what they warn of has no say in it.
@[simp] theorem pure_result (value : α) : (pure value : Reported α).result = .ok value := rfl

@[simp] theorem fail_result (error : Error) : (fail error : Reported α).result = .error error := rfl

@[simp] theorem warn_result (warning : Warning) : (warn warning).result = .ok () := rfl

@[simp] theorem ofExcept_result (outcome : Except Error α) : (ofExcept outcome).result = outcome :=
  rfl

@[simp] theorem bind_result (first : Reported α) (next : α → Reported β) :
    (first >>= next).result = first.result >>= fun value => (next value).result := by
  change (Reported.bind first next).result = _
  unfold Reported.bind
  cases first.result <;> rfl

@[simp] theorem forEach_result (items : List α) (action : α → Reported β) :
    (forEach items action).result = items.mapM fun item => (action item).result := by
  induction items with
  | nil => rfl
  | cons item rest ih =>
    change (action item >>= fun first => forEach rest action >>= fun others =>
      pure (first :: others)).result = _
    simp only [bind_result, ih, List.mapM_cons]
    rfl

@[simp] theorem pure_warnings (value : α) : (pure value : Reported α).warnings = [] := rfl

@[simp] theorem ofExcept_warnings (outcome : Except Error α) : (ofExcept outcome).warnings = [] :=
  rfl

theorem pure_ok_iff {value result : α} :
    (pure value : Reported α).result = .ok result ↔ value = result := by
  rw [pure_result, Except.ok.injEq]

theorem bind_ok_iff {first : Reported α} {next : α → Reported β} {result : β} :
    (first >>= next).result = .ok result ↔
      ∃ value, first.result = .ok value ∧ (next value).result = .ok result := by
  rw [bind_result, Regesta.bind_ok_iff]

theorem map_ok_iff {first : Reported α} {change : α → β} {result : β} :
    (first >>= fun value => pure (change value)).result = .ok result ↔
      ∃ value, first.result = .ok value ∧ change value = result := by
  simp only [bind_ok_iff, pure_ok_iff]

theorem bind_error {first : Reported α} {error : Error} (next : α → Reported β)
    (failed : first.result = .error error) : (first >>= next).result = .error error := by
  rw [bind_result, failed]
  rfl

theorem bind_warnings {first : Reported α} {next : α → Reported β} {value : α}
    (done : first.result = .ok value) :
    (first >>= next).warnings = first.warnings ++ (next value).warnings := by
  change (Reported.bind first next).warnings = _
  simp only [Reported.bind, done]

theorem bind_warnings_error {first : Reported α} {error : Error} (next : α → Reported β)
    (failed : first.result = .error error) : (first >>= next).warnings = first.warnings := by
  change (Reported.bind first next).warnings = _
  simp only [Reported.bind, failed]

theorem map_warnings (first : Reported α) (change : α → β) :
    (first >>= fun value => pure (change value)).warnings = first.warnings := by
  cases done : first.result with
  | error error => exact bind_warnings_error _ done
  | ok value => rw [bind_warnings done, pure_warnings, List.append_nil]

theorem forEach_ok_iff {items : List α} {action : α → Reported β} {results : List β} :
    (forEach items action).result = .ok results ↔
      List.Forall₂ (fun item result => (action item).result = .ok result) items results := by
  rw [forEach_result, mapM_ok_iff]

theorem forEach_total {items : List α} {action : α → Reported β} {value : α → β}
    (each : ∀ item ∈ items, (action item).result = .ok (value item)) :
    (forEach items action).result = .ok (items.map value) := by
  rw [forEach_ok_iff, List.forall₂_map_right_iff, List.forall₂_same]
  exact each

/-- All of some warnings are given by work that ends well, and the first of them by work that fails
on its way. -/
structure Recounts (work : Reported α) (warnings : List Warning) : Prop where
  begins : work.warnings <+: warnings
  ends : ∀ value, work.result = .ok value → work.warnings = warnings

namespace Recounts

variable {work : Reported α} {warnings later : List Warning} {next : α → Reported β}

theorem ofExcept (outcome : Except Error α) : Recounts (ofExcept outcome) [] :=
  ⟨List.nil_prefix, fun _ _ => rfl⟩

theorem pure (value : α) : Recounts (Pure.pure value) [] := ofExcept (.ok value)

theorem fail (error : Error) (warnings : List Warning) :
    Recounts (fail error : Reported α) warnings :=
  ⟨List.nil_prefix, fun _ done => by cases done⟩

theorem bind (first : Recounts work warnings) (second : ∀ value, Recounts (next value) later) :
    Recounts (work >>= next) (warnings ++ later) := by
  cases done : work.result with
  | error error =>
    constructor
    · rw [bind_warnings_error next done]
      exact first.begins.trans (List.prefix_append _ _)
    · intro ended finished
      rw [bind_error next done] at finished
      cases finished
  | ok value =>
    have whole := first.ends value done
    constructor
    · rw [bind_warnings done, whole, List.prefix_append_right_inj]
      exact (second value).begins
    · intro ended finished
      rw [bind_result, done] at finished
      rw [bind_warnings done, whole, (second value).ends ended finished]

theorem after {outcome : Except Error α} (second : ∀ value, Recounts (next value) warnings) :
    Recounts (Reported.ofExcept outcome >>= next) warnings :=
  (ofExcept outcome).bind second

theorem before (first : Recounts work warnings) (second : ∀ value, Recounts (next value) []) :
    Recounts (work >>= next) warnings := by
  have whole := first.bind second
  rwa [List.append_nil] at whole

end Recounts

end Regesta.Reported
