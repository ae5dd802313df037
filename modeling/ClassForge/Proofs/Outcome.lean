/-! # Computations that succeed

A computation in steps succeeds if each step does, and its result comes from theirs.
-/

namespace ClassForge

variable {ε α β : Type}

@[simp] theorem ok_bind (value : α) (next : α → Except ε β) : (Except.ok value >>= next) = next value :=
  rfl

@[simp] theorem error_bind (cause : ε) (next : α → Except ε β) : (Except.error cause >>= next) = .error cause :=
  rfl

@[simp] theorem mapError_ok {δ : Type} (wrap : ε → δ) (value : α) :
    (Except.ok value : Except ε α).mapError wrap = .ok value :=
  rfl

theorem eq_ok_of_mapError {δ : Type} {wrap : ε → δ} {step : Except ε α} {value : α}
    (success : step.mapError wrap = .ok value) : step = .ok value := by
  cases step with
  | error => cases success
  | ok => exact congrArg Except.ok (Except.ok.inj success)

theorem bind_eq_ok {step : Except ε α} {next : α → Except ε β} {result : β}
    (success : (step >>= next) = .ok result) : ∃ value, step = .ok value ∧ next value = .ok result := by
  cases step with
  | error => cases success
  | ok value => exact ⟨value, rfl, success⟩

theorem mapM_cons_eq_ok {read : α → Except ε β} {first : α} {rest : List α} {results : List β}
    (success : (first :: rest).mapM read = .ok results) :
    ∃ result others, read first = .ok result ∧ rest.mapM read = .ok others ∧ results = result :: others := by
  rw [List.mapM_cons] at success
  obtain ⟨result, front, made⟩ := bind_eq_ok success
  obtain ⟨others, back, made⟩ := bind_eq_ok made
  exact ⟨result, others, front, back, (Except.ok.inj made).symm⟩

theorem exists_of_mem_mapM {read : α → Except ε β} {values : List α} {results : List β}
    (success : values.mapM read = .ok results) {result : β} (member : result ∈ results) :
    ∃ value ∈ values, read value = .ok result := by
  induction values generalizing results with
  | nil =>
    obtain rfl := Except.ok.inj success
    cases member
  | cons value rest ih =>
    obtain ⟨first, others, front, back, rfl⟩ := mapM_cons_eq_ok success
    rcases List.mem_cons.mp member with rfl | member
    · exact ⟨value, List.mem_cons_self, front⟩
    · obtain ⟨found, inside, read⟩ := ih back member
      exact ⟨found, List.mem_cons_of_mem _ inside, read⟩

/-! ## Computations that fail -/

/-- Why a computation failed, if it did. -/
def failure? : Except ε α → Option ε
  | .error cause => some cause
  | .ok _ => none

theorem failure?_eq_some_iff {step : Except ε α} {cause : ε} : failure? step = some cause ↔ step = .error cause := by
  cases step <;> simp [failure?]

theorem failure?_eq_none_iff {step : Except ε α} : failure? step = none ↔ ∃ value, step = .ok value := by
  cases step <;> simp [failure?]

theorem failure?_map (step : Except ε α) (turn : α → β) : failure? (turn <$> step) = failure? step := by
  cases step <;> rfl

/-- Behind the last step that may fail, nothing fails. -/
theorem failure?_bind_pure (step : Except ε α) (turn : α → β) :
    failure? (step >>= fun value => pure (turn value)) = failure? step := by
  cases step <;> rfl

/-- A computation on a list fails as it does on the first value where it fails. -/
theorem failure?_mapM (read : α → Except ε β) (values : List α) :
    failure? (values.mapM read) = values.findSome? fun value => failure? (read value) := by
  induction values with
  | nil => rfl
  | cons value rest ih =>
    rw [List.mapM_cons, List.findSome?_cons, ← ih]
    cases read value with
    | error cause => rfl
    | ok result => exact failure?_bind_pure _ _

end ClassForge
