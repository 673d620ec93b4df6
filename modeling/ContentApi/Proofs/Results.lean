/-! When results that are put to further use succeed. -/

namespace ContentApi

variable {ε ε' α β : Type}

/-- A chain succeeds if its first link does and the rest does after it. -/
theorem bind_ok_iff {result : Except ε α} {next : α → Except ε β} {value : β} :
    result.bind next = .ok value ↔ ∃ first, result = .ok first ∧ next first = .ok value := by
  cases result <;> simp [Except.bind]

/-- A chain fails if its first link does, or the rest does after it. -/
theorem bind_error_iff {result : Except ε α} {next : α → Except ε β} {fault : ε} :
    result.bind next = .error fault ↔
      result = .error fault ∨ ∃ first, result = .ok first ∧ next first = .error fault := by
  -- A failed first link fails the chain, and a successful one leaves it to the rest.
  cases result <;> simp [Except.bind]

/-- A mapped result succeeds if the result does. -/
theorem map_ok_iff {result : Except ε α} {f : α → β} {value : β} :
    result.map f = .ok value ↔ ∃ first, result = .ok first ∧ f first = value := by
  cases result <;> simp [Except.map]

/-- A mapped result fails as the result does. -/
theorem map_error_iff {result : Except ε α} {f : α → β} {fault : ε} :
    result.map f = .error fault ↔ result = .error fault := by
  cases result <;> simp [Except.map]

/-- A result that succeeds has no failure to put differently. -/
@[simp] theorem mapError_ok {f : ε → ε'} {value : α} :
    (Except.ok value : Except ε α).mapError f = .ok value := rfl

/-- A result whose failure is put differently succeeds as before. -/
theorem mapError_ok_iff {result : Except ε α} {f : ε → ε'} {value : α} :
    result.mapError f = .ok value ↔ result = .ok value := by
  cases result with
  | ok first => simp
  | error fault => exact ⟨nofun, nofun⟩

/-- A result whose failure is put differently fails as it did, put differently. -/
theorem mapError_error_iff {result : Except ε α} {f : ε → ε'} {fault : ε'} :
    result.mapError f = .error fault ↔ ∃ cause, result = .error cause ∧ f cause = fault := by
  -- A value is no failure, whatever is made of failures.
  cases result with
  | ok first => exact ⟨nofun, nofun⟩
  | error cause =>
    show Except.error (f cause) = .error fault ↔ _
    simp

/-- A result comes to a value if it succeeds with that. -/
theorem toOption_eq_some {result : Except ε α} {value : α} :
    result.toOption = some value ↔ result = .ok value := by
  cases result <;> simp [Except.toOption]

/-- Two results that succeed with the same values come to the same, apart from how they fail. -/
theorem toOption_congr {result : Except ε α} {other : Except ε' α}
    (same : ∀ value, result = .ok value ↔ other = .ok value) :
    result.toOption = other.toOption :=
  Option.ext fun value => toOption_eq_some.trans ((same value).trans toOption_eq_some.symm)

end ContentApi
