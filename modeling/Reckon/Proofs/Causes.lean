import Reckon.Proofs.Operations

/-! # What operations can fail with

Each operation has its own causes to fail, whatever its operands are. All of them are causes of arithmetic,
and the only other thing that an instruction can fail with is a name that is not known.
-/
namespace Reckon
set_option autoImplicit false

/-- The kinds of faults that calculations end in. -/
def FaultKind.arithmetic : FaultKind → Bool
  | .divisionByZero | .integerDivisionByZero | .invalidFactorial | .domainError | .overflow => true
  | .unknownFunction | .arityMismatch | .unknownIdentifier | .unmatchedDelimiter | .unexpectedCharacter
  | .trailingInput | .tooDeep => false

theorem Cause.arithmetic_mishap (what : Calculation) (m : Mishap) :
    (Cause.mishap what m).kind.arithmetic = true := by
  cases m <;> rfl

namespace Arithmetic

variable {A : Arithmetic} {a b : Number} {cause : Cause}

theorem cause_of_during {α : Type} {what : Calculation} {result : Except Mishap α}
    (h : during what result = .error (.cause cause)) : ∃ m, cause = .mishap what m := by
  obtain ⟨m, -, hCause⟩ := mapError_eq_error_iff.mp h
  cases hCause
  exact ⟨m, rfl⟩

theorem cause_of_coerce (h : A.coerce a = .error (.cause cause)) : cause = .notReal := by
  unfold coerce at h
  split at h <;> cases h
  rfl

theorem isZero_ne_cause : A.isZero a ≠ .error (.cause cause) := by
  intro h
  unfold isZero at h
  split at h
  · cases h
  · split at h
    · cases h
    · rcases bind_eq_error_iff.mp h with hMagnitude | ⟨r, -, hCompare⟩
      · unfold magnitude at hMagnitude
        split at hMagnitude <;> cases hMagnitude
      · cases hCompare

theorem cause_of_negate (h : A.negate a = .error (.cause cause)) : cause = .notReal := by
  unfold negate at h
  split at h <;> exact cause_of_coerce h

theorem cause_of_div (h : A.div a b = .error (.cause cause)) :
    cause = .divisionByZero ∨ cause = .notReal := by
  rcases bind_eq_error_iff.mp h with hZero | ⟨zero, -, hDivide⟩
  · exact absurd hZero isZero_ne_cause
  · cases zero with
    | true =>
      cases hDivide
      exact .inl rfl
    | false => exact .inr (cause_of_coerce hDivide)

theorem cause_of_floorDiv (h : A.floorDiv a b = .error (.cause cause)) :
    cause = .integerDivisionByZero ∨ cause = .noRealPart ∨ cause = .notReal ∨
      cause = .mishap .integerDivision .zeroDivision := by
  rcases bind_eq_error_iff.mp h with hZero | ⟨zero, -, hDivide⟩
  · exact absurd hZero isZero_ne_cause
  · cases zero with
    | true =>
      cases hDivide
      exact .inl rfl
    | false =>
      simp only [Bool.false_eq_true, if_false] at hDivide
      split at hDivide
      · cases hDivide
      · cases hDivide
        exact .inr (.inr (.inl rfl))
      · split at hDivide
        · cases hDivide
          exact .inr (.inl rfl)
        · split at hDivide <;> cases hDivide
          exact .inr (.inr (.inr rfl))

theorem cause_of_pow (h : A.pow a b = .error (.cause cause)) :
    (∃ m, cause = .mishap .power m) ∨ cause = .notReal := by
  rcases bind_eq_error_iff.mp h with hPower | ⟨c, -, hCoerce⟩
  · exact .inl (cause_of_during hPower)
  · exact .inr (cause_of_coerce hCoerce)

theorem cause_of_root (h : A.root a b = .error (.cause cause)) :
    cause = .divisionByZero ∨ (∃ m, cause = .mishap .power m) ∨ cause = .notReal := by
  rcases bind_eq_error_iff.mp h with hDivide | ⟨c, -, hPower⟩
  · exact (cause_of_div hDivide).imp_right .inr
  · exact .inr (cause_of_pow hPower)

theorem cause_of_factorial {negated : Bool} (h : A.factorial a negated = .error (.cause cause)) :
    cause = .invalidFactorial ∨ (∃ m, cause = .mishap .factorial m) ∨ cause = .notReal := by
  unfold factorial at h
  split at h
  · cases h
    exact .inl rfl
  · rcases bind_eq_error_iff.mp h with hGamma | ⟨c, -, hCoerce⟩
    · exact .inr (.inl (cause_of_during hGamma))
    · exact .inr (.inr (cause_of_coerce hCoerce))

theorem cause_of_unary {f : Unary} (h : A.unary f a = .error (.cause cause)) :
    (∃ m, cause = .mishap (.function f) m) ∨ cause = .notReal := by
  unfold unary at h
  split at h
  · exact .inl (cause_of_during (map_eq_error_iff.mp h))
  · cases h
    exact .inr rfl
  · exact .inl (cause_of_during (map_eq_error_iff.mp h))

end Arithmetic

namespace Expression

variable {A : Arithmetic} {a b : Number} {cause : Cause}

open Arithmetic

theorem Operator.arithmetic_of_apply {op : Operator} (h : op.apply A a b = .error (.cause cause)) :
    cause.kind.arithmetic = true := by
  cases op with
  | add | sub | mul => rw [cause_of_coerce h]; rfl
  | div => rcases cause_of_div h with rfl | rfl <;> rfl
  | floorDiv => rcases cause_of_floorDiv h with rfl | rfl | rfl | rfl <;> rfl
  | pow =>
    rcases cause_of_pow h with ⟨m, rfl⟩ | rfl
    · exact Cause.arithmetic_mishap _ m
    · rfl

/-- An instruction fails in its calculation or because it asks for a constant that the mode has not. -/
theorem Action.cause_of_apply {action : Action} {stack : Stack}
    (h : action.apply A stack = .error (.cause cause)) : cause.kind.arithmetic = true ∨
      ∃ name, action = .constant name ∧ Constant.ofName? A.mode name = none ∧
        cause = .unknownIdentifier name := by
  unfold Action.apply at h
  split at h
  · rw [cause_of_coerce (map_eq_error_iff.mp h)]
    exact .inl rfl
  · split at h
    · cases h
    · rename_i name _ hUnknown
      cases h
      exact .inr ⟨name, rfl, hUnknown, rfl⟩
  · exact .inl (Operator.arithmetic_of_apply (map_eq_error_iff.mp h))
  · rw [cause_of_negate (map_eq_error_iff.mp h)]
    exact .inl rfl
  · left
    rcases cause_of_factorial (map_eq_error_iff.mp h) with rfl | ⟨m, rfl⟩ | rfl
    · rfl
    · exact Cause.arithmetic_mishap _ m
    · rfl
  · rw [cause_of_coerce (map_eq_error_iff.mp h)]
    exact .inl rfl
  · left
    rcases cause_of_unary (map_eq_error_iff.mp h) with ⟨m, rfl⟩ | rfl
    · exact Cause.arithmetic_mishap _ m
    · rfl
  · left
    rcases cause_of_root (map_eq_error_iff.mp h) with rfl | ⟨m, rfl⟩ | rfl
    · rfl
    · exact Cause.arithmetic_mishap _ m
    · rfl
  · cases h

end Expression
end Reckon
