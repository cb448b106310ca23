import Reckon.Evaluation
import Reckon.Proofs.FaultKinds
import Reckon.Proofs.Complex.RealAxis

/-! # Which real divisors are refused

In complex arithmetic a division refuses a real divisor below `epsilon` and an integer division also the one
that is just `epsilon` away from zero.
-/
namespace Reckon
set_option autoImplicit false

namespace Arithmetic

variable {A : Arithmetic} {a : Number} {z : Complex}

/-- On the real axis the distance from zero is the size of the real part. -/
theorem isZero_axis (hMode : A.mode = .complex) (hFinite : z.re.isFinite = true)
    (hReal : (z.im == 0) = true) :
    A.isZero (.complex z) = .ok (decide ((z.re == 0) = true ∨ z.re.abs < A.epsilon)) := by
  have hAxis : Complex.OnAxis z.re z := ⟨.refl _, _, Binary64.eq_zero_of_beq_zero hReal⟩
  rw [isZero, hMode]
  dsimp only
  cases hZero : z.re == 0 with
  | true =>
    have hNumber : (Number.complex z).isZero = true := Bool.and_eq_true_iff.mpr ⟨hZero, hReal⟩
    rw [if_pos hNumber, decide_eq_true (.inl rfl)]
    rfl
  | false =>
    have hOrdinary := Binary64.ordinary_of_finite hFinite hZero
    have hNumber : (Number.complex z).isZero = false := Complex.isZero_of_ordinary hOrdinary
    rw [hNumber, magnitude, Number.magnitude?, hAxis.modulus hOrdinary]
    simp [pure, Except.pure]

theorem div_refuses_iff (hMode : A.mode = .complex) (hFinite : z.re.isFinite = true)
    (hReal : (z.im == 0) = true) :
    FailsAs .divisionByZero (A.div a (.complex z)) ↔ (z.re == 0) = true ∨ z.re.abs < A.epsilon := by
  rw [div, isZero_axis hMode hFinite hReal, ok_bind]
  by_cases hRefused : (z.re == 0) = true ∨ z.re.abs < A.epsilon
  · rw [decide_eq_true hRefused]
    exact iff_of_true ⟨_, rfl, rfl⟩ hRefused
  · rw [decide_eq_false hRefused, coerce.eq_def, hMode]
    refine iff_of_false ?_ hRefused
    rintro ⟨cause, ⟨⟩, -⟩

/-- Behind the test that both divisions make, an integer division asks for a real part beyond `epsilon`. -/
theorem floorDiv_refuses_iff (hMode : A.mode = .complex) (hEpsilon : 0 ≤ A.epsilon)
    (hFinite : z.re.isFinite = true) (hReal : (z.im == 0) = true) :
    FailsAs .integerDivisionByZero (A.floorDiv a (.complex z)) ↔ z.re.abs ≤ A.epsilon := by
  rw [floorDiv, isZero_axis hMode hFinite hReal, ok_bind, hMode]
  by_cases hRefused : (z.re == 0) = true ∨ z.re.abs < A.epsilon
  · rw [decide_eq_true hRefused]
    refine iff_of_true ⟨_, rfl, rfl⟩ ?_
    rcases hRefused with hZero | hBelow
    · rw [Binary64.eq_zero_of_beq_zero hZero, Binary64.abs_zero]
      exact hEpsilon
    · exact Binary64.le_iff_lt_or_beq.mpr (.inl hBelow)
  · rw [decide_eq_false hRefused, if_neg Bool.false_ne_true]
    by_cases hNear : (Number.complex z).re.abs ≤ A.epsilon
    · refine iff_of_true ⟨.noRealPart, ?_, rfl⟩ hNear
      exact if_pos hNear
    · refine iff_of_false ?_ hNear
      dsimp only
      rw [if_neg hNear, re_ne_zero hEpsilon hNear]
      rintro ⟨cause, ⟨⟩, -⟩

/-- An integer division refuses every real divisor that a division refuses, and besides only the two that
    are just `epsilon` away from zero. -/
theorem refused_real_divisors (A : Arithmetic) (hMode : A.mode = .complex) (hEpsilon : 0 ≤ A.epsilon)
    (a : Number) (z : Complex) (hFinite : z.re.isFinite = true) (hReal : (z.im == 0) = true) :
    (FailsAs .divisionByZero (A.div a (.complex z)) ↔ (z.re == 0) = true ∨ z.re.abs < A.epsilon) ∧
    (FailsAs .integerDivisionByZero (A.floorDiv a (.complex z)) ↔
      FailsAs .divisionByZero (A.div a (.complex z)) ∨ (z.re.abs == A.epsilon) = true) := by
  refine ⟨div_refuses_iff hMode hFinite hReal, ?_⟩
  rw [floorDiv_refuses_iff hMode hEpsilon hFinite hReal, div_refuses_iff hMode hFinite hReal,
    Binary64.le_iff_lt_or_beq]
  constructor
  · rintro (hBelow | hEqual)
    · exact .inl (.inr hBelow)
    · exact .inr hEqual
  · rintro ((hZero | hBelow) | hEqual)
    · rw [Binary64.eq_zero_of_beq_zero hZero, Binary64.abs_zero]
      exact Binary64.le_iff_lt_or_beq.mp hEpsilon
    · exact .inl hBelow
    · exact .inr hEqual

theorem refused_real_divisors_epsilon :
    (0 : Float) ≤ defaultEpsilon ∧ Float.isFinite 1e-12 = true ∧ ((0 : Float) == 0) = true ∧
      FailsAs .integerDivisionByZero
        (floorDiv ⟨.complex, defaultEpsilon⟩ (.complex ⟨1, 0⟩) (.complex ⟨1e-12, 0⟩)) := by
  have hEpsilon : (0 : Float) ≤ defaultEpsilon := by decide +kernel
  have hFinite : Float.isFinite 1e-12 = true := by decide +kernel
  have hReal : ((0 : Float) == 0) = true := by decide +kernel
  refine ⟨hEpsilon, hFinite, hReal, ?_⟩
  refine (refused_real_divisors ⟨.complex, defaultEpsilon⟩ rfl hEpsilon (.complex ⟨1, 0⟩) ⟨1e-12, 0⟩
    hFinite hReal).2.mpr (.inr ?_)
  decide +kernel

end Arithmetic

/-- A divisor as large as `epsilon` has a quotient but no whole one. -/
theorem evaluate_divisor_epsilon :
    evaluate {} "1/1e-12" = .ok ⟨"1/1e-12", .ok (.complex ⟨1e12, 0⟩)⟩ ∧
      evaluate {} "1//1e-12" = .ok ⟨"1//1e-12", .error (Cause.noRealPart.fault 8)⟩ := by
  decide +kernel

end Reckon
