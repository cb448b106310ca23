import Reckon.Arithmetic
import Reckon.Proofs.Except
import Reckon.Proofs.Binary64.SignedZero

/-! # The sign of a zero imaginary part

What the operations of complex arithmetic make of imaginary parts that are zeros: zeros again, whose
signs follow from those of the operands' parts.
-/
namespace Reckon
set_option autoImplicit false
open Binary64 (zero negative Ordinary)

namespace Complex

variable {z w : Complex} {s t : Bool}

theorem im_add (hz : z.im = zero s) (hw : w.im = zero t) : (z + w).im = zero (s && t) := by
  rw [← Binary64.zero_add_zero, ← hz, ← hw]
  rfl

theorem im_sub (hz : z.im = zero s) (hw : w.im = zero t) : (z - w).im = zero (s && !t) := by
  rw [← Binary64.zero_sub_zero, ← hz, ← hw]
  rfl

theorem im_mul (hz : z.im = zero s) (hw : w.im = zero t) (hzRe : z.re.isFinite = true)
    (hwRe : w.re.isFinite = true) :
    (z * w).im = zero ((negative z.re ^^ t) && (s ^^ negative w.re)) := by
  rw [← Binary64.zero_add_zero, ← Binary64.mul_zero hzRe, ← Binary64.zero_mul hwRe, ← hz, ← hw]
  rfl

/-- A divisor that is real but for the sign of its zero divides by its real part. -/
theorem div_of_im_zero (z : Complex) (hw : w.im = zero t) (hwRe : Ordinary w.re) :
    z.div w = ⟨(z.re + z.im * zero (t ^^ negative w.re)) / w.re,
      (z.im - z.re * zero (t ^^ negative w.re)) / w.re⟩ := by
  have hLarger : w.im.abs ≤ w.re.abs := by
    rw [hw, Binary64.abs_zero]
    exact Binary64.zero_le_abs hwRe
  have hRatio : w.im / w.re = zero (t ^^ negative w.re) := by rw [hw, Binary64.zero_div hwRe]
  have hDivisor : w.re + w.im * (w.im / w.re) = w.re := by
    rw [hRatio, hw, Binary64.zero_mul (Binary64.isFinite_zero _), Binary64.add_zero hwRe]
  rw [div, if_pos hLarger]
  dsimp only
  rw [hDivisor, hRatio]

theorem im_div (hz : z.im = zero s) (hw : w.im = zero t) (hzRe : z.re.isFinite = true)
    (hwRe : Ordinary w.re) :
    (z.div w).im = zero ((s && !(negative z.re ^^ (t ^^ negative w.re))) ^^ negative w.re) := by
  rw [div_of_im_zero z hw hwRe]
  dsimp only
  rw [hz, Binary64.mul_zero hzRe, Binary64.zero_sub_zero, Binary64.zero_div hwRe]

end Complex

namespace Arithmetic

variable {A : Arithmetic} {z w : Complex} {x : Number}

theorem eq_of_coerce (hMode : A.mode = .complex) {a : Number} (h : A.coerce a = .ok x) :
    x = .complex a.toComplex := by
  obtain ⟨mode, epsilon⟩ := A
  obtain rfl : mode = .complex := hMode
  exact (Except.ok.inj h).symm

theorem negate_complex (hMode : A.mode = .complex) (h : A.negate (.complex z) = .ok x) :
    x = .complex (.ofReal 0 - z) := by
  obtain ⟨mode, epsilon⟩ := A
  obtain rfl : mode = .complex := hMode
  exact (Except.ok.inj h).symm

/-- A divisor that counts as no zero is none. -/
theorem isZero_of_isZero (hMode : A.mode = .complex) {a : Number} (h : A.isZero a = .ok false) :
    a.isZero = false := by
  obtain ⟨mode, epsilon⟩ := A
  obtain rfl : mode = .complex := hMode
  cases hZero : a.isZero with
  | false => rfl
  | true => simp [isZero, hZero, pure, Except.pure] at h

theorem div_complex (hMode : A.mode = .complex) (h : A.div (.complex z) (.complex w) = .ok x) :
    w.isZero = false ∧ x = .complex (z.div w) := by
  obtain ⟨zero, hZero, h⟩ := bind_eq_ok_iff.mp h
  cases zero with
  | true => cases h
  | false => exact ⟨isZero_of_isZero hMode hZero, eq_of_coerce hMode h⟩

theorem floorDiv_complex (hMode : A.mode = .complex)
    (h : A.floorDiv (.complex z) (.complex w) = .ok x) : ∃ r, x = .complex (.ofReal r) := by
  obtain ⟨mode, epsilon⟩ := A
  obtain rfl : mode = .complex := hMode
  obtain ⟨zero, -, h⟩ := bind_eq_ok_iff.mp h
  cases zero with
  | true => cases h
  | false =>
    simp only [Bool.false_eq_true, if_false] at h
    split at h
    · cases h
    · split at h
      · cases h
      · exact ⟨_, (Except.ok.inj h).symm⟩

end Arithmetic
end Reckon
