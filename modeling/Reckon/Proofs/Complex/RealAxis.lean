import Reckon.Proofs.Binary64.Exact
import Reckon.Proofs.Binary64.SameValue
import Reckon.Proofs.Complex.ImaginarySign

/-! # Complex numbers on the real axis

Up to the signs of zeros, complex operations on the axis are the real ones.
-/
namespace Reckon.Complex
set_option autoImplicit false
open Binary64 (zero negative Ordinary SameValue)

/-- The complex number is the real one, up to the signs of zeros. -/
structure OnAxis (x : Float) (z : Complex) : Prop where
  re : SameValue x z.re
  im : ∃ s, z.im = zero s

variable {x y : Float} {z w : Complex}

theorem onAxis_ofReal (x : Float) : OnAxis x (ofReal x) :=
  ⟨.refl x, false, rfl⟩

namespace OnAxis

theorem beq (h : OnAxis x z) (hFinite : x.isFinite = true) : (z.re == x) = true ∧ (z.im == 0) = true := by
  refine ⟨h.re.beq hFinite, ?_⟩
  obtain ⟨s, hIm⟩ := h.im
  rw [hIm]
  exact Binary64.zero_beq_zero s false

theorem isFinite_re (h : OnAxis x z) (hFinite : x.isFinite = true) : z.re.isFinite = true :=
  h.re.isFinite hFinite

theorem add (hz : OnAxis x z) (hw : OnAxis y w) (hx : x.isFinite = true) (hy : y.isFinite = true) :
    OnAxis (x + y) (z + w) := by
  obtain ⟨s, hzIm⟩ := hz.im
  obtain ⟨t, hwIm⟩ := hw.im
  exact ⟨hz.re.add hw.re hx hy, _, im_add hzIm hwIm⟩

theorem sub (hz : OnAxis x z) (hw : OnAxis y w) (hx : x.isFinite = true) (hy : y.isFinite = true) :
    OnAxis (x - y) (z - w) := by
  obtain ⟨s, hzIm⟩ := hz.im
  obtain ⟨t, hwIm⟩ := hw.im
  exact ⟨hz.re.sub hw.re hx hy, _, im_sub hzIm hwIm⟩

theorem neg (hz : OnAxis x z) : OnAxis (-x) (-z) := by
  obtain ⟨s, hzIm⟩ := hz.im
  refine ⟨hz.re.neg, !s, ?_⟩
  rw [← Binary64.neg_zero, ← hzIm]
  rfl

theorem zero_sub (hz : OnAxis x z) (hx : x.isFinite = true) : OnAxis (-x) (ofReal 0 - z) := by
  obtain ⟨s, hzIm⟩ := hz.im
  exact ⟨hz.re.zero_sub hx false, _, im_sub (s := false) rfl hzIm⟩

/-- The product of the imaginary parts is a zero, and taking it away changes nothing. -/
theorem mul (hz : OnAxis x z) (hw : OnAxis y w) (hx : x.isFinite = true) (hy : y.isFinite = true)
    (hProduct : (x * y).isFinite = true) : OnAxis (x * y) (z * w) := by
  obtain ⟨s, hzIm⟩ := hz.im
  obtain ⟨t, hwIm⟩ := hw.im
  have hzFinite := hz.isFinite_re hx
  have hwFinite := hw.isFinite_re hy
  refine ⟨?_, _, im_mul hzIm hwIm hzFinite hwFinite⟩
  have hRe : (z * w).re = z.re * w.re - zero (s ^^ negative (zero t)) := by
    rw [← Binary64.zero_mul (Binary64.isFinite_zero t), ← hzIm, ← hwIm]
    rfl
  rw [hRe]
  exact (hz.re.mul hw.re hx hy).sub_zero hProduct _

theorem div (hz : OnAxis x z) (hw : OnAxis y w) (hx : x.isFinite = true) (hy : Ordinary y) :
    OnAxis (x / y) (z.div w) := by
  obtain ⟨s, hzIm⟩ := hz.im
  obtain ⟨t, hwIm⟩ := hw.im
  have hSame := hw.re.eq hy
  have hwRe : Ordinary w.re := hSame ▸ hy
  refine ⟨?_, _, im_div hzIm hwIm (hz.isFinite_re hx) hwRe⟩
  rw [div_of_im_zero z hwIm hwRe]
  dsimp only
  rw [hzIm, Binary64.zero_mul (Binary64.isFinite_zero _), ← hSame]
  exact (hz.re.add_zero hx _).div hy

theorem modulus (hz : OnAxis x z) (hx : Ordinary x) : z.modulus? = some x.abs := by
  obtain ⟨s, hzIm⟩ := hz.im
  rw [modulus?, hzIm, ← hz.re.eq hx, Binary64.hypot_zero hx, hx.infinite_abs, Bool.and_false]
  rfl

end OnAxis

end Reckon.Complex
