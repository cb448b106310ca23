import Reckon.Proofs.Binary64.Exact

/-! # Signs and magnitudes

A number is its magnitude under its sign. What is not finite is one of three numbers.
-/
namespace Reckon.Binary64
set_option autoImplicit false
open Float.Model Float.Model.UnpackedFloat

/-- The number of a sign and a magnitude. -/
def withSign (minus : Bool) (magnitude : Float) : Float := if minus then -magnitude else magnitude

theorem withSign_zero (minus : Bool) : withSign minus 0 = zero minus := by
  cases minus <;> rfl

theorem withSign_abs {x : Float} (h : Ordinary x) : withSign (negative x) x.abs = x := by
  obtain ⟨m, e, hPos, hUnpack⟩ := h
  have hAbs := unpack_abs_of_unpack hUnpack
  rw [withSign]
  cases hSign : negative x with
  | false =>
    rw [hSign] at hUnpack
    exact eq_of_unpack_eq (hAbs.trans hUnpack.symm)
  | true =>
    rw [hSign] at hUnpack
    calc -x.abs = Float.ofModel (Float.Model.pack x.abs.toModel.unpack.neg) := rfl
      _ = Float.ofModel (Float.Model.pack x.toModel.unpack) := by
          rw [hAbs, hUnpack]
          rfl
      _ = x := ofModel_pack_unpack x

theorem infinite_eq_false {x : Float} (h : x.isFinite = true) : infinite x = false := by
  rcases zero_or_ordinary h with hZero | hOrdinary
  · rw [hZero]
    exact infinite_zero _
  · exact hOrdinary.infinite_eq_false

/-- Besides the finite numbers there are two infinities and the one that is no number. -/
theorem eq_of_not_finite {x : Float} (h : x.isFinite = false) :
    x = nan ∨ x = infinity ∨ x = -infinity := by
  change x.toModel.unpack.isFinite = false at h
  rw [← ofModel_pack_unpack x]
  cases hUnpack : x.toModel.unpack with
  | notANumber => exact .inl rfl
  | infinity s =>
    cases s with
    | positive => exact .inr (.inl rfl)
    | negative => exact .inr (.inr rfl)
  | zero s =>
    rw [hUnpack] at h
    cases h
  | finite s m e hPos =>
    rw [hUnpack] at h
    cases h

end Reckon.Binary64
