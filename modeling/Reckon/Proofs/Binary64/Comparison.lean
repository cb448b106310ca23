import Reckon.Proofs.Binary64.Parts
import Reckon.Proofs.Binary64.SameValue

/-! # Comparisons of all numbers

Of two numbers one is below the other or they are equal, unless one of them is no number. So a test that is
not passed says more than that its opposite is: an operand may have been no number.
-/
namespace Reckon.Binary64
set_option autoImplicit false
open Float.Model Float.Model.UnpackedFloat

variable {x y : Float}

theorem isNaN_iff : x.isNaN = true ↔ x.toModel.unpack = .notANumber := by
  change x.toModel.unpack.isNaN = true ↔ _
  cases x.toModel.unpack <;> simp [UnpackedFloat.isNaN]

theorem compare_eq_none_iff (u v : UnpackedFloat) :
    UnpackedFloat.compare u v = none ↔ u = .notANumber ∨ v = .notANumber := by
  cases u with
  | notANumber => simp [UnpackedFloat.compare]
  | infinity s => cases v <;> cases s <;> simp [UnpackedFloat.compare]
  | zero s => cases v with
    | infinity t => cases t <;> simp [UnpackedFloat.compare]
    | finite t => cases t <;> simp [UnpackedFloat.compare]
    | notANumber | zero => simp [UnpackedFloat.compare]
  | finite s => cases v with
    | infinity t => cases s <;> cases t <;> simp [UnpackedFloat.compare]
    | finite t => cases s <;> cases t <;> simp [UnpackedFloat.compare]
    | notANumber | zero => cases s <;> simp [UnpackedFloat.compare]

/-- What does not stand below or beside another number stands above it, if both are numbers. -/
theorem not_le_iff : ¬ x ≤ y ↔ y < x ∨ x.isNaN = true ∨ y.isNaN = true := by
  rw [isNaN_iff, isNaN_iff, ← compare_eq_none_iff, le_iff, lt_iff, UnpackedFloat.le, UnpackedFloat.lt,
    compare_swap x.toModel.unpack]
  rcases UnpackedFloat.compare x.toModel.unpack y.toModel.unpack with _ | _ | _ | _ <;>
    simp [Ordering.isLE, Ordering.swap]

theorem le_iff_lt_or_beq : x ≤ y ↔ x < y ∨ (x == y) = true := by
  change _ ↔ _ ∨ UnpackedFloat.beq x.toModel.unpack y.toModel.unpack = true
  rw [le_iff, lt_iff, UnpackedFloat.le, UnpackedFloat.lt, UnpackedFloat.beq]
  rcases UnpackedFloat.compare x.toModel.unpack y.toModel.unpack with _ | _ | _ | _ <;> simp [Ordering.isLE]

theorem isNaN_eq_false_of_le (h : x ≤ y) : x.isNaN = false ∧ y.isNaN = false := by
  rw [← Bool.not_eq_true, ← Bool.not_eq_true, ← not_or]
  exact fun hNaN => not_le_iff.mpr (.inr hNaN) h

theorem eq_zero_of_beq_zero (h : (x == 0) = true) : x = zero (negative x) := by
  cases hFinite : x.isFinite with
  | true => exact eq_zero_of_beq hFinite h
  | false =>
    rcases eq_of_not_finite hFinite with rfl | rfl | rfl <;> exact absurd h (by decide +kernel)

/-! ## Signs -/

theorem canonical_neg {u : UnpackedFloat} (h : Canonical u) : Canonical u.neg := by
  cases u <;> exact h

theorem canonical_abs {u : UnpackedFloat} (h : Canonical u) : Canonical u.abs := by
  cases u <;> exact h

theorem unpack_neg (x : Float) : (-x).toModel.unpack = x.toModel.unpack.neg :=
  unpack_pack (canonical_neg (canonical_unpack _))

theorem unpack_withSign {s : Bool} {m : Nat} {e : Int} {hPos : 0 < m}
    (h : x.toModel.unpack = .finite .positive m e hPos) :
    (withSign s x).toModel.unpack = .finite (signOf s) m e hPos := by
  cases s with
  | false => exact h
  | true =>
    change (-x).toModel.unpack = _
    rw [unpack_neg, h]
    rfl

theorem unpack_absolute (x : Float) : x.abs.toModel.unpack = x.toModel.unpack.abs :=
  unpack_pack (canonical_abs (canonical_unpack _))

theorem abs_neg (x : Float) : (-x).abs = x.abs := by
  refine eq_of_unpack_eq ?_
  rw [unpack_absolute, unpack_absolute, unpack_neg]
  cases x.toModel.unpack <;> rfl

theorem isNaN_abs (x : Float) : x.abs.isNaN = x.isNaN := by
  change x.abs.toModel.unpack.isNaN = x.toModel.unpack.isNaN
  rw [unpack_absolute]
  cases x.toModel.unpack <;> rfl

theorem neg_lt_zero_iff : -x < 0 ↔ 0 < x := by
  rw [lt_iff, lt_iff, unpack_neg, show (0 : Float).toModel.unpack = .zero .positive from rfl]
  cases x.toModel.unpack with
  | notANumber => exact Iff.rfl
  | infinity s => cases s <;> exact Iff.rfl
  | zero s => exact Iff.rfl
  | finite s m e hPos => cases s <;> exact Iff.rfl

/-! ## One further on -/

/-- What is not below zero comes to lie above it, or is no number. -/
theorem not_add_one_le_zero (h : ¬ x < 0) : ¬ x + 1.0 ≤ 0 := by
  have hOne : NonNegative (1.0 : Float).toModel.unpack :=
    .inr ⟨0, atLeast_of_unpack_eq (by rfl) (by decide)⟩
  cases hFinite : x.isFinite with
  | false =>
    rcases eq_of_not_finite hFinite with rfl | rfl | rfl
    · decide +kernel
    · decide +kernel
    · exact absurd (by decide +kernel) h
  | true =>
    rcases zero_or_ordinary hFinite with hZero | hOrdinary
    · rw [hZero, zero_add (ordinary_of_finite (by decide +kernel) (by decide +kernel))]
      decide +kernel
    · have hAbs : x.abs = x := by
        obtain ⟨m, e, hPos, hUnpack⟩ := hOrdinary
        rw [lt_iff, hUnpack] at h
        cases hSign : negative x with
        | true => rw [hSign] at h; exact absurd rfl h
        | false =>
          rw [hSign] at hUnpack
          exact eq_of_unpack_eq ((unpack_abs_of_unpack hUnpack).trans hUnpack.symm)
      have hLeast := hOrdinary.atLeast_abs
      rw [hAbs] at hLeast
      exact not_le_of_lt (atLeast_add hLeast hOne (Int.le_refl _)).pos

end Reckon.Binary64
