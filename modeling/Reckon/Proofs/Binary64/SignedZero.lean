import Reckon.Proofs.Binary64.Packing

/-! # Zeros and their signs

A finite number is a zero of either sign, or it has a sign and a significand. A product or quotient
with a zero takes the signs of both, and a sum is a negative zero only if both operands are.
-/
namespace Reckon.Binary64
set_option autoImplicit false
open Float.Model Float.Model.UnpackedFloat

def zero (minus : Bool) : Float := if minus then -0.0 else 0.0

/-- The number is neither a zero nor infinite. -/
def Ordinary (x : Float) : Prop :=
  ∃ m e hPos, x.toModel.unpack = .finite (signOf (negative x)) m e hPos

theorem ofModel_pack_unpack (x : Float) : Float.ofModel (Float.Model.pack x.toModel.unpack) = x := by
  rw [pack_unpack]

theorem pack_zero (minus : Bool) :
    Float.ofModel (Float.Model.pack (.zero (signOf minus))) = zero minus := by
  cases minus <;> rfl

theorem unpack_zero (minus : Bool) : (zero minus).toModel.unpack = .zero (signOf minus) := by
  cases minus <;> rfl

theorem negative_zero (minus : Bool) : negative (zero minus) = minus := by
  cases minus <;> rfl

theorem zero_beq_zero (s t : Bool) : (zero s == zero t) = true := by
  cases s <;> cases t <;> rfl

theorem not_zero_lt_zero (s : Bool) : ¬ zero s < 0 := by
  cases s <;> exact of_decide_eq_false rfl

theorem isFinite_zero (minus : Bool) : (zero minus).isFinite = true := by
  cases minus <;> rfl

theorem zero_or_ordinary {x : Float} (h : x.isFinite = true) :
    x = zero (negative x) ∨ Ordinary x := by
  have hOnes : @unpackExponent .binary64 x.toBits.toBitVec ≠ -1#11 := by
    intro hOnes
    change (UnpackedFloat.unpack .binary64 x.toBits.toBitVec).isFinite = true at h
    rw [UnpackedFloat.unpack, if_pos hOnes] at h
    split at h <;> cases h
  have hUnpack := unpack_of_exponent hOnes
  rw [sign_eq_signOf_negative] at hUnpack
  rcases hUnpack with hZero | hOrdinary
  · refine .inl ((ofModel_pack_unpack x).symm.trans ?_)
    rw [show x.toModel.unpack = _ from hZero, pack_zero]
  · exact .inr hOrdinary

theorem ordinary_of_finite {x : Float} (h : x.isFinite = true) (hNonzero : (x == 0) = false) :
    Ordinary x := by
  rcases zero_or_ordinary h with hZero | hOrdinary
  · rw [hZero] at hNonzero
    cases (zero_beq_zero (negative x) false).symm.trans hNonzero
  · exact hOrdinary

theorem ordinary_hundred : Ordinary 100 := ordinary_of_finite rfl rfl

theorem Ordinary.beq_zero {x : Float} (h : Ordinary x) : (x == 0) = false := by
  obtain ⟨m, e, hPos, hUnpack⟩ := h
  change UnpackedFloat.beq x.toModel.unpack (0 : Float).toModel.unpack = false
  rw [hUnpack]
  cases negative x <;> rfl

theorem eq_zero_of_beq {x : Float} (h : x.isFinite = true) (hZero : (x == 0) = true) :
    x = zero (negative x) := by
  rcases zero_or_ordinary h with hEq | hOrdinary
  · exact hEq
  · rw [hOrdinary.beq_zero] at hZero
    cases hZero

/-! ## Signs -/

theorem signOf_mul (s t : Bool) : signOf s * signOf t = signOf (s ^^ t) := by
  cases s <;> cases t <;> rfl

theorem signOf_div (s t : Bool) : signOf s / signOf t = signOf (s ^^ t) := by
  cases s <;> cases t <;> rfl

/-! ## Sums -/

theorem zero_add_zero (s t : Bool) : zero s + zero t = zero (s && t) := by
  cases s <;> cases t <;> rfl

theorem zero_sub_zero (s t : Bool) : zero s - zero t = zero (s && !t) := by
  cases s <;> cases t <;> rfl

theorem add_zero {x : Float} (h : Ordinary x) (t : Bool) : x + zero t = x := by
  obtain ⟨m, e, hPos, hUnpack⟩ := h
  have hSum : UnpackedFloat.add .binary64 x.toModel.unpack (zero t).toModel.unpack = x.toModel.unpack := by
    rw [hUnpack, unpack_zero]
    rfl
  exact (congrArg (fun u => Float.ofModel (Float.Model.pack u)) hSum).trans (ofModel_pack_unpack x)

/-! ## Products and quotients -/

theorem mul_zero {x : Float} (h : x.isFinite = true) (t : Bool) : x * zero t = zero (negative x ^^ t) := by
  have hProduct : UnpackedFloat.mul .binary64 x.toModel.unpack (zero t).toModel.unpack =
      .zero (signOf (negative x ^^ t)) := by
    rw [unpack_zero, ← signOf_mul]
    rcases zero_or_ordinary h with hZero | ⟨m, e, hPos, hUnpack⟩
    · rw [hZero, unpack_zero, negative_zero]
      rfl
    · rw [hUnpack]
      rfl
  exact (congrArg (fun u => Float.ofModel (Float.Model.pack u)) hProduct).trans (pack_zero _)

theorem zero_mul {x : Float} (h : x.isFinite = true) (s : Bool) : zero s * x = zero (s ^^ negative x) := by
  have hProduct : UnpackedFloat.mul .binary64 (zero s).toModel.unpack x.toModel.unpack =
      .zero (signOf (s ^^ negative x)) := by
    rw [unpack_zero, ← signOf_mul]
    rcases zero_or_ordinary h with hZero | ⟨m, e, hPos, hUnpack⟩
    · rw [hZero, unpack_zero, negative_zero]
      rfl
    · rw [hUnpack]
      rfl
  exact (congrArg (fun u => Float.ofModel (Float.Model.pack u)) hProduct).trans (pack_zero _)

theorem zero_div {x : Float} (h : Ordinary x) (s : Bool) : zero s / x = zero (s ^^ negative x) := by
  obtain ⟨m, e, hPos, hUnpack⟩ := h
  have hQuotient : UnpackedFloat.div .binary64 (zero s).toModel.unpack x.toModel.unpack =
      .zero (signOf (s ^^ negative x)) := by
    rw [unpack_zero, ← signOf_div, hUnpack]
    rfl
  exact (congrArg (fun u => Float.ofModel (Float.Model.pack u)) hQuotient).trans (pack_zero _)

theorem le_iff {x y : Float} : x ≤ y ↔ x.toModel.unpack.le y.toModel.unpack = true := decide_eq_true_iff

theorem lt_iff {x y : Float} : x < y ↔ x.toModel.unpack.lt y.toModel.unpack = true := decide_eq_true_iff

theorem abs_zero (s : Bool) : (zero s).abs = 0 := by
  cases s <;> rfl

theorem canonical_of_unpack {x : Float} {s : Sign} {m : Nat} {e : Int} {hPos : 0 < m}
    (h : x.toModel.unpack = .finite s m e hPos) : Canonical (.finite .positive m e hPos) := by
  have hCanonical : Canonical x.toModel.unpack := canonical_unpack _
  rw [h] at hCanonical
  exact hCanonical

theorem unpack_abs_of_unpack {x : Float} {s : Sign} {m : Nat} {e : Int} {hPos : 0 < m}
    (h : x.toModel.unpack = .finite s m e hPos) : x.abs.toModel.unpack = .finite .positive m e hPos := by
  rw [← unpack_pack (canonical_of_unpack h)]
  change UnpackedFloat.unpack .binary64 (UnpackedFloat.pack .binary64 x.toModel.unpack.abs) = _
  rw [h]
  rfl

theorem unpack_abs {x : Float} (h : Ordinary x) :
    ∃ m e hPos, x.abs.toModel.unpack = .finite .positive m e hPos := by
  obtain ⟨m, e, hPos, hUnpack⟩ := h
  exact ⟨m, e, hPos, unpack_abs_of_unpack hUnpack⟩

theorem zero_le_abs {x : Float} (h : Ordinary x) : (0 : Float) ≤ x.abs := by
  obtain ⟨m, e, hPos, hUnpack⟩ := unpack_abs h
  rw [le_iff, hUnpack]
  rfl

end Reckon.Binary64
