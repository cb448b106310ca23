import Reckon.Proofs.Complex.BranchCut

/-! # Numbers up to the sign of zero

The operations of real arithmetic take operands that differ in the signs of zeros to results that differ
in the signs of zeros, as long as everything is finite.
-/
namespace Reckon.Binary64
set_option autoImplicit false
open Float.Model Float.Model.UnpackedFloat

/-! ## Comparisons -/

theorem compare_swap (u v : UnpackedFloat) :
    UnpackedFloat.compare v u = (UnpackedFloat.compare u v).map Ordering.swap := by
  have hSame (e e' : Int) (m m' : Nat) :
      (compare e' e).then (compare m' m) = ((compare e e').then (compare m m')).swap := by
    rw [Ordering.swap_then, Int.compare_swap, Nat.compare_swap]
  cases u with
  | notANumber => cases v <;> rfl
  | infinity s => cases v with
    | notANumber | zero | finite => cases s <;> rfl
    | infinity t => cases s <;> cases t <;> rfl
  | zero s => cases v with
    | notANumber | zero => rfl
    | infinity t => cases t <;> rfl
    | finite t => cases t <;> rfl
  | finite s m e hPos => cases v with
    | notANumber => cases s <;> rfl
    | infinity t => cases s <;> cases t <;> rfl
    | zero => cases s <;> rfl
    | finite t m' e' hPos' => cases s with
      | negative => cases t with
        | negative => exact congrArg (fun o => some o.swap) (hSame e e' m m')
        | positive => rfl
      | positive => cases t with
        | negative => rfl
        | positive => exact congrArg some (hSame e e' m m')

theorem not_le_of_lt {x y : Float} (h : x < y) : ¬ y ≤ x := by
  rw [lt_iff, UnpackedFloat.lt, beq_iff_eq] at h
  rw [le_iff, UnpackedFloat.le, compare_swap, h]
  exact Bool.false_ne_true

theorem not_lt_of_lt {x y : Float} (h : x < y) : ¬ y < x := by
  rw [lt_iff, UnpackedFloat.lt, beq_iff_eq] at h
  rw [lt_iff, UnpackedFloat.lt, compare_swap, h]
  exact Bool.false_ne_true

theorem Ordinary.beq_self {x : Float} (h : Ordinary x) : (x == x) = true := by
  obtain ⟨m, e, hPos, hUnpack⟩ := h
  change UnpackedFloat.beq x.toModel.unpack x.toModel.unpack = true
  rw [hUnpack]
  cases negative x <;> simp [UnpackedFloat.beq, UnpackedFloat.compare, signOf]

/-! ## The same but for the sign of zero -/

/-- The numbers are equal, or both are zeros. -/
def SameValue (x y : Float) : Prop := x = y ∨ ∃ s t, x = zero s ∧ y = zero t

theorem SameValue.refl (x : Float) : SameValue x x := .inl rfl

theorem sameValue_zero (s t : Bool) : SameValue (zero s) (zero t) := .inr ⟨s, t, rfl, rfl⟩

/-- Both numbers are one that is not zero, or both are zeros. -/
theorem SameValue.cases {x y : Float} (h : SameValue x y) (hFinite : x.isFinite = true) :
    (x = y ∧ Ordinary x) ∨ ∃ s t, x = zero s ∧ y = zero t := by
  rcases h with rfl | hZeros
  · rcases zero_or_ordinary hFinite with hZero | hOrdinary
    · exact .inr ⟨_, _, hZero, hZero⟩
    · exact .inl ⟨rfl, hOrdinary⟩
  · exact .inr hZeros

theorem SameValue.isFinite {x y : Float} (h : SameValue x y) (hFinite : x.isFinite = true) :
    y.isFinite = true := by
  rcases h with rfl | ⟨s, t, rfl, rfl⟩
  · exact hFinite
  · exact isFinite_zero t

theorem SameValue.beq {x y : Float} (h : SameValue x y) (hFinite : x.isFinite = true) : (y == x) = true := by
  rcases h.cases hFinite with ⟨rfl, hOrdinary⟩ | ⟨s, t, rfl, rfl⟩
  · exact hOrdinary.beq_self
  · exact zero_beq_zero t s

theorem SameValue.lt_zero_iff {x y : Float} (h : SameValue x y) : x < 0 ↔ y < 0 := by
  rcases h with rfl | ⟨s, t, rfl, rfl⟩
  · exact Iff.rfl
  · exact iff_of_false (not_zero_lt_zero s) (not_zero_lt_zero t)

theorem not_ordinary_zero (s : Bool) : ¬ Ordinary (zero s) := by
  rintro ⟨m, e, hPos, hUnpack⟩
  rw [unpack_zero] at hUnpack
  cases hUnpack

theorem SameValue.eq {x y : Float} (h : SameValue x y) (hOrdinary : Ordinary x) : x = y := by
  rcases h with rfl | ⟨s, t, rfl, rfl⟩
  · rfl
  · exact absurd hOrdinary (not_ordinary_zero s)

/-! ## Operations -/

section Operations

variable {x y u v : Float}

theorem zero_add (h : Ordinary x) (s : Bool) : zero s + x = x := by
  obtain ⟨m, e, hPos, hUnpack⟩ := h
  have hSum : UnpackedFloat.add .binary64 (zero s).toModel.unpack x.toModel.unpack = x.toModel.unpack := by
    rw [hUnpack, unpack_zero]
    rfl
  exact (congrArg (fun u => Float.ofModel (Float.Model.pack u)) hSum).trans (ofModel_pack_unpack x)

theorem sub_zero (h : Ordinary x) (s : Bool) : x - zero s = x := by
  obtain ⟨m, e, hPos, hUnpack⟩ := h
  have hDifference : UnpackedFloat.sub .binary64 x.toModel.unpack (zero s).toModel.unpack =
      x.toModel.unpack := by
    rw [hUnpack, unpack_zero]
    rfl
  exact (congrArg (fun u => Float.ofModel (Float.Model.pack u)) hDifference).trans (ofModel_pack_unpack x)

theorem zero_sub (h : Ordinary x) (s : Bool) : zero s - x = -x := by
  obtain ⟨m, e, hPos, hUnpack⟩ := h
  have hDifference : UnpackedFloat.sub .binary64 (zero s).toModel.unpack x.toModel.unpack =
      x.toModel.unpack.neg := by
    rw [hUnpack, unpack_zero]
    rfl
  exact congrArg (fun u => Float.ofModel (Float.Model.pack u)) hDifference

theorem neg_zero (s : Bool) : -zero s = zero (!s) := by
  cases s <;> rfl

theorem SameValue.add (hx : SameValue x u) (hy : SameValue y v) (hxFinite : x.isFinite = true)
    (hyFinite : y.isFinite = true) : SameValue (x + y) (u + v) := by
  rcases hx.cases hxFinite with ⟨rfl, hxOrdinary⟩ | ⟨s, t, rfl, rfl⟩
  · rcases hy with rfl | ⟨s, t, rfl, rfl⟩
    · exact .refl _
    · rw [add_zero hxOrdinary, add_zero hxOrdinary]
      exact .refl x
  · rcases hy.cases hyFinite with ⟨rfl, hyOrdinary⟩ | ⟨s', t', rfl, rfl⟩
    · rw [zero_add hyOrdinary, zero_add hyOrdinary]
      exact .refl y
    · rw [zero_add_zero, zero_add_zero]
      exact sameValue_zero _ _

theorem SameValue.sub (hx : SameValue x u) (hy : SameValue y v) (hxFinite : x.isFinite = true)
    (hyFinite : y.isFinite = true) : SameValue (x - y) (u - v) := by
  rcases hx.cases hxFinite with ⟨rfl, hxOrdinary⟩ | ⟨s, t, rfl, rfl⟩
  · rcases hy with rfl | ⟨s, t, rfl, rfl⟩
    · exact .refl _
    · rw [sub_zero hxOrdinary, sub_zero hxOrdinary]
      exact .refl x
  · rcases hy.cases hyFinite with ⟨rfl, hyOrdinary⟩ | ⟨s', t', rfl, rfl⟩
    · rw [zero_sub hyOrdinary, zero_sub hyOrdinary]
      exact .refl (-y)
    · rw [zero_sub_zero, zero_sub_zero]
      exact sameValue_zero _ _

theorem SameValue.neg (hx : SameValue x u) : SameValue (-x) (-u) := by
  rcases hx with rfl | ⟨s, t, rfl, rfl⟩
  · exact .refl _
  · rw [neg_zero, neg_zero]
    exact sameValue_zero _ _

/-- Taking a number from zero changes its sign, but for that of a zero. -/
theorem SameValue.zero_sub (hx : SameValue x u) (hFinite : x.isFinite = true) (s : Bool) :
    SameValue (-x) (zero s - u) := by
  rcases hx.cases hFinite with ⟨rfl, hOrdinary⟩ | ⟨t, t', rfl, rfl⟩
  · rw [Binary64.zero_sub hOrdinary]
    exact .refl (-x)
  · rw [neg_zero, zero_sub_zero]
    exact sameValue_zero _ _

theorem SameValue.mul (hx : SameValue x u) (hy : SameValue y v) (hxFinite : x.isFinite = true)
    (hyFinite : y.isFinite = true) : SameValue (x * y) (u * v) := by
  rcases hx with rfl | ⟨s, t, rfl, rfl⟩
  · rcases hy with rfl | ⟨s, t, rfl, rfl⟩
    · exact .refl _
    · rw [mul_zero hxFinite, mul_zero hxFinite]
      exact sameValue_zero _ _
  · rw [zero_mul hyFinite, zero_mul (hy.isFinite hyFinite)]
    exact sameValue_zero _ _

theorem SameValue.div (hx : SameValue x u) (hOrdinary : Ordinary y) : SameValue (x / y) (u / y) := by
  rcases hx with rfl | ⟨s, t, rfl, rfl⟩
  · exact .refl _
  · rw [zero_div hOrdinary, zero_div hOrdinary]
    exact sameValue_zero _ _

theorem SameValue.add_zero (hx : SameValue x u) (hFinite : x.isFinite = true) (s : Bool) :
    SameValue x (u + zero s) := by
  rcases hx.cases hFinite with ⟨rfl, hOrdinary⟩ | ⟨t, t', rfl, rfl⟩
  · rw [Binary64.add_zero hOrdinary]
    exact .refl x
  · rw [zero_add_zero]
    exact sameValue_zero _ _

theorem SameValue.sub_zero (hx : SameValue x u) (hFinite : x.isFinite = true) (s : Bool) :
    SameValue x (u - zero s) := by
  rcases hx.cases hFinite with ⟨rfl, hOrdinary⟩ | ⟨t, t', rfl, rfl⟩
  · rw [Binary64.sub_zero hOrdinary]
    exact .refl x
  · rw [zero_sub_zero]
    exact sameValue_zero _ _

theorem floor_scaleBinary_zero (power : Int) : ((Ratio.ofNat 0).scaleBinary power).floor = 0 := by
  cases power with
  | ofNat n => simp [Ratio.scaleBinary, Ratio.scale, Ratio.floor, Ratio.ofNat]
  | negSucc n => exact Nat.zero_div _

theorem truncate_zero (s : Bool) : truncate (zero s) = 0 := by
  have hRatio : ratio (zero s) = (Ratio.ofNat 0).scaleBinary (-1074) := by cases s <;> rfl
  have hWhole : whole (zero s) = 0 := by
    rw [whole, hRatio, floor_scaleBinary_zero]
  rw [truncate, isFinite_zero, hWhole]
  rfl

theorem SameValue.truncate_eq (hx : SameValue x u) : truncate x = truncate u := by
  rcases hx with rfl | ⟨s, t, rfl, rfl⟩
  · rfl
  · rw [truncate_zero, truncate_zero]

/-- One further on, zeros of either sign are one. -/
theorem SameValue.add_one_eq (hx : SameValue x u) : x + 1.0 = u + 1.0 := by
  have hOne : Ordinary 1.0 := ordinary_of_finite (by decide +kernel) (by decide +kernel)
  rcases hx with rfl | ⟨s, t, rfl, rfl⟩
  · rfl
  · rw [zero_add hOne, zero_add hOne]

end Operations

end Reckon.Binary64
