import Reckon.Mishap
import Reckon.Proofs.Except
import Reckon.Proofs.Binary64.Comparison
import Reckon.Proofs.Binary64.Rounding
import Reckon.Proofs.Complex.BranchCut

/-! # Whole parts

The whole part of a finite number lies in the range of the finite numbers, so that nothing is lost by
truncation but what stands behind the point, and the way over the integers cannot fail.
-/
namespace Reckon.Binary64
set_option autoImplicit false
open Float.Model Float.Model.UnpackedFloat

theorem isFinite_of_unpack {x : Float} {s : Sign} {m : Nat} {e : Int} {hPos : 0 < m}
    (h : x.toModel.unpack = .finite s m e hPos) : x.isFinite = true := by
  change x.toModel.unpack.isFinite = true
  rw [h]
  rfl

theorem Ordinary.isFinite {x : Float} (h : Ordinary x) : x.isFinite = true := by
  obtain ⟨m, e, hPos, hUnpack⟩ := h
  exact isFinite_of_unpack hUnpack

theorem ordinary_of_unpack {x : Float} {s : Sign} {m : Nat} {e : Int} {hPos : 0 < m}
    (h : x.toModel.unpack = .finite s m e hPos) : Ordinary x := by
  rcases zero_or_ordinary (isFinite_of_unpack h) with hZero | hOrdinary
  · rw [hZero, unpack_zero] at h
    cases h
  · exact hOrdinary

theorem negative_of_unpack {x : Float} {minus : Bool} {m : Nat} {e : Int} {hPos : 0 < m}
    (h : x.toModel.unpack = .finite (signOf minus) m e hPos) : negative x = minus := by
  obtain ⟨m', e', hPos', hUnpack⟩ := ordinary_of_unpack h
  have hSigns : signOf minus = signOf (negative x) := by
    rw [h] at hUnpack
    injection hUnpack
  cases minus <;> cases hSign : negative x <;> rw [hSign] at hSigns <;> first | rfl | cases hSigns

/-- A fraction with the value of a number is that number. -/
theorem unpack_ofRatio_of_value {r : Ratio} {m : Nat} {e : Int} {hPos : 0 < m}
    (h : Canonical (.finite .positive m e hPos)) (hValue : r.value = m * 2 ^ e) :
    (ofRatio r).toModel.unpack = .finite .positive m e hPos := by
  have hUnit := two_zpow_pos e
  refine unpack_ofRatio_of_near h ⟨?_, fun _ => ?_, ?_⟩ <;>
  · rw [hValue]
    exact mul_lt_mul_of_pos_right (by linarith) hUnit

/-- Whole numbers of 53 bits are numbers. -/
theorem isFinite_ofNat_of_lt {n : Nat} (h : n < 2 ^ 53) : (ofNat n).isFinite = true := by
  rcases Nat.eq_zero_or_pos n with rfl | hPos
  · rfl
  · obtain ⟨k, hLog⟩ : ∃ k, 52 = n.log2 + k :=
      Nat.exists_eq_add_of_le (Nat.le_of_lt_succ ((Nat.log2_lt hPos.ne').mpr h))
    have hFull : (n * 2 ^ k).log2 = 52 := by rw [log2_mul_two_pow hPos, hLog]
    have hShifted : 0 < n * 2 ^ k := Nat.mul_pos hPos (Nat.two_pow_pos k)
    obtain ⟨hLow, hHigh⟩ := (Nat.log2_eq_iff hShifted.ne').mp hFull
    have hCanonical : Canonical (.finite .positive (n * 2 ^ k) (-k) hShifted) :=
      ⟨hHigh, by omega, by omega, .inl hLow⟩
    refine isFinite_of_unpack (unpack_ofRatio_of_value hCanonical ?_)
    rw [Ratio.value_ofNat, Nat.cast_mul, Nat.cast_pow, Nat.cast_ofNat, mul_assoc, zpow_neg, zpow_natCast,
      mul_inv_cancel₀ (by positivity), mul_one]

theorem isFinite_ofNat_whole {x : Float} (h : x.isFinite = true) : (ofNat (whole x)).isFinite = true := by
  rcases zero_or_ordinary h with hZero | ⟨m, e, hPos, hUnpack⟩
  · have hRatio : ratio (zero (negative x)) = (Ratio.ofNat 0).scaleBinary (-1074) := by
      cases negative x <;> rfl
    rw [hZero, whole, hRatio, floor_scaleBinary_zero]
    rfl
  · obtain ⟨hSignificand, hUnit⟩ := fields_of_unpack hUnpack
    have hCanonical := canonical_of_unpack hUnpack
    rw [whole, ratio, hSignificand, hUnit]
    cases e with
    | ofNat n =>
      -- A number without a fraction is its own whole part.
      refine isFinite_of_unpack (unpack_ofRatio_of_value hCanonical ?_)
      have hFloor : ((Ratio.ofNat m).scaleBinary (.ofNat n)).floor = m * 2 ^ n := Nat.div_one _
      rw [hFloor, Ratio.value_ofNat, Nat.cast_mul, Nat.cast_pow, Nat.cast_ofNat, Int.ofNat_eq_natCast,
        zpow_natCast]
    | negSucc n => exact isFinite_ofNat_of_lt (Nat.lt_of_le_of_lt (Nat.div_le_self _ _) hCanonical.1)

/-! ## Over the integers -/

/-- The integer next to the number on the side of zero. Infinity and NaN have none. -/
def integer (x : Float) : Except Mishap Int :=
  if infinite x then .error .outOfRange
  else if x.isNaN then .error .outOfDomain
  else .ok (if negative x then -(whole x : Int) else whole x)

def ofInteger (n : Int) : Except Mishap Float :=
  let size := ofNat n.natAbs
  if infinite size then .error .outOfRange else .ok (if n < 0 then -size else size)

/-- Truncation as it is carried out, with every way to fail that its steps have. -/
def truncateStepwise (x : Float) : Except Mishap Float := do
  if !x.isFinite then return x
  ofInteger (← integer x)

theorem infinite_of_isFinite {x : Float} (h : x.isFinite = true) : infinite x = false := by
  rcases zero_or_ordinary h with hZero | hOrdinary
  · rw [hZero]
    exact infinite_zero _
  · exact hOrdinary.infinite_eq_false

theorem abs_ofNat (n : Nat) : (ofNat n).abs = ofNat n := by
  refine eq_of_unpack_eq ?_
  rw [unpack_absolute]
  rcases nonNegative_ofRatio (Ratio.ofNat n) with hZero | ⟨k, hLeast⟩
  · rw [ofNat, hZero]
    rfl
  · rw [ofNat]
    generalize (ofRatio (Ratio.ofNat n)).toModel.unpack = u at hLeast ⊢
    cases hLeast <;> rfl

theorem integer_of_isFinite {x : Float} (h : x.isFinite = true) :
    integer x = .ok (if negative x then -(whole x : Int) else whole x) := by
  rw [integer, infinite_of_isFinite h, isNaN_of_isFinite h]
  rfl

theorem truncateStepwise_eq (x : Float) : truncateStepwise x = .ok (truncate x) := by
  unfold truncateStepwise truncate
  cases hFinite : x.isFinite with
  | false => rfl
  | true =>
    have hInRange := infinite_of_isFinite (isFinite_ofNat_whole hFinite)
    simp only [Bool.not_true, Bool.false_eq_true, if_false, integer_of_isFinite hFinite]
    change ofInteger _ = _
    rw [ofInteger, copySign, abs_ofNat]
    rcases Nat.eq_zero_or_pos (whole x) with hWhole | hWhole
    · rw [hWhole]
      cases negative x <;> rfl
    · cases negative x with
      | true => simp [hInRange, hWhole, hWhole.ne']
      | false => simp [hInRange, hWhole.ne']

end Reckon.Binary64
