import Reckon.Proofs.Binary64.Exact
import Reckon.Proofs.Ratio

/-! # Rounding to the nearest number

A fraction that is nearer to a number than to its neighbours is rounded to it. Below a power of two the
neighbour is at half the distance.
-/
namespace Reckon.Binary64
set_option autoImplicit false
open Float.Model Float.Model.UnpackedFloat

theorem ofRatio_congr {r s : Ratio} (h : r.value = s.value) : ofRatio r = ofRatio s := by
  rcases Nat.eq_zero_or_pos r.num with hZero | hPos
  · have hZero' : s.num = 0 := by
      have hNone : ¬ 0 < r.num := by omega
      rw [← Ratio.value_pos_iff, h, Ratio.value_pos_iff] at hNone
      omega
    rw [ofRatio, ofRatio, if_pos hZero, if_pos hZero']
  · have hPos' : 0 < s.num := by rwa [← Ratio.value_pos_iff, ← h, Ratio.value_pos_iff]
    have hBinade : r.binade = s.binade := by rw [Ratio.binade_eq_log hPos, Ratio.binade_eq_log hPos', h]
    have hRound (power : Int) : (r.scaleBinary power).roundEven = (s.scaleBinary power).roundEven :=
      Ratio.roundEven_congr (by rw [Ratio.value_scaleBinary, Ratio.value_scaleBinary, h])
    simp only [ofRatio, if_neg hPos.ne', if_neg hPos'.ne', hBinade, hRound]

/-- The fraction is nearer to the number than to any other. -/
structure Near (m : Nat) (e : Int) (q : ℚ) : Prop where
  low : ((m : ℚ) - 1 / 2) * 2 ^ e < q
  edge : m = 2 ^ 52 → ((m : ℚ) - 1 / 4) * 2 ^ e < q
  high : q < ((m : ℚ) + 1 / 2) * 2 ^ e

section Nearest

variable {m : Nat} {e : Int} {hPos : 0 < m} {r : Ratio}

theorem two_zpow_pos (k : Int) : (0 : ℚ) < 2 ^ k := zpow_pos two_pos k

theorem roundEven_of_near {m : Nat} {e : Int} (hLow : ((m : ℚ) - 1 / 2) * 2 ^ e < r.value)
    (hHigh : r.value < ((m : ℚ) + 1 / 2) * 2 ^ e) : (r.scaleBinary (-e)).roundEven = m := by
  apply Ratio.roundEven_of_near
  · rwa [Ratio.value_scaleBinary_neg, lt_div_iff₀ (two_zpow_pos e)]
  · rwa [Ratio.value_scaleBinary_neg, div_lt_iff₀ (two_zpow_pos e)]

/-- The bits of a fraction are the steps that it is rounded to, above those of all smaller units. -/
theorem ofRatio_eq_ofBits (unit : Int) {steps : Nat} (hSome : 0 < r.num)
    (hUnit : max (Int.log 2 r.value - 52) (-1074) = unit) (hSteps : (r.scaleBinary (-unit)).roundEven = steps)
    (hRange : (unit + 1074).toNat * 2 ^ 52 + steps < 0x7FF0000000000000) :
    ofRatio r = Float.ofBits (UInt64.ofNat ((unit + 1074).toNat * 2 ^ 52 + steps)) := by
  have hBits : (unit + 1074).toNat * hiddenBit + steps < 0x7FF0000000000000 := hRange
  simp only [ofRatio, if_neg hSome.ne', Ratio.binade_eq_log hSome, hUnit, hSteps, if_pos hBits]
  rfl

/-! ## Below a power of two the unit is the next smaller one -/

theorem two_zpow_pred (e : Int) : (2 : ℚ) ^ e = 2 * 2 ^ (e - 1) := by
  rw [← zpow_one_add₀ two_ne_zero]
  congr 1
  omega

theorem log_below {q : ℚ} (hQuarter : ((2 ^ 52 : Nat) - 1 / 4 : ℚ) * 2 ^ e < q)
    (hBelow : q < 2 ^ (52 : Int) * 2 ^ e) : Int.log 2 q = 51 + e := by
  have hUnit := two_zpow_pos e
  apply Ratio.log_eq one_lt_two
  · rw [Nat.cast_ofNat, zpow_add₀ two_ne_zero]
    norm_num at hQuarter ⊢
    linarith
  · rwa [Nat.cast_ofNat, show (51 : Int) + e + 1 = 52 + e by omega, zpow_add₀ two_ne_zero]

theorem roundEven_below (hQuarter : ((2 ^ 52 : Nat) - 1 / 4 : ℚ) * 2 ^ e < r.value)
    (hBelow : r.value < 2 ^ (52 : Int) * 2 ^ e) : (r.scaleBinary (-(e - 1))).roundEven = 2 ^ 53 := by
  rw [two_zpow_pred e] at hQuarter hBelow
  apply roundEven_of_near
  · norm_num at hQuarter ⊢
    linarith
  · have hStep := two_zpow_pos (e - 1)
    norm_num at hBelow ⊢
    linarith

theorem eq_of_below (hCanonical : Canonical (.finite .positive m e hPos)) (hLeast : e ≠ -1074)
    (hNear : Near m e r.value) (hBelow : r.value < 2 ^ (52 : Int) * 2 ^ e) : m = 2 ^ 52 := by
  obtain ⟨-, -, -, hFull⟩ := hCanonical
  refine Nat.le_antisymm ?_ (hFull.resolve_right hLeast)
  have hFewer : (m : ℚ) - 1 / 2 < 2 ^ (52 : Int) :=
    lt_of_mul_lt_mul_right (hNear.low.trans hBelow) (two_zpow_pos e).le
  have hNext : ((2 ^ 52 + 1 : Nat) : ℚ) = 2 ^ (52 : Int) + 1 := by norm_num
  have hLess : (m : ℚ) < (2 ^ 52 + 1 : Nat) := by
    rw [hNext]
    linarith
  exact Nat.lt_succ_iff.mp (Nat.cast_lt.mp hLess)

/-- A fraction is rounded to the number that it is nearest to. -/
theorem unpack_ofRatio_of_near (hCanonical : Canonical (.finite .positive m e hPos)) (hNear : Near m e r.value) :
    (ofRatio r).toModel.unpack = .finite .positive m e hPos := by
  have hUnit := two_zpow_pos e
  have hOne : (1 : ℚ) ≤ m := by exact_mod_cast hPos
  have hMost : (m : ℚ) + 1 ≤ 2 ^ 53 := by exact_mod_cast hCanonical.1
  have hPower (k : Int) : (2 : ℚ) ^ (k + e) = 2 ^ k * 2 ^ e := zpow_add₀ two_ne_zero k e
  have hValue : 0 < r.value := lt_trans (mul_pos (by linarith) hUnit) hNear.low
  have hSome : 0 < r.num := Ratio.value_pos_iff.mp hValue
  have hTop : Int.log 2 r.value < 53 + e := by
    rw [← Int.lt_zpow_iff_log_lt one_lt_two hValue, Nat.cast_ofNat, hPower]
    refine hNear.high.trans (mul_lt_mul_of_pos_right ?_ hUnit)
    norm_num at hMost ⊢
    linarith
  have ⟨hWidth, hLeast, hGreatest, hFull⟩ := hCanonical
  by_cases hSame : 52 + e ≤ Int.log 2 r.value ∨ e = -1074
  · rw [ofRatio_eq_ofBits e hSome (by omega) (roundEven_of_near hNear.low hNear.high) (by omega)]
    exact unpack_ofBits hCanonical
  · rw [not_or, not_le] at hSame
    have hBelow : r.value < 2 ^ (52 : Int) * 2 ^ e := by
      rw [← hPower]
      exact_mod_cast (Int.lt_zpow_iff_log_lt one_lt_two hValue).mpr hSame.1
    obtain rfl := eq_of_below hCanonical hSame.2 hNear hBelow
    have hLog := log_below (hNear.edge rfl) hBelow
    rw [ofRatio_eq_ofBits (e - 1) hSome (by omega) (roundEven_below (hNear.edge rfl) hBelow) (by omega),
      show (e - 1 + 1074).toNat * 2 ^ 52 + 2 ^ 53 = (e + 1074).toNat * 2 ^ 52 + 2 ^ 52 by omega]
    exact unpack_ofBits hCanonical

end Nearest
end Reckon.Binary64
