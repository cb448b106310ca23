import Mathlib
import Reckon.Ratio

/-! # The values of fractions

Fractions are not reduced, and all that is calculated from one depends on its value alone: parts, rounding and
where the first digit stands.
-/
namespace Reckon.Ratio
set_option autoImplicit false

/-- The rational number that a fraction stands for. -/
def value (r : Ratio) : ℚ := r.num / r.den

variable {r s : Ratio}

theorem den_cast_pos (r : Ratio) : (0 : ℚ) < r.den := by exact_mod_cast r.den_pos

theorem value_nonneg (r : Ratio) : 0 ≤ r.value := div_nonneg (Nat.cast_nonneg _) (Nat.cast_nonneg _)

theorem value_pos_iff : 0 < r.value ↔ 0 < r.num := by
  rw [value, div_pos_iff_of_pos_right r.den_cast_pos, Nat.cast_pos]

theorem value_ofNat (n : Nat) : (ofNat n).value = n := by simp [value, ofNat]

theorem value_scale (r : Ratio) (base : Nat) (hBase : 0 < base) (power : Int) :
    (r.scale base hBase power).value = r.value * (base : ℚ) ^ power := by
  have hNonzero : (base : ℚ) ≠ 0 := by exact_mod_cast hBase.ne'
  cases power with
  | ofNat n =>
    change ((r.num * base ^ n : Nat) : ℚ) / r.den = _
    rw [Int.ofNat_eq_natCast, zpow_natCast, value]
    push_cast
    ring
  | negSucc n =>
    change (r.num : ℚ) / (r.den * base ^ (n + 1) : Nat) = _
    rw [zpow_negSucc, value]
    push_cast
    field_simp

theorem value_scaleBinary (r : Ratio) (power : Int) : (r.scaleBinary power).value = r.value * 2 ^ power := by
  exact_mod_cast r.value_scale 2 _ power

theorem value_scaleDecimal (r : Ratio) (power : Int) :
    (r.scaleDecimal power).value = r.value * 10 ^ power := by
  exact_mod_cast r.value_scale 10 _ power

theorem value_scaleBinary_neg (r : Ratio) (power : Int) :
    (r.scaleBinary (-power)).value = r.value / 2 ^ power := by
  rw [value_scaleBinary, zpow_neg, div_eq_mul_inv]

theorem value_scaleDecimal_neg (r : Ratio) (power : Int) :
    (r.scaleDecimal (-power)).value = r.value / 10 ^ power := by
  rw [value_scaleDecimal, zpow_neg, div_eq_mul_inv]

theorem le_iff : r.le s = true ↔ r.value ≤ s.value := by
  rw [le, decide_eq_true_eq, value, value, div_le_div_iff₀ r.den_cast_pos s.den_cast_pos]
  exact_mod_cast Iff.rfl

theorem lt_iff : r.lt s = true ↔ r.value < s.value := by
  rw [lt, decide_eq_true_eq, value, value, div_lt_div_iff₀ r.den_cast_pos s.den_cast_pos]
  exact_mod_cast Iff.rfl

/-! ## Parts and rounding -/

theorem floor_eq (r : Ratio) : r.floor = ⌊r.value⌋₊ := (Nat.floor_div_eq_div r.num r.den).symm

/-- What the whole part leaves. -/
theorem value_eq (r : Ratio) : r.value = r.floor + (r.num % r.den : Nat) / r.den := by
  have hParts : (r.num : ℚ) = r.den * (r.num / r.den : Nat) + (r.num % r.den : Nat) := by
    exact_mod_cast (Nat.div_add_mod r.num r.den).symm
  rw [value, hParts, add_div, mul_div_cancel_left₀ _ r.den_cast_pos.ne']
  rfl

/-- Which neighbour is nearer, and which is even if none is. -/
theorem roundEven_eq (r : Ratio) : r.roundEven =
    if r.value - ⌊r.value⌋₊ < 1 / 2 then ⌊r.value⌋₊
    else if 1 / 2 < r.value - ⌊r.value⌋₊ then ⌊r.value⌋₊ + 1
    else ⌊r.value⌋₊ + ⌊r.value⌋₊ % 2 := by
  have hRest : r.value - (r.num / r.den : Nat) = (r.num % r.den : Nat) / r.den :=
    sub_eq_of_eq_add' r.value_eq
  have hBelow : 2 * (r.num % r.den) < r.den ↔ ((r.num % r.den : Nat) : ℚ) / r.den < 1 / 2 := by
    rw [div_lt_div_iff₀ r.den_cast_pos two_pos, one_mul, mul_comm]
    exact_mod_cast Iff.rfl
  have hAbove : r.den < 2 * (r.num % r.den) ↔ 1 / 2 < ((r.num % r.den : Nat) : ℚ) / r.den := by
    rw [div_lt_div_iff₀ two_pos r.den_cast_pos, one_mul, mul_comm]
    exact_mod_cast Iff.rfl
  rw [← r.floor_eq, floor, hRest, roundEven]
  simp only [hBelow, hAbove]

theorem roundEven_congr (h : r.value = s.value) : r.roundEven = s.roundEven := by
  rw [roundEven_eq, roundEven_eq, h]

theorem roundEven_of_near {m : Nat} (hLow : (m : ℚ) - 1 / 2 < r.value) (hHigh : r.value < m + 1 / 2) :
    r.roundEven = m := by
  have hNonneg := r.value_nonneg
  have hFloor := Nat.floor_le hNonneg
  rw [roundEven_eq]
  rcases lt_or_ge r.value m with hBelow | hAbove
  · -- The number is above the middle between the number before `m` and `m`.
    cases m with
    | zero => exact absurd hBelow (by push_cast; exact not_lt.mpr hNonneg)
    | succ m =>
      push_cast at hLow hBelow
      have hSame : ⌊r.value⌋₊ = m := (Nat.floor_eq_iff hNonneg).mpr ⟨by linarith, hBelow⟩
      rw [hSame, if_neg (by linarith), if_pos (by linarith)]
  · have hSame : ⌊r.value⌋₊ = m := (Nat.floor_eq_iff hNonneg).mpr ⟨hAbove, by linarith⟩
    rw [hSame, if_pos (by linarith)]

/-- Rounding is off by one half at most. -/
theorem roundEven_bounds (r : Ratio) : (r.roundEven : ℚ) - 1 / 2 ≤ r.value ∧ r.value ≤ r.roundEven + 1 / 2 := by
  have hFloor := Nat.floor_le r.value_nonneg
  have hNext := Nat.lt_floor_add_one r.value
  rw [roundEven_eq]
  split
  · constructor <;> linarith
  · split
    · push_cast
      constructor <;> linarith
    · rcases Nat.mod_two_eq_zero_or_one ⌊r.value⌋₊ with hEven | hOdd
      · rw [hEven, Nat.add_zero]
        constructor <;> linarith
      · rw [hOdd]
        push_cast
        constructor <;> linarith

theorem le_roundEven {m : Nat} (h : (m : ℚ) ≤ r.value) : m ≤ r.roundEven := by
  have hLess : (m : ℚ) < (r.roundEven + 1 : Nat) := by
    push_cast
    linarith [r.roundEven_bounds.2]
  exact Nat.lt_succ_iff.mp (Nat.cast_lt.mp hLess)

theorem roundEven_le {m : Nat} (h : r.value ≤ m) : r.roundEven ≤ m := by
  have hLess : (r.roundEven : ℚ) < (m + 1 : Nat) := by
    push_cast
    linarith [r.roundEven_bounds.1]
  exact Nat.lt_succ_iff.mp (Nat.cast_lt.mp hLess)

theorem roundEven_eq_floor_or (r : Ratio) : r.roundEven = r.floor ∨ r.roundEven = r.floor + 1 := by
  rw [roundEven, floor]
  split
  · exact .inl rfl
  · split
    · exact .inr rfl
    · rcases Nat.mod_two_eq_zero_or_one (r.num / r.den) with hEven | hOdd
      · exact .inl (by omega)
      · exact .inr (by omega)

/-! ## Where the first digit stands -/

theorem log_eq {base : Nat} {q : ℚ} {k : Int} (hBase : 1 < base) (hLow : (base : ℚ) ^ k ≤ q)
    (hHigh : q < (base : ℚ) ^ (k + 1)) : Int.log base q = k := by
  have hPos : 0 < q := lt_of_lt_of_le (zpow_pos (by exact_mod_cast (by omega : 0 < base)) k) hLow
  have hAtLeast := (Int.zpow_le_iff_le_log hBase hPos).mp hLow
  have hAtMost := (Int.lt_zpow_iff_log_lt hBase hPos).mp hHigh
  omega

/-- The first digits of numerator and denominator tell where the first digit stands, up to one place. -/
theorem value_bounds {base a b : Nat} (hBase : 0 < base) (hNum : base ^ a ≤ r.num)
    (hNum' : r.num < base ^ (a + 1)) (hDen : base ^ b ≤ r.den) (hDen' : r.den < base ^ (b + 1)) :
    (base : ℚ) ^ ((a : Int) - b - 1) ≤ r.value ∧ r.value < (base : ℚ) ^ ((a : Int) - b + 1) := by
  have hNonzero : (base : ℚ) ≠ 0 := by exact_mod_cast hBase.ne'
  have hPos (k : Int) : (0 : ℚ) < (base : ℚ) ^ k := zpow_pos (by exact_mod_cast hBase) k
  rw [value, le_div_iff₀ r.den_cast_pos, div_lt_iff₀ r.den_cast_pos]
  constructor
  · calc (base : ℚ) ^ ((a : Int) - b - 1) * r.den
        ≤ (base : ℚ) ^ ((a : Int) - b - 1) * (base : ℚ) ^ (b + 1 : Int) :=
          mul_le_mul_of_nonneg_left (by exact_mod_cast hDen'.le) (hPos _).le
      _ = (base : ℚ) ^ (a : Int) := by
          rw [← zpow_add₀ hNonzero]
          congr 1
          omega
      _ ≤ r.num := by exact_mod_cast hNum
  · calc (r.num : ℚ) < (base : ℚ) ^ (a + 1 : Int) := by exact_mod_cast hNum'
      _ = (base : ℚ) ^ ((a : Int) - b + 1) * (base : ℚ) ^ (b : Int) := by
          rw [← zpow_add₀ hNonzero]
          congr 1
          omega
      _ ≤ (base : ℚ) ^ ((a : Int) - b + 1) * r.den :=
          mul_le_mul_of_nonneg_left (by exact_mod_cast hDen) (hPos _).le

theorem binade_eq_log (h : 0 < r.num) : r.binade = Int.log 2 r.value := by
  obtain ⟨hLow, hHigh⟩ := value_bounds two_pos (Nat.log2_self_le h.ne') Nat.lt_log2_self
    (Nat.log2_self_le r.den_pos.ne') Nat.lt_log2_self
  simp only [binade, le_iff, value_scaleBinary, value_ofNat, Nat.cast_one, one_mul]
  split
  · rename_i hReaches
    exact (log_eq one_lt_two (by exact_mod_cast hReaches) hHigh).symm
  · rename_i hReaches
    refine (log_eq one_lt_two hLow ?_).symm
    rw [sub_add_cancel]
    exact_mod_cast not_le.mp hReaches

/-- A number has as many digits as the least power of ten above it has zeros. -/
theorem digitCount_bounds {n : Nat} (h : 0 < n) :
    ∃ k, digitCount n = k + 1 ∧ 10 ^ k ≤ n ∧ n < 10 ^ (k + 1) := by
  obtain ⟨k, hCount⟩ := Nat.exists_eq_add_one_of_ne_zero (Nat.length_toDigits_pos (b := 10) (n := n)).ne'
  refine ⟨k, hCount, ?_, ?_⟩
  · cases k with
    | zero => exact h
    | succ k =>
      by_contra hShort
      have hFewer := (Nat.length_toDigits_le_iff (b := 10) (by decide) k.succ_pos).mpr (Nat.lt_of_not_le hShort)
      omega
  · exact (Nat.length_toDigits_le_iff (by decide) k.succ_pos).mp hCount.le

theorem decade_eq_log (h : 0 < r.num) : r.decade = Int.log 10 r.value + 1 := by
  obtain ⟨a, hCount, hNum, hNum'⟩ := digitCount_bounds h
  obtain ⟨b, hCount', hDen, hDen'⟩ := digitCount_bounds r.den_pos
  obtain ⟨hLow, hHigh⟩ := value_bounds (by decide) hNum hNum' hDen hDen'
  have hPlaces : ((digitCount r.num : Int) - digitCount r.den) = (a : Int) - b := by
    rw [hCount, hCount']
    omega
  simp only [decade, lt_iff, value_scaleDecimal, value_ofNat, Nat.cast_one, one_mul, hPlaces]
  split
  · rename_i hBelow
    rw [log_eq (by decide) hLow (by rw [sub_add_cancel]; exact_mod_cast hBelow), sub_add_cancel]
  · rename_i hBelow
    rw [log_eq (by decide) (by exact_mod_cast not_lt.mp hBelow) hHigh]

end Reckon.Ratio
