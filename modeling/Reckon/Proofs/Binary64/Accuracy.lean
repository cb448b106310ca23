import Reckon.Proofs.Binary64.Rounding

/-! # How far rounding leads

A fraction is rounded to whole steps of its unit. Down to half of the least normal number a unit is less than the
fraction by 51 bits, so the nearest number is off by no more than one part in `2 ^ 52`.
-/
namespace Reckon.Binary64
set_option autoImplicit false
open Float.Model Float.Model.UnpackedFloat

/-! ## Numbers from their steps -/

/-- So many steps of a unit are a number, also if they are one too many for its significand. -/
theorem exists_unpack_ofBits {unit : Int} {steps : Nat} (hSome : 0 < steps) (hMost : steps ≤ 2 ^ 53)
    (hLeast : -1074 ≤ unit) (hFull : 2 ^ 52 ≤ steps ∨ unit = -1074)
    (hRange : (unit + 1074).toNat * 2 ^ 52 + steps < 0x7FF0000000000000) :
    ∃ m e hPos, (Float.ofBits (UInt64.ofNat ((unit + 1074).toNat * 2 ^ 52 + steps))).toModel.unpack =
      .finite .positive m e hPos ∧ (m : ℚ) * 2 ^ e = steps * 2 ^ unit := by
  rcases Nat.lt_or_eq_of_le hMost with hWidth | rfl
  · exact ⟨steps, unit, hSome, unpack_ofBits ⟨hWidth, hLeast, by omega, hFull⟩, rfl⟩
  · have hCanonical : Canonical (.finite .positive (2 ^ 52) (unit + 1) (Nat.two_pow_pos 52)) :=
      ⟨by decide, by omega, by omega, .inl (Nat.le_refl _)⟩
    refine ⟨2 ^ 52, unit + 1, Nat.two_pow_pos 52, ?_, ?_⟩
    · rw [show (unit + 1074).toNat * 2 ^ 52 + 2 ^ 53 = (unit + 1 + 1074).toNat * 2 ^ 52 + 2 ^ 52 by omega]
      exact unpack_ofBits hCanonical
    · rw [zpow_add_one₀ two_ne_zero]
      push_cast
      ring

/-! ## The unit of a fraction -/

section Unit

variable {r : Ratio} {unit : Int}

/-- Between the two the fraction is written with a significand of 52 or 53 bits. -/
structure InRange (r : Ratio) : Prop where
  low : (2 : ℚ) ^ (-1023 : Int) ≤ r.value
  high : r.value ≤ (2 ^ 53 - 1 : Nat) * 2 ^ (971 : Int)

theorem InRange.pos (h : InRange r) : 0 < r.value := lt_of_lt_of_le (two_zpow_pos _) h.low

theorem InRange.lt_two_zpow (h : InRange r) : r.value < 2 ^ (1024 : Int) :=
  calc r.value ≤ (2 ^ 53 - 1 : Nat) * 2 ^ (971 : Int) := h.high
    _ < 2 ^ (53 : Int) * 2 ^ (971 : Int) := mul_lt_mul_of_pos_right (by norm_num) (two_zpow_pos _)
    _ = 2 ^ (1024 : Int) := (zpow_add₀ two_ne_zero 53 971).symm

theorem InRange.log_lt (h : InRange r) : Int.log 2 r.value < 1024 := by
  rw [← Int.lt_zpow_iff_log_lt one_lt_two h.pos, Nat.cast_ofNat]
  exact h.lt_two_zpow

theorem unit_le (h : InRange r) (hUnit : max (Int.log 2 r.value - 52) (-1074) = unit) :
    (2 : ℚ) ^ unit * 2 ^ 51 ≤ r.value := by
  rcases max_cases (Int.log 2 r.value - 52) (-1074) with ⟨hMax, -⟩ | ⟨hMax, -⟩
  · obtain rfl := hMax.symm.trans hUnit
    calc (2 : ℚ) ^ (Int.log 2 r.value - 52) * 2 ^ 51 = 2 ^ (Int.log 2 r.value - 1) := by
          rw [← zpow_natCast, ← zpow_add₀ two_ne_zero]
          congr 1
          omega
      _ ≤ 2 ^ Int.log 2 r.value := zpow_le_zpow_right₀ one_le_two (by omega)
      _ ≤ r.value := by exact_mod_cast Int.zpow_log_le_self one_lt_two h.pos
  · obtain rfl := hMax.symm.trans hUnit
    calc (2 : ℚ) ^ (-1074 : Int) * 2 ^ 51 = 2 ^ (-1023 : Int) := by
          rw [← zpow_natCast, ← zpow_add₀ two_ne_zero]
          norm_num
      _ ≤ r.value := h.low

/-! The steps that a fraction is rounded to make up a number in the range. -/

variable {steps : Nat}

theorem le_steps (h : InRange r) (hUnit : max (Int.log 2 r.value - 52) (-1074) = unit)
    (hSteps : (r.scaleBinary (-unit)).roundEven = steps) : 2 ^ 51 ≤ steps := by
  rw [← hSteps]
  apply Ratio.le_roundEven
  rw [r.value_scaleBinary_neg, le_div_iff₀ (two_zpow_pos unit), mul_comm]
  exact_mod_cast unit_le h hUnit

theorem steps_le (hUnit : max (Int.log 2 r.value - 52) (-1074) = unit)
    (hSteps : (r.scaleBinary (-unit)).roundEven = steps) : steps ≤ 2 ^ 53 := by
  have hAbove := Int.lt_zpow_succ_log_self (b := 2) one_lt_two r.value
  rw [← hSteps]
  apply Ratio.roundEven_le
  rw [r.value_scaleBinary_neg, div_le_iff₀ (two_zpow_pos unit)]
  calc r.value ≤ (2 : ℚ) ^ (Int.log 2 r.value + 1) := by exact_mod_cast hAbove.le
    _ ≤ 2 ^ (53 + unit) := zpow_le_zpow_right₀ one_le_two (by omega)
    _ = (2 ^ 53 : Nat) * 2 ^ unit := by
        rw [zpow_add₀ two_ne_zero]
        norm_num

theorem full_steps (h : InRange r) (hUnit : max (Int.log 2 r.value - 52) (-1074) = unit)
    (hSteps : (r.scaleBinary (-unit)).roundEven = steps) : 2 ^ 52 ≤ steps ∨ unit = -1074 := by
  rcases max_cases (Int.log 2 r.value - 52) (-1074) with ⟨hMax, -⟩ | ⟨hMax, -⟩
  · left
    have hBelow := Int.zpow_log_le_self (b := 2) one_lt_two h.pos
    rw [← hSteps]
    apply Ratio.le_roundEven
    rw [r.value_scaleBinary_neg, le_div_iff₀ (two_zpow_pos unit)]
    calc ((2 ^ 52 : Nat) : ℚ) * 2 ^ unit = 2 ^ (52 + unit) := by
          rw [zpow_add₀ two_ne_zero]
          norm_num
      _ = 2 ^ Int.log 2 r.value := by
          congr 1
          omega
      _ ≤ r.value := by exact_mod_cast hBelow
  · exact .inr (hUnit.symm.trans hMax)

theorem bits_lt (h : InRange r) (hUnit : max (Int.log 2 r.value - 52) (-1074) = unit)
    (hSteps : (r.scaleBinary (-unit)).roundEven = steps) :
    (unit + 1074).toNat * 2 ^ 52 + steps < 0x7FF0000000000000 := by
  have hLog := h.log_lt
  have hMost := steps_le hUnit hSteps
  by_cases hTop : unit = 971
  · -- In the greatest unit the steps are no more than those of the largest number.
    have hFewer : steps ≤ 2 ^ 53 - 1 := by
      rw [← hSteps]
      apply Ratio.roundEven_le
      rw [r.value_scaleBinary_neg, div_le_iff₀ (two_zpow_pos unit), hTop]
      exact h.high
    omega
  · omega

end Unit

/-! ## The nearest number -/

/-- The number nearest to a fraction in the range is off by one part in `2 ^ 52` at most. -/
theorem exists_unpack_ofRatio {r : Ratio} (h : InRange r) :
    ∃ m e hPos, (ofRatio r).toModel.unpack = .finite .positive m e hPos ∧
      |(m : ℚ) * 2 ^ e - r.value| ≤ r.value / 2 ^ 52 := by
  obtain ⟨unit, hUnit⟩ : ∃ unit, max (Int.log 2 r.value - 52) (-1074) = unit := ⟨_, rfl⟩
  obtain ⟨steps, hSteps⟩ : ∃ steps, (r.scaleBinary (-unit)).roundEven = steps := ⟨_, rfl⟩
  have hRange := bits_lt h hUnit hSteps
  have hSome : 0 < steps := Nat.lt_of_lt_of_le (Nat.two_pow_pos 51) (le_steps h hUnit hSteps)
  obtain ⟨m, e, hPos, hUnpack, hValue⟩ :=
    exists_unpack_ofBits hSome (steps_le hUnit hSteps) (by omega) (full_steps h hUnit hSteps) hRange
  rw [← ofRatio_eq_ofBits unit (Ratio.value_pos_iff.mp h.pos) hUnit hSteps hRange] at hUnpack
  refine ⟨m, e, hPos, hUnpack, ?_⟩
  obtain ⟨hLow, hHigh⟩ := (r.scaleBinary (-unit)).roundEven_bounds
  have hPower := two_zpow_pos unit
  have hFine := unit_le h hUnit
  rw [hSteps, Ratio.value_scaleBinary_neg, le_div_iff₀ hPower] at hLow
  rw [hSteps, Ratio.value_scaleBinary_neg, div_le_iff₀ hPower] at hHigh
  rw [hValue, abs_le]
  constructor <;> linarith

end Reckon.Binary64
