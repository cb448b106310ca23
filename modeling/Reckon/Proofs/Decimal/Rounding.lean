import Reckon.Proofs.Binary64.Accuracy
import Reckon.Proofs.Decimal.Reading

/-! # Rounding to a count of digits

A number rounded to six digits and read back has moved by less than one twentieth of the last digit. So it is
rounded to the same six digits again, also where it has come to lie below a power of ten.
-/
namespace Reckon.Decimal
set_option autoImplicit false
open Binary64

/-- The decimal has `more` digits behind the first and is off by half of the last one at most. -/
structure Rounds (more : Nat) (q : ℚ) (d : Decimal) : Prop where
  least : 10 ^ more ≤ d.coefficient
  most : d.coefficient < 10 ^ (more + 1)
  near : |d.value - q| ≤ 10 ^ d.exponent / 2

variable {x y : Float} {more c : Nat} {k : Int} {q : ℚ} {d : Decimal}

/-! ## The digits of a number -/

/-- Where the first digit stands decides on the step, and rounding may lead to the next power of ten. -/
theorem rounded_eq (hPos : 0 < (ratio x).value) (hLog : Int.log 10 (ratio x).value = k + more)
    (hRound : ((ratio x).scaleDecimal (-k)).roundEven = c) :
    rounded (more + 1) x = if c = 10 ^ (more + 1) then ⟨10 ^ more, k + 1⟩ else ⟨c, k⟩ := by
  have hDecade := Ratio.decade_eq_log (Ratio.value_pos_iff.mp hPos)
  have hExponent : (ratio x).decade - (more + 1 : Nat) = k := by omega
  rw [rounded]
  simp only [hExponent, hRound, Nat.add_sub_cancel]
  rfl

theorem ten_zpow_add (k : Int) (n : Nat) : (10 : ℚ) ^ (k + n) = (10 ^ n : Nat) * 10 ^ k := by
  rw [zpow_add₀ (by norm_num), zpow_natCast, mul_comm]
  push_cast
  rfl

/-- The digits that a fraction is rounded to, up to those of the next power of ten. -/
theorem digits_bounds {r : Ratio} (hPos : 0 < r.value) (hLog : Int.log 10 r.value = k + more)
    (hRound : (r.scaleDecimal (-k)).roundEven = c) : 10 ^ more ≤ c ∧ c ≤ 10 ^ (more + 1) := by
  have hStep := ten_zpow_pos k
  have hLow := Int.zpow_log_le_self (b := 10) (by decide) hPos
  have hHigh := Int.lt_zpow_succ_log_self (b := 10) (by decide) r.value
  rw [hLog, Nat.cast_ofNat, ten_zpow_add] at hLow
  rw [hLog, Nat.cast_ofNat, show k + more + 1 = k + (more + 1 : Nat) by omega, ten_zpow_add] at hHigh
  rw [← hRound]
  constructor
  · apply Ratio.le_roundEven
    rwa [Ratio.value_scaleDecimal_neg, le_div_iff₀ hStep]
  · apply Ratio.roundEven_le
    rw [Ratio.value_scaleDecimal_neg, div_le_iff₀ hStep]
    exact hHigh.le

theorem digits_near {r : Ratio} (hRound : (r.scaleDecimal (-k)).roundEven = c) :
    |(c : ℚ) * 10 ^ k - r.value| ≤ 10 ^ k / 2 := by
  have hStep := ten_zpow_pos k
  obtain ⟨hBelow, hAbove⟩ := (r.scaleDecimal (-k)).roundEven_bounds
  rw [hRound, Ratio.value_scaleDecimal_neg, le_div_iff₀ hStep] at hBelow
  rw [hRound, Ratio.value_scaleDecimal_neg, div_le_iff₀ hStep] at hAbove
  rw [abs_le]
  constructor <;> linarith

theorem rounds_rounded (more : Nat) (h : 0 < (ratio x).value) :
    Rounds more (ratio x).value (rounded (more + 1) x) := by
  obtain ⟨k, hLog⟩ : ∃ k : Int, Int.log 10 (ratio x).value = k + more :=
    ⟨_, (Int.sub_add_cancel _ _).symm⟩
  obtain ⟨c, hRound⟩ : ∃ c, ((ratio x).scaleDecimal (-k)).roundEven = c := ⟨_, rfl⟩
  obtain ⟨hLeast, hMost⟩ := digits_bounds h hLog hRound
  have hNear := digits_near hRound
  rw [rounded_eq h hLog hRound]
  split
  · rename_i hCarry
    have hSame : (⟨10 ^ more, k + 1⟩ : Decimal).value = c * 10 ^ k := by
      rw [value, hCarry, zpow_add_one₀ (by norm_num)]
      push_cast
      ring
    have hWider : (10 : ℚ) ^ (k + 1) = 10 * 10 ^ k := by
      rw [zpow_add_one₀ (by norm_num), mul_comm]
    refine ⟨Nat.le_refl _, Nat.pow_lt_pow_succ (by decide), ?_⟩
    rw [hSame, hWider]
    linarith [ten_zpow_pos k]
  · rename_i hFewer
    exact ⟨hLeast, Nat.lt_of_le_of_ne hMost hFewer, hNear⟩

/-! ## Numbers near to a decimal -/

theorem next_power (more : Nat) : ((10 ^ (more + 1) : Nat) : ℚ) = 10 * (10 ^ more : Nat) := by
  push_cast
  ring

/-- What is near to a decimal and no less than its power of ten is rounded to it. -/
theorem rounded_of_near_above (hMost : c < 10 ^ (more + 1))
    (hAbove : ((10 ^ more : Nat) : ℚ) * 10 ^ k ≤ (ratio x).value)
    (hNear : |(ratio x).value - c * 10 ^ k| < 10 ^ k / 20) : rounded (more + 1) x = ⟨c, k⟩ := by
  have hStep := ten_zpow_pos k
  obtain ⟨hLow, hHigh⟩ := abs_lt.mp hNear
  have hPos : 0 < (ratio x).value :=
    lt_of_lt_of_le (mul_pos (by exact_mod_cast Nat.pow_pos (by decide)) hStep) hAbove
  have hFewer : ((c : ℚ) + 1) * 10 ^ k ≤ (10 ^ (more + 1) : Nat) * 10 ^ k :=
    mul_le_mul_of_nonneg_right (by exact_mod_cast hMost) hStep.le
  have hLog : Int.log 10 (ratio x).value = k + more := by
    apply Ratio.log_eq (by decide)
    · rwa [Nat.cast_ofNat, ten_zpow_add]
    · rw [Nat.cast_ofNat, show k + more + 1 = k + (more + 1 : Nat) by omega, ten_zpow_add]
      linarith
  have hRound : ((ratio x).scaleDecimal (-k)).roundEven = c := by
    apply Ratio.roundEven_of_near
    · rw [Ratio.value_scaleDecimal_neg, lt_div_iff₀ hStep]
      linarith
    · rw [Ratio.value_scaleDecimal_neg, div_lt_iff₀ hStep]
      linarith
  rw [rounded_eq hPos hLog hRound, if_neg (Nat.ne_of_lt hMost)]

/-- Below a power of ten the step is finer, and what is near to the power is rounded up to it. -/
theorem rounded_of_near_below (hBelow : (ratio x).value < (10 ^ more : Nat) * 10 ^ k)
    (hNear : |(ratio x).value - (10 ^ more : Nat) * 10 ^ k| < 10 ^ k / 20) :
    rounded (more + 1) x = ⟨10 ^ more, k⟩ := by
  have hStep := ten_zpow_pos (k - 1)
  have hLow := (abs_lt.mp hNear).1
  have hFiner : (10 : ℚ) ^ k = 10 * 10 ^ (k - 1) := by
    rw [← zpow_one_add₀ (by norm_num)]
    congr 1
    omega
  have hPower : 1 * (10 : ℚ) ^ (k - 1) ≤ (10 ^ more : Nat) * 10 ^ (k - 1) :=
    mul_le_mul_of_nonneg_right (by exact_mod_cast Nat.one_le_pow more 10 (by decide)) hStep.le
  rw [hFiner] at hLow hBelow
  have hPos : 0 < (ratio x).value := by linarith
  have hLog : Int.log 10 (ratio x).value = k - 1 + more := by
    apply Ratio.log_eq (by decide)
    · rw [Nat.cast_ofNat, ten_zpow_add]
      linarith
    · rw [Nat.cast_ofNat, show k - 1 + more + 1 = k - 1 + (more + 1 : Nat) by omega, ten_zpow_add, next_power]
      linarith
  have hRound : ((ratio x).scaleDecimal (-(k - 1))).roundEven = 10 ^ (more + 1) := by
    apply Ratio.roundEven_of_near
    · rw [Ratio.value_scaleDecimal_neg, lt_div_iff₀ hStep, next_power]
      linarith
    · rw [Ratio.value_scaleDecimal_neg, div_lt_iff₀ hStep, next_power]
      linarith
  rw [rounded_eq hPos hLog hRound, if_pos rfl, Int.sub_add_cancel]

theorem rounded_of_near (hLeast : 10 ^ more ≤ d.coefficient) (hMost : d.coefficient < 10 ^ (more + 1))
    (hNear : |(ratio x).value - d.value| < 10 ^ d.exponent / 20) : rounded (more + 1) x = d := by
  obtain ⟨c, k⟩ := d
  replace hNear : |(ratio x).value - c * 10 ^ k| < 10 ^ k / 20 := hNear
  by_cases hAbove : ((10 ^ more : Nat) : ℚ) * 10 ^ k ≤ (ratio x).value
  · exact rounded_of_near_above hMost hAbove hNear
  · -- The digits are those of the power of ten itself.
    obtain rfl : c = 10 ^ more := by
      refine Nat.le_antisymm ?_ hLeast
      have hLow := (abs_lt.mp hNear).1
      have hLess : (c : ℚ) * 10 ^ k < (10 ^ more + 1 : Nat) * 10 ^ k := by
        push_cast at hAbove ⊢
        linarith [ten_zpow_pos k]
      exact Nat.lt_succ_iff.mp (Nat.cast_lt.mp (lt_of_mul_lt_mul_right hLess (ten_zpow_pos k).le))
    exact rounded_of_near_below (not_le.mp hAbove) hNear

/-! ## Six digits, read back -/

/-- Decimals in the range are read with the accuracy of the numbers. -/
theorem exists_unpack_toFloat (h : InRange d.toRatio) :
    ∃ m e hPos, d.toFloat.toModel.unpack = .finite .positive m e hPos ∧
      |(m : ℚ) * 2 ^ e - d.value| ≤ d.value / 2 ^ 52 := by
  have hPos := h.pos
  have hLow := h.low
  have hHigh := h.lt_two_zpow
  rw [value_toRatio] at hPos hLow hHigh
  have hSome := value_pos_iff.mp hPos
  have hLeast : (2 : ℚ) ^ (-1074 : Int) ≤ 2 ^ (-1023 : Int) := zpow_le_zpow_right₀ one_le_two (by decide)
  have hLog := log_range (hLeast.trans hLow) hHigh
  have hDecade := decade_eq_log hSome
  obtain ⟨m, e, hSignificand, hUnpack, hNear⟩ := exists_unpack_ofRatio h
  rw [value_toRatio] at hNear
  refine ⟨m, e, hSignificand, ?_, hNear⟩
  rwa [toFloat, if_neg hSome.ne', if_neg (by omega), if_neg (by omega)]

theorem Rounds.value_pos (h : Rounds more q d) : 0 < d.value :=
  value_pos_iff.mpr (Nat.lt_of_lt_of_le (Nat.pow_pos (by decide)) h.least)

/-- The largest number lies between these multiples of `10 ^ 303`. -/
theorem largest_bounds : 2 * ((2 ^ 53 - 1) * 2 ^ 971) < 359539 * 10 ^ 303 ∧
    179769 * 10 ^ 303 ≤ (2 ^ 53 - 1) * 2 ^ 971 := by decide +kernel

/-- No number is so large that six of its digits are read as infinity. -/
theorem Rounds.value_le (h : Rounds 5 q d) (hHigh : q ≤ (2 ^ 53 - 1 : Nat) * 2 ^ (971 : Int)) :
    d.value ≤ (2 ^ 53 - 1 : Nat) * 2 ^ (971 : Int) := by
  obtain ⟨c, k⟩ := d
  obtain ⟨hLeast, hMost, hNear⟩ := h
  have hBelow := (abs_le.mp hNear).2
  have hLargest : 2 * (((2 ^ 53 - 1 : Nat) : ℚ) * 2 ^ (971 : Int)) < 359539 * 10 ^ (303 : Int) := by
    exact_mod_cast largest_bounds.1
  have hSix : 179769 * (10 : ℚ) ^ (303 : Int) ≤ (2 ^ 53 - 1 : Nat) * 2 ^ (971 : Int) := by
    exact_mod_cast largest_bounds.2
  have hFiner (hLess : k < 303) : (10 : ℚ) ^ k * 10 ≤ 10 ^ (303 : Int) := by
    rw [← zpow_add_one₀ (by norm_num)]
    exact zpow_le_zpow_right₀ (by norm_num) hLess
  have hCoarser (hMore : 303 < k) : (10 : ℚ) ^ (303 : Int) * 10 ≤ 10 ^ k := by
    rw [← zpow_add_one₀ (by norm_num)]
    exact zpow_le_zpow_right₀ (by norm_num) hMore
  have hEqual (hSame : k = 303) : (10 : ℚ) ^ k = 10 ^ (303 : Int) := by rw [hSame]
  have hDigits : ((10 ^ 5 : Nat) : ℚ) * 10 ^ k ≤ c * 10 ^ k ∧ (c : ℚ) * 10 ^ k ≤ (10 ^ 6 : Nat) * 10 ^ k :=
    ⟨mul_le_mul_of_nonneg_right (by exact_mod_cast hLeast) (ten_zpow_pos k).le,
      mul_le_mul_of_nonneg_right (by exact_mod_cast hMost.le) (ten_zpow_pos k).le⟩
  have hStep := ten_zpow_pos k
  have hTop := ten_zpow_pos 303
  rw [value] at hBelow ⊢
  dsimp only at hBelow ⊢
  generalize ((2 ^ 53 - 1 : Nat) : ℚ) * 2 ^ (971 : Int) = largest at hHigh hLargest hSix ⊢
  generalize (10 : ℚ) ^ (303 : Int) = top at hFiner hCoarser hEqual hLargest hSix hTop
  generalize (10 : ℚ) ^ k = step at hFiner hCoarser hEqual hDigits hStep hBelow ⊢
  push_cast at hDigits
  refine le_trans ?_ hSix
  rcases lt_trichotomy k 303 with hSmaller | hSame | hGreater
  · have hTenth := hFiner hSmaller
    linarith
  · obtain rfl := hEqual hSame
    have hFewer : (c : ℚ) * step < (179770 : Nat) * step := by
      push_cast
      linarith
    have hLess : c < 179770 := by exact_mod_cast lt_of_mul_lt_mul_right hFewer hStep.le
    exact mul_le_mul_of_nonneg_right (by exact_mod_cast Nat.lt_succ_iff.mp hLess) hStep.le
  · have hTimes := hCoarser hGreater
    linarith

theorem Rounds.inRange (h : Rounds 5 q d) (hLow : 2 ^ (-1022 : Int) ≤ q)
    (hHigh : q ≤ (2 ^ 53 - 1 : Nat) * 2 ^ (971 : Int)) : InRange d.toRatio := by
  have hAbove := (abs_le.mp h.near).1
  have hLeast : (10 : ℚ) ^ 5 ≤ d.coefficient := by exact_mod_cast h.least
  have hStep := ten_zpow_pos d.exponent
  have hHalf : (2 : ℚ) ^ (-1022 : Int) = 2 ^ (-1023 : Int) * 2 := zpow_add_one₀ two_ne_zero (-1023)
  constructor
  · rw [value_toRatio]
    rw [value] at hAbove ⊢
    nlinarith
  · rw [value_toRatio]
    exact h.value_le hHigh

/-- A number whose magnitude is read off the six digits of another one is rounded to the same six digits. -/
theorem rounded_of_rounded (hLow : 2 ^ (-1022 : Int) ≤ (ratio x).value)
    (hHigh : (ratio x).value ≤ (2 ^ 53 - 1 : Nat) * 2 ^ (971 : Int)) {m : Nat} {e : Int} {hPos : 0 < m}
    {s : Float.Model.UnpackedFloat.Sign}
    (hRead : (rounded 6 x).toFloat.toModel.unpack = .finite .positive m e hPos)
    (hSame : y.toModel.unpack = .finite s m e hPos) : rounded 6 y = rounded 6 x := by
  have hRounds : Rounds 5 (ratio x).value (rounded 6 x) :=
    rounds_rounded 5 (lt_of_lt_of_le (two_zpow_pos _) hLow)
  obtain ⟨m', e', hPos', hUnpack, hNear⟩ := exists_unpack_toFloat (hRounds.inRange hLow hHigh)
  rw [hRead] at hUnpack
  cases hUnpack
  have hMost : ((rounded 6 x).coefficient : ℚ) ≤ 10 ^ 6 := by exact_mod_cast hRounds.most.le
  have hStep := ten_zpow_pos (rounded 6 x).exponent
  refine rounded_of_near hRounds.least hRounds.most ?_
  rw [value_ratio hSame]
  refine lt_of_le_of_lt hNear ?_
  calc (rounded 6 x).value / 2 ^ 52
      ≤ 10 ^ 6 * 10 ^ (rounded 6 x).exponent / 2 ^ 52 :=
        div_le_div_of_nonneg_right (mul_le_mul_of_nonneg_right hMost hStep.le) (by positivity)
    _ < 10 ^ (rounded 6 x).exponent / 20 := by linarith

end Reckon.Decimal
