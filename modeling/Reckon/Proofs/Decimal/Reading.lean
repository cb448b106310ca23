import Reckon.Decimal
import Reckon.Proofs.Binary64.Rounding

/-! # Decimals and the numbers they are read as

A decimal is read by its value alone, however many zeros it is written with. Seventeen digits are enough for
every binary64 number, so the search for the fewest digits that read back always ends with such digits.
-/
namespace Reckon.Decimal
set_option autoImplicit false
open Binary64

/-! ## Values -/

/-- The rational number that a decimal stands for. -/
def value (d : Decimal) : ℚ := d.coefficient * 10 ^ d.exponent

variable {d d' : Decimal}

theorem value_toRatio (d : Decimal) : d.toRatio.value = d.value := by
  rw [toRatio, Ratio.value_scaleDecimal, Ratio.value_ofNat, value]

theorem ten_zpow_pos (k : Int) : (0 : ℚ) < 10 ^ k := zpow_pos (by norm_num) k

theorem value_pos_iff : 0 < d.value ↔ 0 < d.coefficient := by
  rw [value, mul_pos_iff_of_pos_right (ten_zpow_pos _), Nat.cast_pos]

theorem decade_eq_log (h : 0 < d.coefficient) : d.decade = Int.log 10 d.value + 1 := by
  obtain ⟨k, hCount, hLow, hHigh⟩ := Ratio.digitCount_bounds h
  have hPower (i : Int) : (10 : ℚ) ^ (i + d.exponent) = 10 ^ i * 10 ^ d.exponent :=
    zpow_add₀ (by norm_num) i d.exponent
  have hLow' : (10 : ℚ) ^ (k : Int) ≤ d.coefficient := by exact_mod_cast hLow
  have hHigh' : (d.coefficient : ℚ) < 10 ^ (k + 1 : Int) := by exact_mod_cast hHigh
  have hLog : Int.log 10 d.value = k + d.exponent := by
    apply Ratio.log_eq (by decide)
    · rw [Nat.cast_ofNat, hPower]
      exact mul_le_mul_of_nonneg_right hLow' (ten_zpow_pos _).le
    · rw [Nat.cast_ofNat, show (k : Int) + d.exponent + 1 = k + 1 + d.exponent by omega, hPower]
      exact mul_lt_mul_of_pos_right hHigh' (ten_zpow_pos _)
  rw [decade, hCount, hLog]
  omega

/-- Decimals with one value are read as one number. -/
theorem toFloat_congr (h : d.value = d'.value) : d.toFloat = d'.toFloat := by
  rcases Nat.eq_zero_or_pos d.coefficient with hZero | hPos
  · have hZero' : d'.coefficient = 0 := by
      have hNone : ¬ 0 < d.coefficient := by omega
      rw [← value_pos_iff, h, value_pos_iff] at hNone
      omega
    rw [toFloat, toFloat, if_pos hZero, if_pos hZero']
  · have hPos' : 0 < d'.coefficient := by rwa [← value_pos_iff, ← h, value_pos_iff]
    have hDecade : d.decade = d'.decade := by rw [decade_eq_log hPos, decade_eq_log hPos', h]
    have hRatio : ofRatio d.toRatio = ofRatio d'.toRatio :=
      ofRatio_congr (by rw [value_toRatio, value_toRatio, h])
    rw [toFloat, toFloat, if_neg hPos.ne', if_neg hPos'.ne', hDecade, hRatio]

theorem readsAs_iff {x : Float} : d.readsAs x = true ↔ d.toFloat = x.abs := by
  rw [readsAs, beq_iff_eq, Float.toBits_inj]

/-! ## The search for the fewest digits -/

theorem reads_of_nearestReading {x : Float} {exponent : Int} (h : nearestReading x exponent = some d) :
    d.toFloat = x.abs := by
  rw [← readsAs_iff]
  simp only [nearestReading] at h
  split at h
  · rename_i hBelow hAbove
    cases h
    rcases Ratio.roundEven_eq_floor_or ((ratio x).scaleDecimal (-exponent)) with hFloor | hNext
    · rwa [hFloor]
    · rwa [hNext]
  · rename_i hBelow _
    cases h
    exact hBelow
  · rename_i _ hAbove
    cases h
    exact hAbove
  · cases h

/-- One of the two decimals around the number is at most half a step away. -/
theorem exists_near_step {q step : ℚ} (hStep : 0 < step) (hNonneg : 0 ≤ q) :
    ∃ j : Nat, (j = ⌊q / step⌋₊ ∨ j = ⌊q / step⌋₊ + 1) ∧
      q - step / 2 ≤ j * step ∧ j * step ≤ q + step / 2 := by
  have hFloor := (le_div_iff₀ hStep).mp (Nat.floor_le (div_nonneg hNonneg hStep.le))
  have hNext := (div_lt_iff₀ hStep).mp (Nat.lt_floor_add_one (q / step))
  rcases le_total (q - ⌊q / step⌋₊ * step) (step / 2) with hNear | hFar
  · exact ⟨_, .inl rfl, by linarith, by linarith⟩
  · refine ⟨_, .inr rfl, ?_, ?_⟩
    · push_cast
      linarith
    · push_cast
      linarith

section Seventeen

open Float.Model Float.Model.UnpackedFloat

variable {x : Float} {s : Sign} {m : Nat} {e : Int} {hPos : 0 < m}

theorem value_ratio (h : x.toModel.unpack = .finite s m e hPos) : (ratio x).value = m * 2 ^ e := by
  obtain ⟨hSignificand, hUnit⟩ := fields_of_unpack h
  rw [ratio, Ratio.value_scaleBinary, Ratio.value_ofNat, hSignificand, hUnit]

/-- With sixteen digits behind the first, half a step leads to no other number. -/
theorem near_of_step {step q : ℚ} (hWidth : m < 2 ^ 53) (hStep : step * 10 ^ 16 ≤ m * 2 ^ e)
    (hLow : m * 2 ^ e - step / 2 ≤ q) (hHigh : q ≤ m * 2 ^ e + step / 2) : Near m e q := by
  have hUnit := two_zpow_pos e
  have hMost : (m : ℚ) + 1 ≤ 2 ^ 53 := by exact_mod_cast hWidth
  have hShort : step < 2 ^ e := by nlinarith
  refine ⟨by linarith, ?_, by linarith⟩
  rintro rfl
  norm_num at hStep hLow ⊢
  linarith

theorem two_pow_le_ten_pow : 2 ^ 1074 ≤ 10 ^ 330 ∧ 2 ^ 1024 < 10 ^ 310 := by decide +kernel

/-- Numbers are neither so small nor so large that their decimals are not formed. -/
theorem log_range {q : ℚ} (hLow : 2 ^ (-1074 : Int) ≤ q) (hHigh : q < 2 ^ (1024 : Int)) :
    -330 ≤ Int.log 10 q ∧ Int.log 10 q < 310 := by
  have hValue : 0 < q := lt_of_lt_of_le (two_zpow_pos _) hLow
  constructor
  · rw [← Int.zpow_le_iff_le_log (by decide) hValue]
    have hBound : (2 : ℚ) ^ (1074 : Int) ≤ 10 ^ (330 : Int) := by exact_mod_cast two_pow_le_ten_pow.1
    calc ((10 : Nat) : ℚ) ^ (-330 : Int) ≤ 2 ^ (-1074 : Int) := by
          rw [zpow_neg, zpow_neg, Nat.cast_ofNat]
          exact inv_anti₀ (two_zpow_pos _) hBound
      _ ≤ q := hLow
  · rw [← Int.lt_zpow_iff_log_lt (by decide) hValue]
    calc q < 2 ^ (1024 : Int) := hHigh
      _ < ((10 : Nat) : ℚ) ^ (310 : Int) := by exact_mod_cast two_pow_le_ten_pow.2

theorem log_bounds (hCanonical : Canonical (.finite .positive m e hPos)) :
    -330 ≤ Int.log 10 ((m : ℚ) * 2 ^ e) ∧ Int.log 10 ((m : ℚ) * 2 ^ e) < 310 := by
  obtain ⟨hWidth, hLeast, hGreatest, -⟩ := hCanonical
  have hOne : (1 : ℚ) ≤ m := by exact_mod_cast hPos
  have hMost : (m : ℚ) < 2 ^ (53 : Int) := by exact_mod_cast hWidth
  have hUnit := two_zpow_pos e
  apply log_range
  · calc (2 : ℚ) ^ (-1074 : Int) ≤ 2 ^ e := zpow_le_zpow_right₀ one_le_two hLeast
      _ ≤ m * 2 ^ e := le_mul_of_one_le_left hUnit.le hOne
  · calc (m : ℚ) * 2 ^ e < 2 ^ (53 : Int) * 2 ^ e := mul_lt_mul_of_pos_right hMost hUnit
      _ ≤ 2 ^ (53 : Int) * 2 ^ (971 : Int) :=
          mul_le_mul_of_nonneg_left (zpow_le_zpow_right₀ one_le_two hGreatest) (two_zpow_pos _).le
      _ = 2 ^ (1024 : Int) := (zpow_add₀ two_ne_zero 53 971).symm

theorem toFloat_of_near (hCanonical : Canonical (.finite .positive m e hPos)) (hSome : 0 < d.coefficient)
    (hLow : -400 ≤ d.decade) (hHigh : d.decade ≤ 400) (hNear : Near m e d.value) :
    d.toFloat.toModel.unpack = .finite .positive m e hPos := by
  rw [toFloat, if_neg hSome.ne', if_neg (by omega), if_neg (by omega)]
  exact unpack_ofRatio_of_near hCanonical (by rwa [value_toRatio])

/-- Seventeen places reach from the first digit to the step. -/
theorem step_bounds {r : Ratio} (h : 0 < r.value) :
    (10 : ℚ) ^ (r.decade - 17) * 10 ^ 16 ≤ r.value ∧ r.value < 10 ^ (r.decade - 17) * 10 ^ 17 := by
  have hDecade := Ratio.decade_eq_log (Ratio.value_pos_iff.mp h)
  have hLow := Int.zpow_log_le_self (b := 10) (by decide) h
  have hHigh := Int.lt_zpow_succ_log_self (b := 10) (by decide) r.value
  rw [← zpow_natCast, ← zpow_natCast, ← zpow_add₀ (by norm_num), ← zpow_add₀ (by norm_num)]
  rw [show r.decade - 17 + (16 : Nat) = Int.log 10 r.value by omega,
    show r.decade - 17 + (17 : Nat) = Int.log 10 r.value + 1 by omega]
  exact ⟨by exact_mod_cast hLow, by exact_mod_cast hHigh⟩

/-- A multiple of the step that is at most half a step away has the digits of the number. -/
theorem reads_of_step (h : x.toModel.unpack = .finite s m e hPos) {j : Nat} {k : Int}
    (hExponent : (ratio x).decade - 17 = k) (hLow : m * 2 ^ e - (10 : ℚ) ^ k / 2 ≤ j * 10 ^ k)
    (hHigh : (j : ℚ) * 10 ^ k ≤ m * 2 ^ e + 10 ^ k / 2) : Decimal.readsAs ⟨j, k⟩ x = true := by
  have hCanonical := canonical_of_unpack h
  have hValue := value_ratio h
  have hPositive : 0 < (ratio x).value := by
    rw [hValue]
    exact mul_pos (by exact_mod_cast hPos) (two_zpow_pos e)
  have hDecade := Ratio.decade_eq_log (Ratio.value_pos_iff.mp hPositive)
  have hLeast := log_bounds hCanonical
  have hSteps := step_bounds hPositive
  have hStepPos := ten_zpow_pos k
  rw [hValue] at hDecade
  rw [hExponent, hValue] at hSteps
  have hSome : 0 < j := by
    rcases Nat.eq_zero_or_pos j with rfl | hSome
    · rw [Nat.cast_zero] at hLow
      linarith
    · exact hSome
  have hCount : Ratio.digitCount j ≤ 18 := by
    refine (Nat.length_toDigits_le_iff (by decide) (by decide)).mpr ?_
    have hFewer : (j : ℚ) * 10 ^ k < 10 ^ 18 * 10 ^ k := by linarith
    exact_mod_cast lt_of_mul_lt_mul_right hFewer hStepPos.le
  have hPlaces : (⟨j, k⟩ : Decimal).decade = Ratio.digitCount j + k := rfl
  have hNear : Near m e (⟨j, k⟩ : Decimal).value := near_of_step hCanonical.1 hSteps.1 hLow hHigh
  rw [readsAs_iff]
  apply eq_of_unpack_eq
  rw [unpack_abs_of_unpack h]
  exact toFloat_of_near hCanonical hSome (by omega) (by omega) hNear

theorem exists_of_reads {j : Nat} {k : Int}
    (hEither : j = ((ratio x).scaleDecimal (-k)).floor ∨ j = ((ratio x).scaleDecimal (-k)).floor + 1)
    (hReads : Decimal.readsAs ⟨j, k⟩ x = true) : ∃ d, nearestReading x k = some d := by
  rcases hEither with rfl | rfl
  · simp only [nearestReading, hReads]
    cases Decimal.readsAs ⟨((ratio x).scaleDecimal (-k)).floor + 1, k⟩ x <;> exact ⟨_, rfl⟩
  · simp only [nearestReading, hReads]
    cases Decimal.readsAs ⟨((ratio x).scaleDecimal (-k)).floor, k⟩ x <;> exact ⟨_, rfl⟩

/-- Seventeen digits read back. -/
theorem exists_nearestReading (h : x.toModel.unpack = .finite s m e hPos) :
    ∃ d, nearestReading x ((ratio x).decade - 17) = some d := by
  obtain ⟨k, hExponent⟩ : ∃ k, (ratio x).decade - 17 = k := ⟨_, rfl⟩
  have hFloor : ((ratio x).scaleDecimal (-k)).floor = ⌊(ratio x).value / 10 ^ k⌋₊ := by
    rw [Ratio.floor_eq, Ratio.value_scaleDecimal_neg]
  obtain ⟨j, hEither, hLow, hHigh⟩ := exists_near_step (ten_zpow_pos k) (ratio x).value_nonneg
  rw [value_ratio h] at hLow hHigh
  rw [hExponent]
  rw [← hFloor] at hEither
  exact exists_of_reads hEither (reads_of_step h hExponent hLow hHigh)

/-- The fewest digits that read back read back. -/
theorem toFloat_shortest (h : x.toModel.unpack = .finite s m e hPos) : (shortest x).toFloat = x.abs := by
  rw [shortest]
  cases hFound : (List.range 17).findSome? fun k => nearestReading x ((ratio x).decade - (k + 1 : Nat)) with
  | some d =>
    obtain ⟨k, -, hReads⟩ := List.exists_of_findSome?_eq_some hFound
    exact reads_of_nearestReading hReads
  | none =>
    obtain ⟨d, hSome⟩ := exists_nearestReading h
    have hNone : nearestReading x ((ratio x).decade - 17) = none :=
      List.findSome?_eq_none_iff.mp hFound 16 (by simp)
    rw [hSome] at hNone
    cases hNone

theorem coefficient_shortest_pos (h : Ordinary x) : 0 < (shortest x).coefficient := by
  obtain ⟨m, e, hPos, hUnpack⟩ := h
  by_contra hNone
  have hZero : (shortest x).toFloat = zero false := by
    rw [toFloat, if_pos (by omega)]
    rfl
  have hAbs := unpack_abs_of_unpack hUnpack
  rw [← toFloat_shortest hUnpack, hZero, unpack_zero] at hAbs
  cases hAbs

end Seventeen

end Reckon.Decimal
