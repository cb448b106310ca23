import Mathlib.Data.Nat.Sqrt
import Reckon.Proofs.Binary64.Packing

/-! # Results that do not vanish

A positive number is at least a power of two. Products, quotients, sums and roots of such numbers are
at least the power that their operands promise, and rounding takes nothing of it away unless the power
lies below the least number.
-/
namespace Reckon.Binary64
set_option autoImplicit false
open Float.Model Float.Model.UnpackedFloat

/-- The significand and exponent of a number that is not too small and perhaps too large. -/
structure Rounded (m : Nat) (e : Int) : Prop where
  high : m < 2 ^ 53
  least : -1074 ≤ e
  full : 2 ^ 52 ≤ m ∨ e = -1074

/-- The number is positive, and at least `2 ^ k`. -/
inductive AtLeast (k : Int) : UnpackedFloat → Prop
  | infinity : AtLeast k (.infinity .positive)
  | finite {m : Nat} {e : Int} (hPos : 0 < m) (hRounded : Rounded m e) (hBound : k ≤ m.log2 + e) :
      AtLeast k (.finite .positive m e hPos)

theorem AtLeast.unpack_pack {k : Int} {u : UnpackedFloat} (h : AtLeast k u) :
    AtLeast k (UnpackedFloat.unpack .binary64 (UnpackedFloat.pack .binary64 u)) := by
  cases h with
  | infinity => exact .infinity
  | @finite m e hPos hRounded hBound =>
    have hBias : (Format.binary64.exponentBias : Int) = 1023 := rfl
    have hWidth : (Format.binary64.mantissaBitsWithoutImplicit : Int) = 52 := rfl
    by_cases hTop : e ≤ 971
    · have hCanonical : Canonical (.finite .positive m e hPos) :=
        ⟨hRounded.high, hRounded.least, hTop, hRounded.full⟩
      rw [Binary64.unpack_pack hCanonical]
      exact .finite hPos hRounded hBound
    · have hOverflow : 2 ^ Format.binary64.exponentBits ≤ (e + Format.binary64.exponentBias +
          Format.binary64.mantissaBitsWithoutImplicit).toNat + 1 := by
        rw [show 2 ^ Format.binary64.exponentBits = 2048 from rfl]
        omega
      simp only [UnpackedFloat.pack, if_pos hOverflow]
      exact .infinity

/-! ## Rounding -/

theorem targetExponent_eq (total : Int) :
    Format.binary64.targetExponent total = max (total - 53) (-1074) := rfl

theorem mantissa_shiftRight (em : ExtendedMantissa) (n : Nat) : (em >>> n).mantissa = em.mantissa / 2 ^ n := by
  induction n with
  | zero => exact (Nat.div_one _).symm
  | succ n ih =>
    rw [Nat.pow_succ, ← Nat.div_div_eq_div_mul, ← ih]
    rfl

theorem mantissa_ofMantissaAndAccuracy (m : Nat) (accuracy : Accuracy) :
    (ExtendedMantissa.ofMantissaAndAccuracy m accuracy).mantissa = m := by
  cases accuracy with
  | exact => rfl
  | inexact half => cases half <;> rfl

theorem roundToNearestEven_bounds (m : Nat) (accuracy : Accuracy) :
    m ≤ accuracy.roundToNearestEven m ∧ accuracy.roundToNearestEven m ≤ m + 1 := by
  cases accuracy with
  | exact => exact ⟨Nat.le_refl m, Nat.le_succ m⟩
  | inexact half =>
    cases half with
    | lt => exact ⟨Nat.le_refl m, Nat.le_succ m⟩
    | eq =>
      rw [Accuracy.roundToNearestEven]
      omega
    | gt => exact ⟨Nat.le_succ m, Nat.le_refl _⟩

/-! ## Leading digits -/

theorem le_log2_mul {a b m n : Nat} (hm : 2 ^ a ≤ m) (hn : 2 ^ b ≤ n) : a + b ≤ (m * n).log2 := by
  have hProduct := Nat.mul_le_mul hm hn
  rw [← Nat.pow_add] at hProduct
  have hPos : 0 < 2 ^ (a + b) := Nat.two_pow_pos _
  exact (Nat.le_log2 (by omega)).mpr hProduct

theorem le_log2_shiftLeft {m : Nat} (h : 0 < m) (n : Nat) : m.log2 + n ≤ (m <<< n).log2 := by
  rw [Nat.shiftLeft_eq]
  exact le_log2_mul (Nat.log2_self_le h.ne') (Nat.le_refl _)

theorem two_pow_le_div {a n m : Nat} (hPos : 0 < m) (h : a + n ≤ m.log2) : 2 ^ a ≤ m / 2 ^ n := by
  have hPower := (Nat.le_log2 (by omega)).mp h
  rw [Nat.pow_add] at hPower
  exact (Nat.le_div_iff_mul_le (Nat.two_pow_pos n)).mpr hPower

theorem two_pow_le_sqrt {a m : Nat} (hPos : 0 < m) (h : 2 * a ≤ m.log2) : 2 ^ a ≤ Nat.sqrt m := by
  have hPower := (Nat.le_log2 (by omega)).mp h
  rw [Nat.two_mul, Nat.pow_add] at hPower
  exact Nat.le_sqrt.mpr hPower

theorem div_two_pow_lt {a n m : Nat} (h : m.log2 < a + n) : m / 2 ^ n < 2 ^ a := by
  rw [Nat.div_lt_iff_lt_mul (Nat.two_pow_pos n), ← Nat.pow_add]
  rcases Nat.eq_zero_or_pos m with rfl | hPos
  · exact Nat.two_pow_pos _
  · exact (Nat.log2_lt (by omega)).mp h

/-- The second half of rounding: a significand that grew by a digit is shifted once more. -/
def settle (s : Sign) (m : Nat) (e : Int) : UnpackedFloat :=
  let shifted := shiftToTargetExponent .binary64 m e .exact
  if h : shifted.1.mantissa = 0 then .zero s
  else .finite s shifted.1.mantissa shifted.2 (Nat.pos_of_ne_zero h)

theorem roundWithAccuracy_eq_settle (s : Sign) (m : Nat) (e : Int) (accuracy : Accuracy) :
    roundWithAccuracy .binary64 s m e accuracy =
      settle s (shiftToTargetExponent .binary64 m e accuracy).1.roundedMantissa
        (shiftToTargetExponent .binary64 m e accuracy).2 := rfl

theorem settle_bounds (s : Sign) {m : Nat} {e : Int} (hPos : 0 < m) (hHigh : m ≤ 2 ^ 53)
    (hLeast : -1074 ≤ e) (hFull : 2 ^ 52 ≤ m ∨ e = -1074) :
    ∃ m' e' hPos', settle s m e = .finite s m' e' hPos' ∧ Rounded m' e' ∧ m.log2 + e ≤ m'.log2 + e' := by
  obtain ⟨n, hShift⟩ : ∃ n, n = (Format.binary64.targetExponent (totalExponent m e) - e).toNat := ⟨_, rfl⟩
  have hMantissa : (shiftToTargetExponent .binary64 m e .exact).1.mantissa = m / 2 ^ n := by
    rw [hShift]
    exact (mantissa_shiftRight _ _).trans (congrArg (· / _) (mantissa_ofMantissaAndAccuracy m .exact))
  have hExponent : (shiftToTargetExponent .binary64 m e .exact).2 = e + n := by rw [hShift]; rfl
  rw [targetExponent_eq, totalExponent] at hShift
  have hBounds : 0 < m / 2 ^ n ∧ Rounded (m / 2 ^ n) (e + n) ∧ m.log2 + e ≤ (m / 2 ^ n).log2 + (e + n) := by
    rcases Nat.lt_or_eq_of_le hHigh with hLow | rfl
    · have hLog := (Nat.log2_lt (by omega)).mpr hLow
      obtain rfl : n = 0 := by omega
      rw [Nat.pow_zero, Nat.div_one]
      exact ⟨hPos, ⟨hLow, by omega, by omega⟩, by omega⟩
    · rw [Nat.log2_two_pow] at hShift
      obtain rfl : n = 1 := by omega
      rw [show 2 ^ 53 / 2 ^ 1 = 2 ^ 52 from rfl, Nat.log2_two_pow, Nat.log2_two_pow]
      exact ⟨Nat.two_pow_pos 52, ⟨by omega, by omega, by omega⟩, by omega⟩
  have hNonzero : (shiftToTargetExponent .binary64 m e .exact).1.mantissa ≠ 0 := by
    rw [hMantissa]
    exact Nat.ne_of_gt hBounds.1
  refine ⟨_, _, Nat.pos_of_ne_zero hNonzero, dif_neg hNonzero, ?_⟩
  rw [hMantissa, hExponent]
  exact hBounds.2

/-- A positive significand whose exponent is not above the one it is rounded to stays at least as large
    as a power of two that it exceeds and that is not below the least number. -/
theorem round_bounds {m : Nat} {e k : Int} (accuracy : Accuracy) (hPos : 0 < m)
    (hExponent : e ≤ Format.binary64.targetExponent (totalExponent m e)) (hLeast : -1074 ≤ k)
    (hBound : k ≤ m.log2 + e) :
    AtLeast k (UnpackedFloat.unpack .binary64
      (UnpackedFloat.pack .binary64 (roundWithAccuracy .binary64 .positive m e accuracy))) := by
  obtain ⟨n, hShift⟩ : ∃ n, n = (Format.binary64.targetExponent (totalExponent m e) - e).toNat := ⟨_, rfl⟩
  obtain ⟨r, hRound⟩ : ∃ r, r = (shiftToTargetExponent .binary64 m e accuracy).1.roundedMantissa := ⟨_, rfl⟩
  have hMantissa : (shiftToTargetExponent .binary64 m e accuracy).1.mantissa = m / 2 ^ n := by
    rw [hShift]
    exact (mantissa_shiftRight _ _).trans
      (congrArg (· / _) (mantissa_ofMantissaAndAccuracy m accuracy))
  have hExponent' : (shiftToTargetExponent .binary64 m e accuracy).2 = e + n := by rw [hShift]; rfl
  have hQuotient : m / 2 ^ n ≤ r ∧ r ≤ m / 2 ^ n + 1 := by
    rw [hRound, ← hMantissa]
    exact roundToNearestEven_bounds _ _
  rw [targetExponent_eq, totalExponent] at hExponent hShift
  obtain ⟨a, hDigits⟩ : ∃ a, m.log2 = a + n := ⟨m.log2 - n, by omega⟩
  have hLow := two_pow_le_div hPos hDigits.ge
  have hHigh : m / 2 ^ n < 2 ^ 53 := div_two_pow_lt (by omega)
  have hFull : 2 ^ 52 ≤ r ∨ e + n = -1074 := by
    by_cases hNormal : 52 ≤ a
    · have hPower : 2 ^ 52 ≤ 2 ^ a := Nat.pow_le_pow_right (Nat.succ_pos 1) hNormal
      exact .inl (by omega)
    · exact .inr (by omega)
  have hPos' : 0 < r := by
    have hPower := Nat.two_pow_pos a
    omega
  obtain ⟨m', e', hPos'', hSettle, hRounded, hLog⟩ :=
    settle_bounds .positive hPos' (by omega) (by omega) hFull
  rw [roundWithAccuracy_eq_settle, hExponent', ← hRound, hSettle]
  apply AtLeast.unpack_pack
  refine .finite hPos'' hRounded ?_
  have hLog' : a ≤ r.log2 := (Nat.le_log2 (by omega)).mpr (by omega)
  omega

/-! ## Operations -/

theorem AtLeast.mono {k l : Int} {u : UnpackedFloat} (h : AtLeast k u) (hLe : l ≤ k) : AtLeast l u := by
  cases h with
  | infinity => exact .infinity
  | finite hPos hRounded hBound => exact .finite hPos hRounded (by omega)

theorem atLeast_mul {x y : Float} {k l : Int} (hx : AtLeast k x.toModel.unpack)
    (hy : AtLeast l y.toModel.unpack) (hLeast : -1074 ≤ k + l) :
    AtLeast (k + l) (x * y).toModel.unpack := by
  change AtLeast (k + l) (UnpackedFloat.unpack .binary64 (UnpackedFloat.pack .binary64
    (UnpackedFloat.mul .binary64 x.toModel.unpack y.toModel.unpack)))
  generalize x.toModel.unpack = u at hx
  generalize y.toModel.unpack = v at hy
  cases hx with
  | infinity => cases hy <;> exact AtLeast.unpack_pack .infinity
  | @finite m e hPos hRounded hBound =>
    cases hy with
    | infinity => exact AtLeast.unpack_pack .infinity
    | @finite m' e' hPos' hRounded' hBound' =>
      have hLog := le_log2_mul (Nat.log2_self_le hPos.ne') (Nat.log2_self_le hPos'.ne')
      refine round_bounds .exact (Nat.mul_pos hPos hPos') ?_ hLeast (by omega)
      rw [targetExponent_eq, totalExponent]
      have hFull : 52 ≤ m.log2 ∨ e = -1074 := hRounded.full.imp_left (Nat.le_log2 (by omega)).mpr
      have hFull' : 52 ≤ m'.log2 ∨ e' = -1074 := hRounded'.full.imp_left (Nat.le_log2 (by omega)).mpr
      omega

/-- The divisor is a power of two. -/
theorem atLeast_div {x y : Float} {k l : Int} (hx : AtLeast k x.toModel.unpack) {hPos : 0 < 2 ^ 52}
    (hy : y.toModel.unpack = .finite .positive (2 ^ 52) (l - 52) hPos) (hLeast : -1074 ≤ k - l) :
    AtLeast (k - l) (x / y).toModel.unpack := by
  change AtLeast (k - l) (UnpackedFloat.unpack .binary64 (UnpackedFloat.pack .binary64
    (UnpackedFloat.div .binary64 x.toModel.unpack y.toModel.unpack)))
  rw [hy]
  generalize x.toModel.unpack = u at hx
  cases hx with
  | infinity => exact AtLeast.unpack_pack .infinity
  | @finite m e hPos' hRounded hBound =>
    obtain ⟨t, hTarget⟩ : ∃ t, t = min (e - (l - 52)) (Format.binary64.targetExponent
      (totalExponent m e - totalExponent (2 ^ 52) (l - 52))) := ⟨_, rfl⟩
    obtain ⟨n, hShift⟩ : ∃ n, n = (e - (l - 52) - t).toNat := ⟨_, rfl⟩
    have hCore : divCore .binary64 m e (2 ^ 52) (l - 52) =
        ((m <<< n) / 2 ^ 52, t, accuracyOfFraction ((m <<< n) % 2 ^ 52) (2 ^ 52)) := by
      rw [hShift, hTarget]
      rfl
    rw [targetExponent_eq, totalExponent, totalExponent, Nat.log2_two_pow] at hTarget
    have hLog := le_log2_shiftLeft hPos' n
    obtain ⟨a, hDigits⟩ : ∃ a, (m <<< n).log2 = a + 52 := ⟨(m <<< n).log2 - 52, by omega⟩
    have hQuotient := two_pow_le_div (Nat.shiftLeft_pos_iff.mpr hPos') hDigits.ge
    have hPower := Nat.two_pow_pos a
    have hLog' : a ≤ ((m <<< n) / 2 ^ 52).log2 := (Nat.le_log2 (by omega)).mpr hQuotient
    have hRound := round_bounds (accuracyOfFraction ((m <<< n) % 2 ^ 52) (2 ^ 52))
      (Nat.lt_of_lt_of_le hPower hQuotient)
      (show t ≤ Format.binary64.targetExponent (totalExponent ((m <<< n) / 2 ^ 52) t) by
        rw [targetExponent_eq, totalExponent]
        omega)
      hLeast (by omega)
    rw [UnpackedFloat.div, hCore]
    exact hRound

theorem atLeast_sqrt {x : Float} {k l : Int} (hx : AtLeast k x.toModel.unpack) (hHalf : 2 * l ≤ k)
    (hLeast : -1074 ≤ l) : AtLeast l x.sqrt.toModel.unpack := by
  change AtLeast l (UnpackedFloat.unpack .binary64 (UnpackedFloat.pack .binary64
    (UnpackedFloat.sqrt .binary64 x.toModel.unpack)))
  generalize x.toModel.unpack = u at hx
  cases hx with
  | infinity => exact AtLeast.unpack_pack .infinity
  | @finite m e hPos hRounded hBound =>
    obtain ⟨t, hTarget⟩ : ∃ t, t = min (e.ediv 2)
      (Format.binary64.targetExponent ((totalExponent m e + 1).ediv 2)) := ⟨_, rfl⟩
    obtain ⟨n, hShift⟩ : ∃ n, n = (e - 2 * t).toNat := ⟨_, rfl⟩
    obtain ⟨accuracy, hCore⟩ : ∃ accuracy, sqrtCore .binary64 m e = ((m <<< n).sqrt, t, accuracy) := by
      rw [hShift, hTarget]
      exact ⟨_, rfl⟩
    rw [targetExponent_eq, totalExponent] at hTarget
    have hLog := le_log2_shiftLeft hPos n
    obtain ⟨a, hDigits⟩ : ∃ a, (m <<< n).log2 / 2 = a := ⟨_, rfl⟩
    have hShifted : 0 < m <<< n := Nat.shiftLeft_pos_iff.mpr hPos
    have hRoot : 2 ^ a ≤ (m <<< n).sqrt := two_pow_le_sqrt hShifted (by omega)
    have hPower := Nat.two_pow_pos a
    have hLog' : a ≤ (m <<< n).sqrt.log2 := (Nat.le_log2 (by omega)).mpr hRoot
    have hHalfExponent : e.ediv 2 = e / 2 := rfl
    have hHalfTotal : (m.log2 + 1 + e + 1).ediv 2 = (m.log2 + 1 + e + 1) / 2 := rfl
    have hRound := round_bounds accuracy (Nat.lt_of_lt_of_le hPower hRoot)
      (show t ≤ Format.binary64.targetExponent (totalExponent (m <<< n).sqrt t) by
        rw [targetExponent_eq, totalExponent]
        omega)
      hLeast (by omega)
    rw [UnpackedFloat.sqrt, hCore]
    exact hRound

/-- A zero, or a number above it. -/
def NonNegative (u : UnpackedFloat) : Prop := u = .zero .positive ∨ ∃ k, AtLeast k u

theorem normalize_of_pos {m : Nat} (h : 0 < m) (e : Int) :
    UnpackedFloat.normalize .binary64 m e .positive = round .binary64 .positive m e := by
  rw [UnpackedFloat.normalize, Int.compare_eq_gt.mpr (by omega), Int.toNat_natCast]

theorem atLeast_round {m : Nat} {e k : Int} (hPos : 0 < m) (hLeast : -1074 ≤ k)
    (hBound : k ≤ m.log2 + e) :
    AtLeast k (UnpackedFloat.unpack .binary64
      (UnpackedFloat.pack .binary64 (round .binary64 .positive m e))) := by
  obtain ⟨n, hShift⟩ : ∃ n, n = (e - Format.binary64.targetExponent (totalExponent m e)).toNat :=
    ⟨_, rfl⟩
  have hRound : round .binary64 .positive m e =
      roundWithAccuracy .binary64 .positive (m <<< n) (e - n) .exact := by
    rw [hShift]
    rfl
  have hLog := le_log2_shiftLeft hPos n
  rw [targetExponent_eq, totalExponent] at hShift
  rw [hRound]
  refine round_bounds .exact (Nat.shiftLeft_pos_iff.mpr hPos) ?_ hLeast (by omega)
  rw [targetExponent_eq, totalExponent]
  omega

theorem atLeast_add {x y : Float} {k : Int} (hx : AtLeast k x.toModel.unpack)
    (hy : NonNegative y.toModel.unpack) (hLeast : -1074 ≤ k) : AtLeast k (x + y).toModel.unpack := by
  change AtLeast k (UnpackedFloat.unpack .binary64 (UnpackedFloat.pack .binary64
    (UnpackedFloat.add .binary64 x.toModel.unpack y.toModel.unpack)))
  generalize x.toModel.unpack = u at hx
  generalize y.toModel.unpack = v at hy
  rcases hy with rfl | ⟨l, hy⟩
  · cases hx with
    | infinity => exact AtLeast.unpack_pack .infinity
    | finite hPos hRounded hBound => exact AtLeast.unpack_pack (.finite hPos hRounded hBound)
  · cases hx with
    | infinity => cases hy <;> exact AtLeast.unpack_pack .infinity
    | @finite m e hPos hRounded hBound =>
      cases hy with
      | infinity => exact AtLeast.unpack_pack .infinity
      | @finite m' e' hPos' hRounded' hBound' =>
        obtain ⟨n, hShift⟩ : ∃ n, n = (e - min e e').toNat := ⟨_, rfl⟩
        obtain ⟨n', hShift'⟩ : ∃ n', n' = (e' - min e e').toNat := ⟨_, rfl⟩
        have hSum : UnpackedFloat.add .binary64 (.finite .positive m e hPos)
            (.finite .positive m' e' hPos') =
              UnpackedFloat.normalize .binary64 ((m <<< n + m' <<< n' : Nat) : Int) (min e e') .positive := by
          rw [hShift, hShift']
          rfl
        have hShifted : 0 < m <<< n := Nat.shiftLeft_pos_iff.mpr hPos
        have hTotal : 0 < m <<< n + m' <<< n' := Nat.add_pos_left hShifted _
        have hLog := le_log2_shiftLeft hPos n
        have hLog' : (m <<< n).log2 ≤ (m <<< n + m' <<< n').log2 := by
          rw [Nat.le_log2 (Nat.ne_of_gt hTotal)]
          exact (Nat.log2_self_le hShifted.ne').trans (Nat.le_add_right _ _)
        rw [hSum, normalize_of_pos hTotal]
        exact atLeast_round hTotal hLeast (by omega)

end Reckon.Binary64
