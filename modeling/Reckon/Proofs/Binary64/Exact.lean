import Mathlib.Data.Nat.Sqrt
import Mathlib.Tactic.Ring
import Reckon.Proofs.Complex.BranchCut

/-! # Fractions that are numbers

A fraction that is a number is rounded to that number. So the distance of a point on an axis from zero is
its coordinate without the sign.
-/
namespace Reckon.Binary64
set_option autoImplicit false
open Float.Model Float.Model.UnpackedFloat

/-! ## The fields of a number -/

theorem toNat_unpackMantissa (b : BitVec Format.binary64.numBits) :
    (unpackMantissa b).toNat = b.toNat % 2 ^ 52 := by
  simp only [unpackMantissa, BitVec.toNat_cast, BitVec.extractLsb_toNat, Nat.shiftRight_zero]

theorem toNat_unpackExponent (b : BitVec Format.binary64.numBits) :
    (unpackExponent b).toNat = b.toNat / 2 ^ 52 % 0x800 := by
  simp only [unpackExponent, BitVec.toNat_cast, BitVec.extractLsb_toNat, Nat.shiftRight_eq_div_pow]

/-- The significand and the exponent of a finite number can be read off its fields. -/
theorem eq_of_unpack {b : BitVec Format.binary64.numBits} {s : Sign} {m : Nat} {e : Int} {hPos : 0 < m}
    (h : UnpackedFloat.unpack .binary64 b = .finite s m e hPos) :
    m = b.toNat % 2 ^ 52 + (if b.toNat / 2 ^ 52 % 0x800 = 0 then 0 else 2 ^ 52) ∧
      e = (max (b.toNat / 2 ^ 52 % 0x800) 1 : Nat) - 1075 := by
  have hBias : (Format.binary64.exponentBias : Int) = 1023 := rfl
  have hWidth : (Format.binary64.mantissaBitsWithoutImplicit : Int) = 52 := rfl
  rw [← toNat_unpackMantissa, ← toNat_unpackExponent]
  rw [UnpackedFloat.unpack] at h
  split at h
  · split at h <;> cases h
  · split at h
    · rename_i hNone
      have hZero : (unpackExponent b).toNat = 0 := by rw [hNone]; rfl
      split at h
      · cases h
      · cases h
        rw [hZero, if_pos rfl]
        exact ⟨rfl, rfl⟩
    · rename_i hSome
      have hBottom : (unpackExponent b).toNat ≠ 0 := fun h => hSome (BitVec.eq_of_toNat_eq h)
      cases h
      rw [if_neg hBottom, toNat_one_append, hBias, hWidth]
      refine ⟨Nat.add_comm _ _, ?_⟩
      omega

theorem fields_of_unpack {x : Float} {s : Sign} {m : Nat} {e : Int} {hPos : 0 < m}
    (h : x.toModel.unpack = .finite s m e hPos) : significand x = m ∧ unit x = e := by
  obtain ⟨rfl, rfl⟩ := eq_of_unpack h
  exact ⟨rfl, rfl⟩

theorem eq_of_unpack_eq {x y : Float} (h : x.toModel.unpack = y.toModel.unpack) : x = y := by
  rw [← ofModel_pack_unpack x, h, ofModel_pack_unpack]

/-- The bits of a positive number are its significand and, above it, how far its exponent is from the
    least one. -/
theorem unpack_ofBits {m : Nat} {e : Int} {hPos : 0 < m} (h : Canonical (.finite .positive m e hPos)) :
    (Float.ofBits (UInt64.ofNat ((e + 1074).toNat * 2 ^ 52 + m))).toModel.unpack =
      .finite .positive m e hPos := by
  obtain ⟨hHigh, hLeast, hTop, hFull⟩ := h
  obtain ⟨b, hBits⟩ : ∃ b : BitVec Format.binary64.numBits,
      b = (UInt64.ofNat ((e + 1074).toNat * 2 ^ 52 + m)).toBitVec := ⟨_, rfl⟩
  have hNat : b.toNat = (e + 1074).toNat * 2 ^ 52 + m := by
    rw [hBits, UInt64.toNat_toBitVec, UInt64.toNat_ofNat']
    omega
  have hLead : (unpackSign b).toNat = 0 := by
    simp only [unpackSign, BitVec.toNat_cast, BitVec.extractLsb_toNat, Nat.shiftRight_eq_div_pow]
    omega
  have hSign : Sign.ofBitVec (unpackSign b) = .positive := by
    rw [Sign.ofBitVec, if_pos (BitVec.eq_of_toNat_eq hLead)]
  have hOnes : unpackExponent b ≠ -1#11 := by
    intro hOnes
    have hField := toNat_unpackExponent b
    rw [hOnes] at hField
    change 2047 = _ at hField
    omega
  change UnpackedFloat.unpack .binary64 (UnpackedFloat.pack .binary64
    (UnpackedFloat.unpack .binary64 (UInt64.ofNat _).toBitVec)) = _
  rw [← hBits, unpack_pack (canonical_unpack b)]
  rcases unpack_of_exponent hOnes with hZero | ⟨m', e', hPos', hFinite⟩
  · -- A zero has neither a significand nor an exponent.
    have hFields : b.toNat % 2 ^ 52 = 0 ∧ b.toNat / 2 ^ 52 % 0x800 = 0 := by
      rw [← toNat_unpackMantissa, ← toNat_unpackExponent]
      rw [UnpackedFloat.unpack, if_neg hOnes] at hZero
      split at hZero
      · rename_i hNone
        split at hZero
        · rename_i hNothing
          rw [hNone, hNothing]
          exact ⟨rfl, rfl⟩
        · cases hZero
      · cases hZero
    omega
  · obtain ⟨hSignificand, hUnit⟩ := eq_of_unpack hFinite
    have hSame : m' = m ∧ e' = e := by
      split at hSignificand <;> omega
    obtain ⟨rfl, rfl⟩ := hSame
    rw [hFinite, hSign]

/-! ## Rounding what is exact -/

theorem roundEven_of_eq {r : Ratio} {m : Nat} (h : r.num = m * r.den) : r.roundEven = m := by
  have hRest : r.num % r.den = 0 := by rw [h, Nat.mul_mod_left]
  have hBelow : r.num / r.den = m := by rw [h, Nat.mul_div_cancel _ r.den_pos]
  rw [Ratio.roundEven, hRest, hBelow]
  exact if_pos r.den_pos

section Rounding

variable {r : Ratio} {m a b : Nat} {e : Int}

theorem log2_mul_two_pow (hPos : 0 < m) (a : Nat) : (m * 2 ^ a).log2 = m.log2 + a := by
  have hSelf := Nat.log2_self_le hPos.ne'
  have hNext := Nat.lt_log2_self (n := m)
  refine (Nat.log2_eq_iff (Nat.mul_pos hPos (Nat.two_pow_pos a)).ne').mpr ⟨?_, ?_⟩
  · rw [Nat.pow_add]
    exact Nat.mul_le_mul_right _ hSelf
  · rw [Nat.add_right_comm, Nat.pow_add]
    exact Nat.mul_lt_mul_of_pos_right hNext (Nat.two_pow_pos a)

theorem binade_eq (hPos : 0 < m) (hNum : r.num = m * 2 ^ a) (hDen : r.den = 2 ^ b)
    (hExponent : e = (a : Int) - b) : r.binade = m.log2 + e := by
  have hLow : ((Ratio.ofNat 1).scaleBinary (m.log2 + e)).le r = true := by
    have hSelf := Nat.log2_self_le hPos.ne'
    rw [Ratio.le, decide_eq_true_eq, hNum, hDen]
    cases hPower : (m.log2 + e : Int) with
    | ofNat n =>
      change 1 * 2 ^ n * 2 ^ b ≤ m * 2 ^ a * 1
      have hSum : n + b = m.log2 + a := by
        rw [Int.ofNat_eq_natCast] at hPower
        omega
      rw [Nat.one_mul, Nat.mul_one, ← Nat.pow_add, hSum, Nat.pow_add]
      exact Nat.mul_le_mul_right _ hSelf
    | negSucc n =>
      change 1 * 2 ^ b ≤ m * 2 ^ a * (1 * 2 ^ (n + 1))
      have hSum : b = m.log2 + (a + (n + 1)) := by
        rw [Int.negSucc_eq] at hPower
        omega
      rw [Nat.one_mul, Nat.one_mul, Nat.mul_assoc, ← Nat.pow_add, hSum, Nat.pow_add]
      exact Nat.mul_le_mul_right _ hSelf
  have hFirst : (r.num.log2 : Int) - r.den.log2 = m.log2 + e := by
    rw [hNum, hDen, log2_mul_two_pow hPos, Nat.log2_two_pow]
    omega
  rw [Ratio.binade, hFirst]
  exact if_pos hLow

theorem roundEven_scaleBinary (hNum : r.num = m * 2 ^ a) (hDen : r.den = 2 ^ b)
    (hExponent : e = (a : Int) - b) : (r.scaleBinary (-e)).roundEven = m := by
  refine roundEven_of_eq ?_
  cases hPower : -e with
  | ofNat n =>
    change r.num * 2 ^ n = m * r.den
    have hSum : a + n = b := by
      rw [Int.ofNat_eq_natCast] at hPower
      omega
    rw [hNum, hDen, Nat.mul_assoc, ← Nat.pow_add, hSum]
  | negSucc n =>
    change r.num = m * (r.den * 2 ^ (n + 1))
    have hSum : a = b + (n + 1) := by
      rw [Int.negSucc_eq] at hPower
      omega
    rw [hNum, hDen, ← Nat.pow_add, hSum]

/-- A fraction that is a number gives that number. -/
theorem unpack_ofRatio {hPos : 0 < m} (h : Canonical (.finite .positive m e hPos)) (hNum : r.num = m * 2 ^ a)
    (hDen : r.den = 2 ^ b) (hExponent : e = (a : Int) - b) :
    (ofRatio r).toModel.unpack = .finite .positive m e hPos := by
  obtain ⟨hHigh, hLeast, hTop, hFull⟩ := h
  have hSome : r.num ≠ 0 := by
    rw [hNum]
    exact (Nat.mul_pos hPos (Nat.two_pow_pos a)).ne'
  have hUnit : max (r.binade - 52) (-1074) = e := by
    rw [binade_eq hPos hNum hDen hExponent]
    rcases hFull with hNormal | rfl
    · have hLog : m.log2 = 52 := (Nat.log2_eq_iff hPos.ne').mpr ⟨hNormal, hHigh⟩
      omega
    · have hLog := (Nat.log2_lt hPos.ne').mpr hHigh
      omega
  have hRange : (e + 1074).toNat * hiddenBit + m < 0x7FF0000000000000 := by
    rw [show hiddenBit = 2 ^ 52 from rfl]
    omega
  have hBits : ofRatio r = Float.ofBits (UInt64.ofNat ((e + 1074).toNat * hiddenBit + m)) := by
    simp only [ofRatio, if_neg hSome, hUnit, roundEven_scaleBinary hNum hDen hExponent, if_pos hRange]
  rw [hBits]
  exact unpack_ofBits ⟨hHigh, hLeast, hTop, hFull⟩

end Rounding

/-! ## The distance of a point on an axis -/

theorem scaleBinary_neg (n : Nat) (power : Nat) :
    ((Ratio.ofNat n).scaleBinary (-(power + 1 : Nat))).num = n ∧
      ((Ratio.ofNat n).scaleBinary (-(power + 1 : Nat))).den = 2 ^ (power + 1) :=
  ⟨rfl, Nat.one_mul _⟩

theorem shiftLeft_mul_self (n : Nat) : (n * n) <<< 128 = n * 2 ^ 64 * (n * 2 ^ 64) := by
  rw [Nat.shiftLeft_eq, show (2 : Nat) ^ 128 = 2 ^ 64 * 2 ^ 64 from rfl]
  exact Nat.mul_mul_mul_comm n n _ _

/-- On the axis the root is taken of a square, and nothing is rounded. -/
theorem hypot_zero {x : Float} (h : Ordinary x) (s : Bool) : hypot x (zero s) = x.abs := by
  obtain ⟨m, e, hPos, hUnpack⟩ := h
  have hCanonical := canonical_of_unpack hUnpack
  have hLeast : -1074 ≤ e := hCanonical.2.1
  have hOrdinary : Ordinary x := ⟨m, e, hPos, hUnpack⟩
  have hInfinite : (infinite x || infinite (zero s)) = false := by
    rw [hOrdinary.infinite_eq_false, infinite_zero, Bool.false_or]
  have hNaN : (x.isNaN || (zero s).isNaN) = false := by
    rw [hOrdinary.isNaN_eq_false, isNaN_zero, Bool.false_or]
  have hZero : significand (zero s) = 0 ∧ unit (zero s) = -1074 := by cases s <;> exact ⟨rfl, rfl⟩
  obtain ⟨hSignificand, hUnit⟩ := fields_of_unpack hUnpack
  obtain ⟨n, hSide⟩ : ∃ n, n = m <<< (e - -1074).toNat := ⟨_, rfl⟩
  have hSquare : (n * n + 0 <<< (-1074 - -1074 : Int).toNat * 0 <<< (-1074 - -1074 : Int).toNat) <<< 128 =
      n * 2 ^ 64 * (n * 2 ^ 64) := by
    rw [Nat.zero_shiftLeft, Nat.mul_zero, Nat.add_zero, shiftLeft_mul_self]
  have hPower : (-1074 - 65 : Int) = -(1138 + 1 : Nat) := rfl
  obtain ⟨hNum, hDen⟩ := scaleBinary_neg (2 * (n * 2 ^ 64) + 0) 1138
  refine eq_of_unpack_eq ?_
  rw [unpack_abs_of_unpack hUnpack, hypot, hInfinite, hNaN, if_neg Bool.false_ne_true,
    if_neg Bool.false_ne_true]
  simp only [hSignificand, hUnit, hZero.1, hZero.2, min_eq_right hLeast, ← hSide, hSquare, Nat.sqrt_eq,
    if_true, hPower]
  refine unpack_ofRatio hCanonical (hNum.trans ?_) hDen
    (?_ : e = ((e + 1074).toNat + 65 : Nat) - (1138 + 1 : Nat))
  · rw [hSide, Nat.shiftLeft_eq, Nat.pow_add, Int.sub_neg]
    ring
  · omega

theorem Ordinary.infinite_abs {x : Float} (h : Ordinary x) : infinite x.abs = false := by
  obtain ⟨m, e, hPos, hUnpack⟩ := h
  change UnpackedFloat.beq x.abs.abs.toModel.unpack infinity.toModel.unpack = false
  rw [unpack_abs_of_unpack (unpack_abs_of_unpack hUnpack)]
  rfl

end Reckon.Binary64
