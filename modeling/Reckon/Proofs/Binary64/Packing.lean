import Mathlib
import Reckon.Binary64

/-! # Bits and their numbers

A binary64 number is unpacked into a sign, a significand and an exponent, and packed again without
loss. The sign of an unpacked number is the leading bit.
-/
namespace Reckon.Binary64
set_option autoImplicit false
open Float.Model Float.Model.UnpackedFloat

/-! ## Signs -/

def signOf (minus : Bool) : Sign := if minus then .negative else .positive

/-- The sign of a number is its leading bit. -/
theorem sign_eq_signOf_negative (x : Float) :
    Sign.ofBitVec (@unpackSign .binary64 x.toBits.toBitVec) = signOf (negative x) := by
  have hLead : (@unpackSign .binary64 x.toBits.toBitVec).toNat = x.toBits.toNat / 2 ^ 63 := by
    have hBound := x.toBits.toNat_lt
    simp only [unpackSign, BitVec.toNat_cast, BitVec.extractLsb_toNat, UInt64.toNat_toBitVec,
      Nat.shiftRight_eq_div_pow]
    omega
  rw [Sign.ofBitVec, signOf, negative]
  by_cases hMinus : 0x8000000000000000 ≤ x.toBits.toNat
  · have hOne : @unpackSign .binary64 x.toBits.toBitVec ≠ 0#1 := by
      intro hZero
      rw [hZero] at hLead
      simp at hLead
      omega
    rw [if_neg hOne, if_pos (decide_eq_true hMinus)]
  · have hZero : @unpackSign .binary64 x.toBits.toBitVec = 0#1 := by
      apply BitVec.eq_of_toNat_eq
      rw [hLead]
      simp
      omega
    rw [if_pos hZero, if_neg (by simpa using hMinus)]

/-! ## Packing -/

theorem biased_exponent (e : Int) : e + (Format.binary64.exponentBias : Int) + (52 : Nat) = e + 1075 := by
  have hBias : (Format.binary64.exponentBias : Int) = 1023 := rfl
  omega

theorem pack_normal (s : Sign) {m : Nat} {e : Int} (hPos : 0 < m) (hLow : 2 ^ 52 ≤ m)
    (hHigh : m < 2 ^ 53) (hExponent : e ≤ 971) :
    UnpackedFloat.pack .binary64 (.finite s m e hPos) =
      packComponents .binary64 s (BitVec.ofNat 11 (e + 1075).toNat) (BitVec.ofNat 52 m) := by
  have hLog : m.log2 = 52 := (Nat.log2_eq_iff hPos.ne').mpr ⟨hLow, hHigh⟩
  simp only [UnpackedFloat.pack, hLog, biased_exponent]
  rw [if_neg (by omega), if_pos (show 52 + 1 = Format.binary64.mantissaBits from rfl)]

theorem pack_subnormal (s : Sign) {m : Nat} {e : Int} (hPos : 0 < m) (hHigh : m < 2 ^ 52)
    (hExponent : e ≤ 971) :
    UnpackedFloat.pack .binary64 (.finite s m e hPos) =
      packComponents .binary64 s 0#11 (BitVec.ofNat 52 m) := by
  have hLog : m.log2 + 1 ≠ Format.binary64.mantissaBits := by
    have hLt := (Nat.log2_lt (by omega)).mpr hHigh
    have hBits : Format.binary64.mantissaBits = 53 := rfl
    omega
  simp only [UnpackedFloat.pack, biased_exponent]
  rw [if_neg (by omega), if_neg hLog]

theorem toNat_one_append (m : BitVec 52) : (1#1 ++ m).toNat = 2 ^ 52 + m.toNat := by
  rw [BitVec.toNat_append, ← Nat.shiftLeft_add_eq_or_of_lt m.isLt]
  rfl

theorem pack_unpack (x : Float.Model) : Float.Model.pack x.unpack = x := by
  obtain ⟨bits, hValid⟩ := x
  have hBits := UnpackedFloat.pack_unpack_of_valid hValid
  simp only [Float.Model.pack, Float.Model.unpack, hBits]

/-! ## Unpacking -/

/-- A significand of 53 bits, or of fewer at the least exponent, and an exponent in the range. -/
def Canonical : UnpackedFloat → Prop
  | .finite _ m e _ => m < 2 ^ 53 ∧ -1074 ≤ e ∧ e ≤ 971 ∧ (2 ^ 52 ≤ m ∨ e = -1074)
  | _ => True

/-- Bits whose exponent is not all ones are those of a zero or of a number with a significand. -/
theorem unpack_of_exponent {b : BitVec Format.binary64.numBits} (h : unpackExponent b ≠ -1#11) :
    UnpackedFloat.unpack .binary64 b = .zero (Sign.ofBitVec (unpackSign b)) ∨
      ∃ m e hPos, UnpackedFloat.unpack .binary64 b = .finite (Sign.ofBitVec (unpackSign b)) m e hPos := by
  rw [UnpackedFloat.unpack, if_neg h]
  split
  · split
    · exact .inl rfl
    · rename_i hSome
      refine .inr ⟨_, _, ?_, rfl⟩
      exact Nat.pos_of_ne_zero fun hZero => hSome (BitVec.eq_of_toNat_eq hZero)
  · refine .inr ⟨_, _, ?_, rfl⟩
    rw [toNat_one_append]
    omega

theorem canonical_unpack (b : BitVec Format.binary64.numBits) : Canonical (UnpackedFloat.unpack .binary64 b) := by
  have hBias : (Format.binary64.exponentBias : Int) = 1023 := rfl
  have hWidth : (Format.binary64.mantissaBitsWithoutImplicit : Int) = 52 := rfl
  have hMantissa : (unpackMantissa b).toNat < 2 ^ 52 := BitVec.isLt _
  have hExponent : (unpackExponent b).toNat < 2 ^ 11 := BitVec.isLt _
  rw [UnpackedFloat.unpack]
  split
  · split <;> trivial
  · rename_i hOnes
    have hTop : (unpackExponent b).toNat ≠ 2047 := fun h => hOnes (BitVec.eq_of_toNat_eq h)
    split
    · rename_i hNone
      have hZero : (unpackExponent b).toNat = 0 := by rw [hNone]; rfl
      split
      · trivial
      · refine ⟨by omega, by omega, by omega, .inr (by omega)⟩
    · rename_i hSome
      have hBottom : (unpackExponent b).toNat ≠ 0 := fun h => hSome (BitVec.eq_of_toNat_eq h)
      have hWhole : (1#1 ++ unpackMantissa b).toNat = 2 ^ 52 + (unpackMantissa b).toNat :=
        toNat_one_append _
      refine ⟨by omega, by omega, by omega, .inl (by omega)⟩

theorem unpack_pack_normal (s : Sign) {m : Nat} {e : Int} (hPos : 0 < m) (hLow : 2 ^ 52 ≤ m)
    (hHigh : m < 2 ^ 53) (hLeast : -1074 ≤ e) (hTop : e ≤ 971) :
    UnpackedFloat.unpack .binary64 (UnpackedFloat.pack .binary64 (.finite s m e hPos)) =
      .finite s m e hPos := by
  have hBias : (Format.binary64.exponentBias : Int) = 1023 := rfl
  have hStored : (BitVec.ofNat 11 (e + 1075).toNat).toNat = (e + 1075).toNat := by
    rw [BitVec.toNat_ofNat]
    omega
  have hOnes : BitVec.ofNat 11 (e + 1075).toNat ≠ -1#11 := by
    intro hOnes
    rw [hOnes] at hStored
    change 2047 = _ at hStored
    omega
  have hNone : BitVec.ofNat 11 (e + 1075).toNat ≠ 0#11 := by
    intro hNone
    rw [hNone] at hStored
    change 0 = _ at hStored
    omega
  have hWhole : (1#1 ++ BitVec.ofNat 52 m).toNat = m := by
    rw [toNat_one_append, BitVec.toNat_ofNat]
    omega
  rw [pack_normal s hPos hLow hHigh hTop, UnpackedFloat.unpack]
  simp only [unpackMantissa_packComponents, unpackExponent_packComponents,
    unpackSign_packComponents, Sign.ofBitVec_toBitVec, hOnes, hNone, if_false, hStored, hWhole, hBias]
  congr 1
  omega

theorem unpack_pack_subnormal (s : Sign) {m : Nat} (hPos : 0 < m) (hHigh : m < 2 ^ 52) :
    UnpackedFloat.unpack .binary64 (UnpackedFloat.pack .binary64 (.finite s m (-1074) hPos)) =
      .finite s m (-1074) hPos := by
  have hBias : (Format.binary64.exponentBias : Int) = 1023 := rfl
  have hStored : (BitVec.ofNat 52 m).toNat = m := by
    rw [BitVec.toNat_ofNat]
    omega
  have hSome : BitVec.ofNat 52 m ≠ 0#52 := by
    intro hNone
    rw [hNone] at hStored
    change 0 = _ at hStored
    omega
  rw [pack_subnormal s hPos hHigh (by omega), UnpackedFloat.unpack]
  simp only [unpackMantissa_packComponents, unpackExponent_packComponents,
    unpackSign_packComponents, Sign.ofBitVec_toBitVec]
  rw [if_neg (by decide), if_pos trivial, dif_neg hSome]
  simp only [hStored, hBias]
  rfl

/-- What is canonical is unpacked from its bits. -/
theorem unpack_pack {u : UnpackedFloat} (h : Canonical u) :
    UnpackedFloat.unpack .binary64 (UnpackedFloat.pack .binary64 u) = u := by
  cases u with
  | notANumber => rfl
  | infinity s => cases s <;> rfl
  | zero s => cases s <;> rfl
  | finite s m e hPos =>
    obtain ⟨hHigh, hLeast, hTop, hFull⟩ := h
    by_cases hNormal : 2 ^ 52 ≤ m
    · exact unpack_pack_normal s hPos hNormal hHigh hLeast hTop
    · obtain rfl : e = -1074 := hFull.resolve_left hNormal
      exact unpack_pack_subnormal s hPos (Nat.lt_of_not_le hNormal)

end Reckon.Binary64
