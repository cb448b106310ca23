import Reckon.Complex.Logarithm
import Reckon.Complex.Root
import Reckon.Proofs.Binary64.LowerBound
import Reckon.Proofs.Binary64.SignedZero

/-! # The root and the logarithm beside the negative axis

For a negative number with a zero imaginary part, the sign of that zero decides on which side of the
real axis the root and the logarithm lie.
-/
namespace Reckon
set_option autoImplicit false
open Float.Model Float.Model.UnpackedFloat

namespace Binary64

/-! ## Numbers that are not negative -/

theorem AtLeast.isNaN_eq_false {x : Float} {k : Int} (h : AtLeast k x.toModel.unpack) : x.isNaN = false := by
  change x.toModel.unpack.isNaN = false
  generalize x.toModel.unpack = u at h
  cases h <;> rfl

theorem nonNegative_ofBits {bits : Nat} (h : bits < 0x7FF0000000000000) :
    NonNegative (Float.ofBits (UInt64.ofNat bits)).toModel.unpack := by
  obtain ⟨b, hBits⟩ : ∃ b : BitVec Format.binary64.numBits, b = (UInt64.ofNat bits).toBitVec := ⟨_, rfl⟩
  have hNat : b.toNat = bits := by
    rw [hBits, UInt64.toNat_toBitVec, UInt64.toNat_ofNat']
    omega
  have hLead : (unpackSign b).toNat = 0 := by
    simp only [unpackSign, BitVec.toNat_cast, BitVec.extractLsb_toNat, Nat.shiftRight_eq_div_pow]
    omega
  have hExponent : (unpackExponent b).toNat ≠ 2047 := by
    simp only [unpackExponent, BitVec.toNat_cast, BitVec.extractLsb_toNat, Nat.shiftRight_eq_div_pow]
    omega
  have hSign : Sign.ofBitVec (unpackSign b) = .positive := by
    rw [Sign.ofBitVec, if_pos (BitVec.eq_of_toNat_eq hLead)]
  have hOnes : unpackExponent b ≠ -1#11 := by
    intro hOnes
    rw [hOnes] at hExponent
    exact hExponent rfl
  have hCanonical := canonical_unpack b
  change NonNegative (UnpackedFloat.unpack .binary64 (UnpackedFloat.pack .binary64
    (UnpackedFloat.unpack .binary64 (UInt64.ofNat bits).toBitVec)))
  rw [← hBits, unpack_pack hCanonical]
  rcases unpack_of_exponent hOnes with hZero | ⟨m, e, hPos, hFinite⟩
  · rw [hZero, hSign]
    exact .inl rfl
  · rw [hFinite, hSign] at hCanonical ⊢
    exact .inr ⟨_, .finite hPos ⟨hCanonical.1, hCanonical.2.1, hCanonical.2.2.2⟩ (Int.le_refl _)⟩

theorem nonNegative_ofRatio (r : Ratio) : NonNegative (ofRatio r).toModel.unpack := by
  by_cases hZero : r.num = 0
  · rw [ofRatio, if_pos hZero]
    exact .inl rfl
  · obtain ⟨bits, hBits⟩ : ∃ bits, ofRatio r =
        if bits < 0x7FF0000000000000 then Float.ofBits (UInt64.ofNat bits) else infinity :=
      ⟨_, if_neg hZero⟩
    rw [hBits]
    split
    · rename_i hRange
      exact nonNegative_ofBits hRange
    · exact .inr ⟨0, .infinity⟩

theorem nonNegative_hypot {x : Float} {k : Int} (h : AtLeast k x.toModel.unpack) :
    NonNegative (hypot x 0).toModel.unpack := by
  rw [hypot]
  split
  · exact .inr ⟨0, .infinity⟩
  · split
    · rename_i hNaN
      rw [h.isNaN_eq_false] at hNaN
      exact absurd hNaN Bool.false_ne_true
    · exact nonNegative_ofRatio _

theorem atLeast_of_not_lt_leastNormal {x : Float} (hx : AtLeast (-1074) x.toModel.unpack)
    (h : ¬ x < leastNormal) : AtLeast (-1022) x.toModel.unpack := by
  have hLeast : leastNormal.toModel.unpack = .finite .positive (2 ^ 52) (-1074) (by decide) := rfl
  rw [lt_iff, hLeast] at h
  generalize x.toModel.unpack = u at hx h
  cases hx with
  | infinity => exact .infinity
  | @finite m e hPos hRounded hBound =>
    refine .finite hPos hRounded ?_
    by_cases hNormal : 2 ^ 52 ≤ m
    · have hLog := (Nat.le_log2 (by omega)).mpr hNormal
      have hExponent := hRounded.least
      omega
    · obtain rfl : e = -1074 := hRounded.full.resolve_left hNormal
      have hLess : compare m (2 ^ 52) = .lt := Nat.compare_eq_lt.mpr (by omega)
      exact absurd (by rw [UnpackedFloat.lt, UnpackedFloat.compare, hLess]; rfl) h

/-! ## The root -/

theorem atLeast_of_unpack_eq {x : Float} {k : Int} {hPos : 0 < 2 ^ 52}
    (h : x.toModel.unpack = .finite .positive (2 ^ 52) (k - 52) hPos) (hLeast : -1022 ≤ k) :
    AtLeast k x.toModel.unpack := by
  rw [h]
  refine .finite hPos ⟨by decide, by omega, .inl (Nat.le_refl _)⟩ ?_
  rw [Nat.log2_two_pow]
  omega

theorem atLeast_sqrt_hypot {x : Float} {k l : Int} (hx : AtLeast k x.toModel.unpack)
    (hLeast : -1074 ≤ k) (hHalf : 2 * l ≤ k) (hLeast' : -1074 ≤ l) :
    AtLeast l (x + hypot x 0).sqrt.toModel.unpack := by
  have hSum := atLeast_add hx (nonNegative_hypot hx) hLeast
  exact atLeast_sqrt hSum hHalf hLeast'

theorem atLeast_rootPart {x : Float} (hx : AtLeast (-1074) x.toModel.unpack) :
    AtLeast (-538) (Complex.rootPart x 0).toModel.unpack := by
  rw [Complex.rootPart]
  split
  · have hUp : AtLeast 53 (9007199254740992.0 : Float).toModel.unpack :=
      atLeast_of_unpack_eq (by rfl) (by decide)
    have hDown : (134217728.0 : Float).toModel.unpack = .finite .positive (2 ^ 52) (27 - 52) (by decide) := rfl
    have hZero : (0 : Float) * 9007199254740992.0 = 0 := by decide +kernel
    have hScaled := atLeast_mul hx hUp (by decide)
    have hRoot := atLeast_sqrt_hypot hScaled (by decide) (show 2 * (-511 : Int) ≤ -1074 + 53 by decide)
      (by decide)
    dsimp only
    rw [hZero]
    exact atLeast_div hRoot hDown (by decide)
  · rename_i hNormal
    have hLeast : (0 : Float) < leastNormal := of_decide_eq_true rfl
    have hNotLess : ¬ x < leastNormal := fun hLess => hNormal (by simp [hLess, hLeast])
    have hEight : (8.0 : Float).toModel.unpack = .finite .positive (2 ^ 52) (3 - 52) (by decide) := rfl
    have hTwo : AtLeast 1 (2.0 : Float).toModel.unpack :=
      atLeast_of_unpack_eq (by rfl) (by decide)
    have hZero : (0 : Float) / 8.0 = 0 := rfl
    have hScaled := atLeast_div (atLeast_of_not_lt_leastNormal hx hNotLess) hEight (by decide)
    have hRoot := atLeast_sqrt_hypot hScaled (by decide) (show 2 * (-513 : Int) ≤ -1022 - 3 by decide)
      (by decide)
    dsimp only
    rw [hZero]
    exact (atLeast_mul hTwo hRoot (by decide)).mono (by decide)

/-! ## Signs -/

theorem AtLeast.pos {x : Float} {k : Int} (h : AtLeast k x.toModel.unpack) : 0 < x := by
  rw [lt_iff, show (0 : Float).toModel.unpack = .zero .positive from rfl]
  generalize x.toModel.unpack = u at h
  cases h <;> rfl

theorem AtLeast.abs {x : Float} {k : Int} (h : AtLeast k x.toModel.unpack) :
    AtLeast k x.abs.toModel.unpack := by
  change AtLeast k (UnpackedFloat.unpack .binary64 (UnpackedFloat.pack .binary64 x.toModel.unpack.abs))
  generalize x.toModel.unpack = u at h
  cases h with
  | infinity => exact AtLeast.unpack_pack .infinity
  | finite hPos hRounded hBound => exact AtLeast.unpack_pack (.finite hPos hRounded hBound)

theorem AtLeast.not_neg_pos {x : Float} {k : Int} (h : AtLeast k x.toModel.unpack) : ¬ 0 < -x := by
  have hCanonical : Canonical x.toModel.unpack := canonical_unpack _
  rw [lt_iff, show (0 : Float).toModel.unpack = .zero .positive from rfl]
  change ¬ UnpackedFloat.lt _
    (UnpackedFloat.unpack .binary64 (UnpackedFloat.pack .binary64 x.toModel.unpack.neg)) = true
  generalize x.toModel.unpack = u at h hCanonical
  cases h with
  | infinity => decide
  | @finite m e hPos hRounded hBound =>
    rw [show (UnpackedFloat.finite .positive m e hPos).neg = .finite .negative m e hPos from rfl,
      Binary64.unpack_pack (u := .finite .negative m e hPos) hCanonical]
    exact Bool.false_ne_true

theorem copySign_pos_iff {x : Float} {k : Int} (h : AtLeast k x.toModel.unpack) (s : Bool) :
    0 < copySign x (zero s) ↔ s = false := by
  rw [copySign, negative_zero]
  cases s with
  | false => exact iff_of_true h.abs.pos rfl
  | true => exact iff_of_false h.abs.not_neg_pos (by decide)

theorem infinite_zero (s : Bool) : infinite (zero s) = false := by
  cases s <;> rfl

theorem isNaN_zero (s : Bool) : (zero s).isNaN = false := by
  cases s <;> rfl

theorem isNaN_of_isFinite {x : Float} (h : x.isFinite = true) : x.isNaN = false := by
  change x.toModel.unpack.isFinite = true at h
  change x.toModel.unpack.isNaN = false
  generalize x.toModel.unpack = u at h ⊢
  cases u with
  | notANumber => cases h
  | infinity s => rfl
  | zero s => rfl
  | finite s m e hPos => rfl

theorem Ordinary.isNaN_eq_false {x : Float} (h : Ordinary x) : x.isNaN = false := by
  obtain ⟨m, e, hPos, hUnpack⟩ := h
  change x.toModel.unpack.isNaN = false
  rw [hUnpack]
  rfl

theorem Ordinary.infinite_eq_false {x : Float} (h : Ordinary x) : infinite x = false := by
  obtain ⟨m, e, hPos, hUnpack⟩ := unpack_abs h
  change UnpackedFloat.beq x.abs.toModel.unpack infinity.toModel.unpack = false
  rw [hUnpack]
  rfl

theorem ordinary_of_lt_zero {x : Float} (h : x.isFinite = true) (hLess : x < 0) :
    Ordinary x ∧ negative x = true := by
  rcases zero_or_ordinary h with hZero | hOrdinary
  · rw [hZero] at hLess
    exact absurd hLess (not_zero_lt_zero _)
  · refine ⟨hOrdinary, ?_⟩
    obtain ⟨m, e, hPos, hUnpack⟩ := hOrdinary
    rw [lt_iff, hUnpack] at hLess
    cases hSign : negative x with
    | true => rfl
    | false => rw [hSign] at hLess; cases hLess

theorem Ordinary.atLeast_abs {x : Float} (h : Ordinary x) : AtLeast (-1074) x.abs.toModel.unpack := by
  have hCanonical : Canonical x.abs.toModel.unpack := canonical_unpack _
  obtain ⟨m, e, hPos, hUnpack⟩ := unpack_abs h
  rw [hUnpack] at hCanonical ⊢
  obtain ⟨hHigh, hLow, -, hFull⟩ := hCanonical
  exact .finite hPos ⟨hHigh, hLow, hFull⟩ (by omega)

end Binary64

namespace Complex
open Binary64 (zero copySign)

variable {z : Complex} {s : Bool}

theorem isZero_of_ordinary (h : Binary64.Ordinary z.re) : z.isZero = false := by
  rw [isZero, h.beq_zero, Bool.false_and]

theorem sqrt_im (hFinite : z.re.isFinite = true) (hNegative : z.re < 0) (hIm : z.im = zero s) :
    z.sqrt.im = copySign (rootPart z.re.abs 0) (zero s) := by
  obtain ⟨hOrdinary, hSign⟩ := Binary64.ordinary_of_lt_zero hFinite hNegative
  have hNotNonnegative : ¬ 0 ≤ z.re := by
    obtain ⟨m, e, hPos, hUnpack⟩ := hOrdinary
    rw [Binary64.le_iff, hUnpack, hSign]
    exact Bool.false_ne_true
  have hIm' : Binary64.infinite z.im = false ∧ z.im.isNaN = false ∧ z.im.abs = 0 := by
    rw [hIm]
    exact ⟨Binary64.infinite_zero s, Binary64.isNaN_zero s, Binary64.abs_zero s⟩
  have hNaN : (z.re.isNaN || z.im.isNaN) = false := by
    rw [Binary64.isNaN_of_isFinite hFinite, hIm'.2.1, Bool.false_or]
  rw [sqrt, hIm'.1, hOrdinary.infinite_eq_false, hNaN]
  simp only [Bool.false_eq_true, if_false]
  rw [sqrtFinite, isZero_of_ordinary hOrdinary, if_neg Bool.false_ne_true, hIm'.2.2]
  dsimp only
  rw [if_neg hNotNonnegative, hIm]

/-- Below the branch cut the root points down, and on it up. -/
theorem sqrt_im_pos_iff (hFinite : z.re.isFinite = true) (hNegative : z.re < 0) (hIm : z.im = zero s) :
    0 < z.sqrt.im ↔ s = false := by
  obtain ⟨hOrdinary, -⟩ := Binary64.ordinary_of_lt_zero hFinite hNegative
  rw [sqrt_im hFinite hNegative hIm]
  exact Binary64.copySign_pos_iff (Binary64.atLeast_rootPart hOrdinary.atLeast_abs) s

theorem log_of_negative (hFinite : z.re.isFinite = true) (hNegative : z.re < 0) (hIm : z.im = zero s) :
    ∃ w, z.log = .ok w ∧ w.im = if s then -Binary64.pi else Binary64.pi := by
  obtain ⟨hOrdinary, hSign⟩ := Binary64.ordinary_of_lt_zero hFinite hNegative
  have hFinite' : z.isFinite = true := by
    rw [isFinite, hFinite, hIm, Binary64.isFinite_zero]
    rfl
  have hAngle : z.angle = copySign Binary64.pi (zero s) := by
    have hNaN : (z.re.isNaN || (zero s).isNaN) = false := by
      rw [Binary64.isNaN_of_isFinite hFinite, Binary64.isNaN_zero, Bool.false_or]
    have hZero : (zero s == 0) = true := Binary64.zero_beq_zero s false
    rw [angle, Binary64.angle, hIm, hNaN, if_neg Bool.false_ne_true, hZero, if_pos rfl, hSign, if_pos rfl]
  refine ⟨⟨logModulus z, z.angle⟩, ?_, ?_⟩
  · rw [log, isZero_of_ordinary hOrdinary, if_neg Bool.false_ne_true, if_pos hFinite']
  · rw [hAngle]
    change copySign Binary64.pi (zero s) = _
    cases s <;> rfl

end Complex
end Reckon
