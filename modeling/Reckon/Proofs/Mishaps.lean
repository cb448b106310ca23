import Mathlib.Tactic.SplitIfs
import Reckon.Arithmetic
import Reckon.Proofs.Except

/-! # What numeric functions have no value for

Powers have none where they would divide by zero or where the result is out of range, but there is no
operand outside of their domain. The gamma function and the functions of one argument never divide by zero.
-/
namespace Reckon
set_option autoImplicit false

variable {m : Mishap}

namespace Complex

variable {z w : Complex}

/-! ## Powers -/

theorem mishap_of_powWhole {n : Nat} {inverted : Bool} :
    z.powWhole n inverted = .error m → m = .zeroDivision := by
  unfold powWhole
  split_ifs <;> rintro ⟨⟩
  rfl

theorem mishap_of_powPolar : z.powPolar w = .error m → m = .zeroDivision := by
  unfold powPolar
  dsimp only
  split_ifs <;> rintro ⟨⟩ <;> rfl

theorem mishap_of_pow (h : z.pow w = .error m) : m = .zeroDivision ∨ m = .outOfRange := by
  have hRange {r : Complex} (hLast : (if r.hasInfinity then Except.error .outOfRange else .ok r) = .error m) :
      m = .outOfRange := by
    split at hLast <;> cases hLast
    rfl
  unfold pow at h
  dsimp only at h
  split at h
  · rcases bind_eq_error_iff.mp h with hPower | ⟨r, -, hLast⟩
    · exact .inl (mishap_of_powWhole hPower)
    · exact .inr (hRange hLast)
  · rcases bind_eq_error_iff.mp h with hPower | ⟨r, -, hLast⟩
    · exact .inl (mishap_of_powPolar hPower)
    · exact .inr (hRange hLast)

/-! ## Functions of one argument -/

theorem mishap_of_log : z.log = .error m → m = .outOfDomain := by
  unfold log
  split_ifs <;> rintro ⟨⟩
  rfl

theorem mishap_of_inRange : z.inRange = .error m → m = .outOfRange := by
  unfold inRange
  split_ifs <;> rintro ⟨⟩
  rfl

theorem mishap_of_coshLimit : z.coshLimit = .error m → m = .outOfDomain := by
  unfold coshLimit
  split_ifs <;> rintro ⟨⟩
  rfl

theorem mishap_of_sinhLimit : z.sinhLimit = .error m → m = .outOfDomain := by
  unfold sinhLimit
  split_ifs <;> rintro ⟨⟩
  rfl

theorem mishap_of_tanhLimit : z.tanhLimit = .error m → m = .outOfDomain := by
  unfold tanhLimit
  split_ifs <;> rintro ⟨⟩
  rfl

theorem mishap_of_cosh (h : z.cosh = .error m) : m = .outOfDomain ∨ m = .outOfRange := by
  unfold cosh at h
  split at h
  · exact .inl (mishap_of_coshLimit h)
  · split at h <;> exact .inr (mishap_of_inRange h)

theorem mishap_of_sinh (h : z.sinh = .error m) : m = .outOfDomain ∨ m = .outOfRange := by
  unfold sinh at h
  split at h
  · exact .inl (mishap_of_sinhLimit h)
  · split at h <;> exact .inr (mishap_of_inRange h)

theorem mishap_of_tanh (h : z.tanh = .error m) : m = .outOfDomain := by
  unfold tanh at h
  split at h
  · exact mishap_of_tanhLimit h
  · split at h <;> cases h

theorem mishap_of_artanhRight : z.artanhRight = .error m → m = .outOfDomain := by
  unfold artanhRight
  dsimp only
  split_ifs <;> rintro ⟨⟩
  rfl

theorem mishap_of_artanh (h : z.artanh = .error m) : m = .outOfDomain := by
  unfold artanh at h
  split at h
  · cases h
  · split at h
    · rcases bind_eq_error_iff.mp h with hRight | ⟨r, -, hTurn⟩
      · exact mishap_of_artanhRight hRight
      · cases hTurn
    · exact mishap_of_artanhRight h

/-- A quarter turn before and behind a function changes nothing about where it fails. -/
theorem mishap_of_turned {f : Complex → Except Mishap Complex}
    (h : (f z.turnLeft >>= fun w => .ok w.turnRight) = .error m) : f z.turnLeft = .error m := by
  rcases bind_eq_error_iff.mp h with hHyperbolic | ⟨r, -, hTurn⟩
  · exact hHyperbolic
  · cases hTurn

theorem mishap_of_apply {f : Unary} (h : apply f z = .error m) : m = .outOfDomain ∨ m = .outOfRange := by
  cases f with
  | log | ln => exact .inl (mishap_of_log h)
  | cos => exact mishap_of_cosh h
  | sin =>
    rw [apply, sin] at h
    exact mishap_of_sinh (mishap_of_turned h)
  | tan =>
    rw [apply, tan] at h
    exact .inl (mishap_of_tanh (mishap_of_turned h))
  | arctan =>
    rw [apply, arctan] at h
    exact .inl (mishap_of_artanh (mishap_of_turned h))
  | arccos | arcsin | sqrt => cases h

end Complex

namespace Real

variable {x : Float}

theorem mishap_of_defined {f : Float → Float} : defined f x = .error m → m = .outOfDomain := by
  unfold defined
  split_ifs <;> rintro ⟨⟩
  rfl

theorem mishap_of_log : log x = .error m → m = .outOfDomain := by
  unfold log
  split_ifs <;> rintro ⟨⟩
  rfl

theorem mishap_of_apply {f : Unary} (h : apply f x = .error m) : m = .outOfDomain := by
  cases f with
  | log | ln => exact mishap_of_log h
  | cos | sin | tan | arccos | arcsin | sqrt => exact mishap_of_defined h
  | arctan => cases h

/-- The gamma function has no value at zero and left of it, and elsewhere only where its value is too large. -/
theorem mishap_of_gamma : gamma x = .error m → x ≤ 0 ∨ m = .outOfRange := by
  unfold gamma
  dsimp only
  split_ifs with hPole <;> rintro ⟨⟩
  · exact .inl hPole
  all_goals exact .inr rfl

end Real

namespace Number

/-- Only a power of a negative number is taken in the complex numbers. -/
theorem mishap_of_powReal {x y : Float} : powReal x y = .error m → m = .zeroDivision ∨ m = .outOfRange := by
  unfold powReal
  dsimp only
  split_ifs
  all_goals try exact fun h => Complex.mishap_of_pow (map_eq_error_iff.mp h)
  all_goals rintro ⟨⟩
  · exact .inl rfl
  all_goals exact .inr rfl

theorem mishap_of_pow {a b : Number} (h : a.pow b = .error m) : m = .zeroDivision ∨ m = .outOfRange := by
  unfold pow at h
  split at h
  · exact mishap_of_powReal h
  · exact Complex.mishap_of_pow (map_eq_error_iff.mp h)

end Number

end Reckon
