import Reckon.Decimal.Layout
import Reckon.Proofs.Binary64.Parts
import Reckon.Proofs.Decimal.Reading
import Reckon.Proofs.Numeral.Longest

/-! # The numeral that a layout writes

A decimal is laid out as its significant digits around a point or before an exponent. The text is that of a
numeral, and the numeral has the value of the decimal.
-/
namespace Reckon
set_option autoImplicit false

/-! ## Digits -/

namespace Numeral

/-- The number that digits are read as. -/
def number (digits : List Char) : Nat := Decimal.digitsValue (digits.map digitValue)

theorem number_eq_ofDigitChars (digits : List Char) : number digits = Nat.ofDigitChars 10 digits 0 := by
  rw [number, Decimal.digitsValue, Nat.ofDigitChars, List.foldl_map]
  rfl

theorem number_toDigits (n : Nat) : number (Nat.toDigits 10 n) = n := by
  rw [number_eq_ofDigitChars, Nat.ofDigitChars_toDigits (by decide) (by decide)]

theorem foldl_digits (more : List Nat) (n : Nat) :
    more.foldl (fun n d => 10 * n + d) n = n * 10 ^ more.length + Decimal.digitsValue more := by
  induction more generalizing n with
  | nil => simp [Decimal.digitsValue]
  | cons d more ih =>
    rw [Decimal.digitsValue, List.foldl_cons, List.foldl_cons, ih, ih (10 * 0 + d), List.length_cons, pow_succ]
    ring

theorem number_append (front back : List Char) :
    number (front ++ back) = number front * 10 ^ back.length + number back := by
  rw [number, Decimal.digitsValue, List.map_append, List.foldl_append, foldl_digits, List.length_map]
  rfl

theorem number_zeros (count : Nat) : number (List.replicate count '0') = 0 := by
  induction count with
  | zero => rfl
  | succ count ih => rw [List.replicate_succ', number_append, ih]; rfl

theorem isDigit_of_mem_zeros {count : Nat} : ∀ c ∈ List.replicate count '0', c.isDigit = true := by
  intro c hMember
  rw [List.eq_of_mem_replicate hMember]
  rfl

/-- A number above zero starts with another digit than zero. -/
theorem head_toDigits {n : Nat} (h : 0 < n) : ∀ c ∈ (Nat.toDigits 10 n).head?, c ≠ '0' := by
  induction n using Nat.strongRecOn with
  | ind n ih =>
    rcases Nat.lt_or_ge n 10 with hSmall | hLarge
    · rw [Nat.toDigits_of_lt_base hSmall]
      rintro c ⟨⟩
      interval_cases n <;> decide
    · rw [Nat.toDigits_of_base_le (by decide) hLarge, List.head?_append_of_ne_nil _ Nat.toDigits_ne_nil]
      exact ih (n / 10) (by omega) (by omega)

end Numeral

/-! ## Exponents -/

/-- The exponent as it is laid out: always a sign, and two digits or more. -/
def Exponent.ofPower (power : Int) : Exponent where
  mark := 'e'
  sign := some (if power < 0 then '-' else '+')
  digits :=
    if (Nat.toDigits 10 power.natAbs).length < 2 then '0' :: Nat.toDigits 10 power.natAbs
    else Nat.toDigits 10 power.natAbs

namespace Exponent
open Numeral

variable {power : Int}

theorem text_ofPower : (ofPower power).text = 'e' :: Decimal.exponentText power := rfl

theorem proper_ofPower : (ofPower power).Proper where
  mark := .inl rfl
  sign := by
    by_cases hSign : power < 0
    · exact .inr (.inr (congrArg some (if_pos hSign)))
    · exact .inr (.inl (congrArg some (if_neg hSign)))
  digits := by
    have hDigits : ∀ c ∈ Nat.toDigits 10 power.natAbs, c.isDigit = true :=
      fun c => Nat.isDigit_of_mem_toDigits (by decide) (by decide)
    intro c hMember
    rw [ofPower] at hMember
    dsimp only at hMember
    split at hMember
    · rcases List.mem_cons.mp hMember with rfl | hDigit
      · rfl
      · exact hDigits c hDigit
    · exact hDigits c hMember
  nonempty := by
    rw [ofPower]
    dsimp only
    split
    · exact List.cons_ne_nil _ _
    · exact Nat.toDigits_ne_nil

theorem value_ofPower : (ofPower power).value = power := by
  have hDigits : number (ofPower power).digits = power.natAbs := by
    rw [ofPower]
    dsimp only
    split
    · rw [← List.singleton_append, number_append, number_toDigits]
      exact (Nat.add_comm _ _).trans (congrArg (power.natAbs + ·) (Nat.zero_mul _))
    · rw [number_toDigits]
  change (if (ofPower power).sign = some '-' then -(number (ofPower power).digits : Int)
    else (number (ofPower power).digits : Int)) = power
  rw [hDigits, ofPower]
  dsimp only
  by_cases hSign : power < 0
  · rw [if_pos hSign, if_pos rfl]
    omega
  · rw [if_neg hSign, if_neg (by decide)]
    omega

end Exponent

namespace Decimal
open Numeral

/-! ## Significant digits -/

variable {d : Decimal}

/-- Digits that do not start with a zero. -/
structure Leading (text : List Char) : Prop where
  digits : ∀ c ∈ text, c.isDigit = true
  nonempty : text ≠ []
  head : ∀ c ∈ text.head?, c ≠ '0'

theorem exists_zeros (text : List Char) :
    ∃ count, text = (text.reverse.dropWhile (· == '0')).reverse ++ List.replicate count '0' := by
  have hParts := congrArg List.reverse
    (List.takeWhile_append_dropWhile (p := (· == '0')) (l := text.reverse))
  rw [List.reverse_append, List.reverse_reverse] at hParts
  have hZeros : (text.reverse.takeWhile (· == '0')).reverse =
      List.replicate (text.reverse.takeWhile (· == '0')).reverse.length '0' :=
    List.eq_replicate_of_mem fun c hMember =>
      beq_iff_eq.mp (List.mem_takeWhile_imp (p := (· == '0')) (List.mem_reverse.mp hMember))
  rw [hZeros] at hParts
  exact ⟨_, hParts.symm⟩

/-- Behind the significant digits there are only zeros. -/
theorem exists_significant (h : 0 < d.coefficient) :
    Leading d.significant ∧
      ∃ count, Nat.toDigits 10 d.coefficient = d.significant ++ List.replicate count '0' := by
  obtain ⟨count, hDigits⟩ := exists_zeros (Nat.toDigits 10 d.coefficient)
  have hNonempty : ((Nat.toDigits 10 d.coefficient).reverse.dropWhile (· == '0')).reverse ≠ [] := by
    intro hNone
    rw [hNone, List.nil_append] at hDigits
    have hZero := congrArg number hDigits
    rw [number_toDigits, number_zeros] at hZero
    omega
  have hSignificant :
      d.significant = ((Nat.toDigits 10 d.coefficient).reverse.dropWhile (· == '0')).reverse := by
    rw [significant]
    split
    · rename_i hNone
      exact absurd hNone hNonempty
    · rfl
  rw [← hSignificant] at hDigits hNonempty
  refine ⟨⟨fun c hMember => ?_, hNonempty, fun c hHead => ?_⟩, count, hDigits⟩
  · refine Nat.isDigit_of_mem_toDigits (b := 10) (n := d.coefficient) (by decide) (by decide) ?_
    rw [hDigits]
    exact List.mem_append_left _ hMember
  · refine head_toDigits h c ?_
    rwa [hDigits, List.head?_append_of_ne_nil _ hNonempty]

/-- The significant digits and the place of the point make up the value. -/
theorem value_eq_significant (h : 0 < d.coefficient) :
    d.value = number d.significant * 10 ^ (d.decade - d.significant.length) := by
  obtain ⟨-, count, hDigits⟩ := exists_significant h
  have hCoefficient : d.coefficient = number d.significant * 10 ^ count := by
    rw [← number_toDigits d.coefficient, hDigits, number_append, number_zeros, List.length_replicate,
      Nat.add_zero]
  have hDecade : d.decade - d.significant.length = count + d.exponent := by
    rw [decade, Ratio.digitCount, hDigits, List.length_append, List.length_replicate]
    omega
  rw [hDecade, zpow_add₀ (by norm_num), zpow_natCast, value, hCoefficient]
  push_cast
  ring

/-! ## Layouts -/

/-- A finite number is laid out behind its sign. -/
theorem toList_signed {x : Float} (zero : List Char) (magnitude : Float → List Char) (h : x.isFinite = true) :
    (signed zero magnitude x).toList =
      (if Binary64.negative x then ['-'] else []) ++ (if x == 0 then zero else magnitude x) := by
  rw [signed, Binary64.isNaN_of_isFinite h, Binary64.infinite_eq_false h]
  simp only [Bool.false_eq_true, if_false, String.toList_ofList]
  cases Binary64.negative x <;> rfl

/-- The numeral of an exact number. -/
def numeral (d : Decimal) : Numeral :=
  if -4 ≤ d.decade - 1 ∧ d.decade - 1 < 16 then
    if d.decade ≤ 0 then ⟨['0'], some (List.replicate (-d.decade).toNat '0' ++ d.significant), none⟩
    else if d.significant.length ≤ d.decade.toNat then
      ⟨d.significant ++ List.replicate (d.decade.toNat - d.significant.length) '0', some ['0'], none⟩
    else ⟨d.significant.take d.decade.toNat, some (d.significant.drop d.decade.toNat), none⟩
  else
    ⟨d.significant.take 1, if d.significant.length ≤ 1 then none else some (d.significant.drop 1),
      some (.ofPower (d.decade - 1))⟩

/-- The numeral of a decimal that is written without an exponent up to the power `limit`. A whole number may end in
    a point and zeros. -/
def laid (limit : Int) (zeros : Option Nat) (d : Decimal) : Numeral :=
  if -4 ≤ d.decade - 1 ∧ d.decade - 1 < limit then
    if d.decade ≤ 0 then ⟨['0'], some (List.replicate (-d.decade).toNat '0' ++ d.significant), none⟩
    else if d.significant.length ≤ d.decade.toNat then
      ⟨d.significant ++ List.replicate (d.decade.toNat - d.significant.length) '0',
        zeros.map (List.replicate · '0'), none⟩
    else ⟨d.significant.take d.decade.toNat, some (d.significant.drop d.decade.toNat), none⟩
  else
    ⟨d.significant.take 1, if d.significant.length ≤ 1 then none else some (d.significant.drop 1),
      some (.ofPower (d.decade - 1))⟩

/-- The end of a whole number. -/
def wholeEnd : Option Nat → List Char
  | none => []
  | some zeros => '.' :: List.replicate zeros '0'

theorem adaptive_eq_text_laid (limit : Int) (zeros : Option Nat) (h : 0 < d.coefficient) :
    adaptive limit (wholeEnd zeros) d = (d.laid limit zeros).text := by
  obtain ⟨⟨-, hNonempty, -⟩, -⟩ := exists_significant h
  rw [adaptive, laid]
  split
  · rw [positional]
    split
    · rw [text_mk_some]
      rfl
    · split
      · cases zeros with
        | none => rw [Option.map_none, text_mk_none, wholeEnd, List.append_nil]
        | some zeros => rw [Option.map_some, text_mk_some, wholeEnd]
      · rw [text_mk_some]
  · rw [text_mk_exponent, Exponent.text_ofPower]
    rcases hDigits : d.significant with _ | ⟨first, _ | ⟨second, more⟩⟩
    · exact absurd hDigits hNonempty
    · rfl
    · rw [if_neg (by simp), text_mk_some]
      rfl

theorem adaptive_eq_text (h : 0 < d.coefficient) : adaptive 16 ['.', '0'] d = d.numeral.text :=
  adaptive_eq_text_laid 16 (some 1) h

/-- Zeros before the significant digits do not count, and those behind them move the point. -/
theorem value_of_digits {n : Numeral} (h : 0 < d.coefficient) (front back : Nat)
    (hDigits : n.whole ++ n.fraction.getD [] =
      List.replicate front '0' ++ (d.significant ++ List.replicate back '0'))
    (hPlace : (n.exponent.map Exponent.value).getD 0 - (n.fraction.getD []).length + back =
      d.decade - d.significant.length) : n.value.value = d.value := by
  have hNumber : number (n.whole ++ n.fraction.getD []) = number d.significant * 10 ^ back := by
    rw [hDigits, number_append, number_append, number_zeros, number_zeros, List.length_replicate,
      Nat.zero_mul, Nat.zero_add, Nat.add_zero]
  calc n.value.value
      = number (n.whole ++ n.fraction.getD []) *
          10 ^ ((n.exponent.map Exponent.value).getD 0 - (n.fraction.getD []).length) := rfl
    _ = d.value := by
        rw [value_eq_significant h, ← hPlace, zpow_add₀ (by norm_num), zpow_natCast, hNumber]
        push_cast
        ring

theorem value_laid (limit : Int) (zeros : Option Nat) (h : 0 < d.coefficient) :
    (d.laid limit zeros).value.value = d.value := by
  obtain ⟨⟨-, hNonempty, -⟩, -⟩ := exists_significant h
  have hSome := List.length_pos_iff.mpr hNonempty
  rw [laid]
  split
  · split
    · refine value_of_digits h ((-d.decade).toNat + 1) 0 ?_ ?_
      · simp [List.replicate_succ]
      · simp
        omega
    · split
      · refine value_of_digits h 0 (d.decade.toNat - d.significant.length + zeros.getD 0) ?_ ?_
        · cases zeros <;> simp
        · cases zeros <;> simp <;> omega
      · refine value_of_digits h 0 0 ?_ ?_
        · simp
        · simp
          omega
  · refine value_of_digits h 0 0 ?_ ?_
    · split
      · simpa
      · simpa using List.take_append_drop 1 d.significant
    · simp only [Option.map_some, Option.getD_some, Exponent.value_ofPower]
      split
      · simp
        omega
      · simp
        omega

theorem value_numeral (h : 0 < d.coefficient) : d.numeral.value.value = d.value := value_laid 16 (some 1) h

theorem proper_laid (limit : Int) (zeros : Option Nat) (h : 0 < d.coefficient) : (d.laid limit zeros).Proper := by
  obtain ⟨⟨hDigits, hNonempty, -⟩, -⟩ := exists_significant h
  have hTake (n : Nat) : ∀ c ∈ d.significant.take n, c.isDigit = true :=
    fun c hMember => hDigits c (List.mem_of_mem_take hMember)
  have hDrop (n : Nat) : ∀ c ∈ d.significant.drop n, c.isDigit = true :=
    fun c hMember => hDigits c (List.mem_of_mem_drop hMember)
  rw [laid]
  split
  · split
    · refine ⟨by simp, fun c hMember => ?_, .inl (List.cons_ne_nil _ _), by simp⟩
      rcases List.mem_append.mp hMember with hZero | hDigit
      · exact isDigit_of_mem_zeros c hZero
      · exact hDigits c hDigit
    · split
      · refine ⟨fun c hMember => ?_, ?_, .inl ?_, by simp⟩
        · rcases List.mem_append.mp hMember with hDigit | hZero
          · exact hDigits c hDigit
          · exact isDigit_of_mem_zeros c hZero
        · cases zeros with
          | none => simp
          | some zeros => exact isDigit_of_mem_zeros
        · exact List.append_ne_nil_of_left_ne_nil hNonempty _
      · rename_i hLong
        refine ⟨hTake _, hDrop _, .inr fun hNone => ?_, by simp⟩
        have hLength := List.drop_eq_nil_iff.mp hNone
        exact hLong hLength
  · refine ⟨hTake 1, ?_, .inl ?_, ?_⟩
    · dsimp only
      split
      · simp
      · exact hDrop 1
    · simpa using hNonempty
    · rintro e ⟨⟩
      exact Exponent.proper_ofPower

theorem proper_numeral (h : 0 < d.coefficient) : d.numeral.Proper := proper_laid 16 (some 1) h

end Decimal
end Reckon
