import Reckon.Display
import Reckon.Proofs.Binary64.Comparison
import Reckon.Proofs.Binary64.Whole
import Reckon.Proofs.Decimal.Numeral
import Reckon.Proofs.Decimal.Rounding
import Reckon.Proofs.DerivedForms

/-! # Results typed back in

A real number is shown as a numeral, behind a minus sign if it is negative. Typed in again the numeral is read as
one literal and negated once, and the number that this gives is shown by the same text.
-/
namespace Reckon
set_option autoImplicit false
open Expression Binary64

/-! ## The numeral that is shown -/

namespace Decimal

variable {x y : Float}

/-- The numeral of a finite number as it is shown. -/
def shown (x : Float) : Numeral := if x == 0 then ⟨['0'], none, none⟩ else (rounded 6 x).laid 6 none

theorem shown_ordinary (h : Ordinary x) : shown x = (rounded 6 x).laid 6 none := by
  rw [shown, h.beq_zero]
  rfl

theorem value_ratio_pos (h : Ordinary x) : 0 < (ratio x).value := by
  obtain ⟨m, e, hPos, hUnpack⟩ := h
  rw [value_ratio hUnpack]
  exact mul_pos (by exact_mod_cast hPos) (two_zpow_pos e)

theorem coefficient_rounded_pos (h : Ordinary x) : 0 < (rounded 6 x).coefficient :=
  value_pos_iff.mp (rounds_rounded 5 (value_ratio_pos h)).value_pos

theorem proper_shown (h : x.isFinite = true) : (shown x).Proper := by
  rcases zero_or_ordinary h with hZero | hOrdinary
  · rw [hZero]
    have hDigit : ∀ d ∈ ['0'], d.isDigit = true := by simp
    cases negative x <;> exact ⟨hDigit, nofun, .inl (List.cons_ne_nil _ _), nofun⟩
  · rw [shown_ordinary hOrdinary]
    exact proper_laid 6 none (coefficient_rounded_pos hOrdinary)

theorem toList_general (h : x.isFinite = true) :
    (general x).toList = (if negative x then ['-'] else []) ++ (shown x).text := by
  rw [general, toList_signed _ _ h]
  rcases zero_or_ordinary h with hZero | hOrdinary
  · rw [hZero]
    cases negative x <;> rfl
  · rw [shown_ordinary hOrdinary, hOrdinary.beq_zero,
      ← adaptive_eq_text_laid 6 none (coefficient_rounded_pos hOrdinary)]
    rfl

/-- Numbers with one sign and the same six digits are shown alike. -/
theorem general_congr (hx : Ordinary x) (hy : Ordinary y) (hSign : negative y = negative x)
    (hDigits : rounded 6 y = rounded 6 x) : general y = general x := by
  rw [← String.toList_inj, toList_general hx.isFinite, toList_general hy.isFinite, shown_ordinary hx,
    shown_ordinary hy, hSign, hDigits]

/-! ## The number that is read -/

section Reading

open Float.Model Float.Model.UnpackedFloat

variable {s : Sign} {m : Nat} {e : Int} {hPos : 0 < m}

theorem value_ratio_le (h : x.toModel.unpack = .finite s m e hPos) :
    (ratio x).value ≤ (2 ^ 53 - 1 : Nat) * 2 ^ (971 : Int) := by
  obtain ⟨hWidth, -, hGreatest, -⟩ := canonical_of_unpack h
  have hMost : (m : ℚ) ≤ (2 ^ 53 - 1 : Nat) := by exact_mod_cast Nat.le_pred_of_lt hWidth
  rw [value_ratio h]
  exact mul_le_mul hMost (zpow_le_zpow_right₀ one_le_two hGreatest) (two_zpow_pos e).le (Nat.cast_nonneg _)

theorem le_value_ratio (h : x.toModel.unpack = .finite s m e hPos) (hNormal : leastNormal ≤ x.abs) :
    (2 : ℚ) ^ (-1022 : Int) ≤ (ratio x).value := by
  have hAbs := unpack_abs_of_unpack h
  have hAtLeast := atLeast_of_not_lt_leastNormal (ordinary_of_unpack h).atLeast_abs
    fun hLess => not_le_of_lt hLess hNormal
  rw [hAbs] at hAtLeast
  cases hAtLeast with
  | finite _ _ hBound =>
    have hBits : ((2 ^ m.log2 : Nat) : ℚ) ≤ m := by exact_mod_cast Nat.log2_self_le hPos.ne'
    rw [value_ratio h]
    calc (2 : ℚ) ^ (-1022 : Int) ≤ 2 ^ (m.log2 + e) := zpow_le_zpow_right₀ one_le_two hBound
      _ = (2 ^ m.log2 : Nat) * 2 ^ e := by
          rw [zpow_add₀ two_ne_zero, zpow_natCast]
          push_cast
          rfl
      _ ≤ m * 2 ^ e := mul_le_mul_of_nonneg_right hBits (two_zpow_pos e).le

/-- What is read off the text of a normal number has its sign and its six digits. -/
theorem exists_reading (h : Ordinary x) (hNormal : leastNormal ≤ x.abs) :
    Ordinary (withSign (negative x) (shown x).value.toFloat) ∧
      negative (withSign (negative x) (shown x).value.toFloat) = negative x ∧
      rounded 6 (withSign (negative x) (shown x).value.toFloat) = rounded 6 x := by
  have hSame : (shown x).value.toFloat = (rounded 6 x).toFloat := by
    rw [shown_ordinary h]
    exact toFloat_congr (value_laid 6 none (coefficient_rounded_pos h))
  obtain ⟨m, e, hPos, hUnpack⟩ := h
  have hLow := le_value_ratio hUnpack hNormal
  have hHigh := value_ratio_le hUnpack
  have hRounds : Rounds 5 (ratio x).value (rounded 6 x) :=
    rounds_rounded 5 (lt_of_lt_of_le (two_zpow_pos _) hLow)
  obtain ⟨m', e', hPos', hRead, -⟩ := exists_unpack_toFloat (hRounds.inRange hLow hHigh)
  have hSigned := unpack_withSign (s := negative x) hRead
  rw [hSame]
  exact ⟨ordinary_of_unpack hSigned, negative_of_unpack hSigned, rounded_of_rounded hLow hHigh hRead hSigned⟩

end Reading

theorem general_reading (h : Ordinary x) (hNormal : leastNormal ≤ x.abs) :
    general (withSign (negative x) (shown x).value.toFloat) = general x := by
  obtain ⟨hOrdinary, hSign, hDigits⟩ := exists_reading h hNormal
  exact general_congr h hOrdinary hSign hDigits

theorem general_reading_zero (minus : Bool) :
    general (withSign minus (shown (zero minus)).value.toFloat) = general (zero minus) := by
  have hZero : (shown (zero minus)).value.toFloat = 0 := by cases minus <;> decide +kernel
  rw [hZero, withSign_zero]

end Decimal

/-! ## The value of a numeral -/

theorem Arithmetic.coerce_real (A : Arithmetic) (hMode : A.mode = .real) (x : Float) :
    A.coerce (.real x) = .ok (.real x) := by
  unfold Arithmetic.coerce
  rw [hMode]

theorem Arithmetic.negate_real (A : Arithmetic) (hMode : A.mode = .real) (x : Float) :
    A.negate (.real x) = .ok (.real (-x)) := by
  unfold Arithmetic.negate
  rw [hMode]
  exact A.coerce_real hMode (-x)

namespace Expression

variable {A : Arithmetic} {n : Numeral}

/-- A numeral alone, or behind one minus sign, is an expression. -/
theorem parses_signed (minus : Bool) (h : n.Proper) : ∃ next next',
    Parses ((if minus then ['-'] else []) ++ n.text) ((Tree.literal n.value next).signed minus next') := by
  have hLiteral (p : Nat) :
      Derives .primary ⟨p, n.text⟩ (.literal n.value (p + n.text.length)) ⟨p + n.text.length, []⟩ := by
    have hAlone := @derives_literal n h [] nofun p
    rwa [List.append_nil] at hAlone
  cases minus with
  | false =>
    have hFactor := Derives.factor (.none _) (.operand false (hLiteral 0))
    exact ⟨_, _, _, .summand (.single (.base hFactor)), rfl⟩
  | true =>
    have hSigns := Cursor.Signs.minus (Cursor.token_first (by decide) 0 n.text) (.none _)
    have hFactor := Derives.factor hSigns (.operand true (hLiteral 1))
    exact ⟨_, _, _, .summand (.single (.base hFactor)), rfl⟩

theorem eval_literal (hMode : A.mode = .real) (d : Decimal) (next : Nat) :
    (Tree.literal d next).eval A = .ok (.real d.toFloat) := by
  rw [Tree.eval, A.coerce_real hMode]
  rfl

theorem eval_signed (hMode : A.mode = .real) (minus : Bool) {t : Tree} {x : Float} (next : Nat)
    (h : t.eval A = .ok (.real x)) : (t.signed minus next).eval A = .ok (.real (withSign minus x)) := by
  cases minus with
  | false => exact h
  | true =>
    change (t.negate next).eval A = .ok (.real (-x))
    rw [Tree.eval, h, ok_bind, A.negate_real hMode]
    rfl

theorem value_signed [Interpreter] {limit : Int} (hMode : A.mode = .real) (hLimit : 1 ≤ limit)
    (minus : Bool) (h : n.Proper) :
    value A limit ((if minus then ['-'] else []) ++ n.text) = .ok (.real (withSign minus n.value.toFloat)) := by
  obtain ⟨next, next', hParses⟩ := parses_signed minus h
  have hNesting : ((Tree.literal n.value next).signed minus next').nesting ≤ levels limit := by
    have hReach : 0 < reach := Interpreter.positive
    rw [Tree.nesting, Tree.depth_signed, Tree.depth, levels]
    omega
  rw [value_of_parses hParses hNesting]
  exact eval_signed hMode minus next' (eval_literal hMode n.value next)

end Expression

/-- The text of a zero or of a normal number is one numeral, with a minus sign before it if the number is negative.
    Evaluated in real mode it gives a number that is shown by the same text. -/
theorem evaluate_display [Interpreter] (settings : Settings) (v : Float) (hMode : settings.mode = .real)
    (hDepth : 1 ≤ settings.maxDepth)
    (hValue : (v == 0) = true ∨ v.isFinite = true ∧ leastNormal ≤ v.abs) :
    ∃ (n : Numeral) (x : Float),
      ((Number.real v).display settings.epsilon).toList = (if negative v then ['-'] else []) ++ n.text ∧
      Numeral.scan? n.text = some (n, []) ∧ x = withSign (negative v) n.value.toFloat ∧
      evaluate settings ((Number.real v).display settings.epsilon) =
        .ok ⟨(Number.real v).display settings.epsilon, .ok (.real x)⟩ ∧
      (Number.real x).display settings.epsilon = (Number.real v).display settings.epsilon := by
  have hFinite : v.isFinite = true := by
    rcases hValue with hZero | ⟨hFinite, -⟩
    · rw [eq_zero_of_beq_zero hZero]
      exact isFinite_zero _
    · exact hFinite
  have hText : (Decimal.general v).toList = (if negative v then ['-'] else []) ++ (Decimal.shown v).text :=
    Decimal.toList_general hFinite
  have hProper := Decimal.proper_shown hFinite
  have hRead : value settings.arithmetic settings.maxDepth (Decimal.general v).toList =
      .ok (.real (withSign (negative v) (Decimal.shown v).value.toFloat)) := by
    rw [hText]
    exact value_signed hMode hDepth (negative v) hProper
  refine ⟨Decimal.shown v, _, hText, Numeral.scan?_text hProper, rfl, evaluate_value_iff.mpr hRead, ?_⟩
  change Decimal.general _ = Decimal.general v
  cases hBeq : v == 0 with
  | true =>
    obtain ⟨minus, rfl⟩ : ∃ minus, v = zero minus := ⟨_, eq_zero_of_beq_zero hBeq⟩
    rw [negative_zero]
    exact Decimal.general_reading_zero minus
  | false =>
    rw [hBeq] at hValue
    exact Decimal.general_reading (ordinary_of_finite hFinite hBeq) (hValue.resolve_left Bool.false_ne_true).2

/-- Six digits of this number are those of the next power of ten. -/
theorem evaluate_display_carry :
    leastNormal ≤ (-999999.5 : Float).abs ∧ (Number.real (-999999.5)).display defaultEpsilon = "-1e+06" ∧
      ∃ (n : Numeral) (x : Float), "-1e+06".toList = ['-'] ++ n.text ∧ Numeral.scan? n.text = some (n, []) ∧
        x = withSign true n.value.toFloat ∧
        evaluate { mode := .real } "-1e+06" = .ok ⟨"-1e+06", .ok (.real x)⟩ ∧
        (Number.real x).display defaultEpsilon = "-1e+06" := by
  have hNormal : leastNormal ≤ (-999999.5 : Float).abs := by decide +kernel
  have hText : (Number.real (-999999.5)).display defaultEpsilon = "-1e+06" := by decide +kernel
  have hNegative : negative (-999999.5) = true := by decide +kernel
  have hRead := evaluate_display { mode := .real } (-999999.5) rfl (by decide) (.inr ⟨by decide +kernel, hNormal⟩)
  rw [hText, hNegative] at hRead
  exact ⟨hNormal, hText, hRead⟩

end Reckon
