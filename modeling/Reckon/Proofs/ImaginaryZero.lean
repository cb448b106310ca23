import Reckon.Proofs.Recognition
import Reckon.Proofs.Complex.BranchCut
import Reckon.Proofs.Complex.ImaginarySign

/-! # The sign of the imaginary zero of a plain expression

Numerals, the real constants and the operations that are no powers give complex numbers whose
imaginary part is a zero. Its sign depends on the signs of the real parts on the way, and decides on
which side of the branch cut the root and the logarithm of a negative value lie.
-/
namespace Reckon
set_option autoImplicit false
open Binary64 (zero negative)

namespace Expression.Tree

/-! ## Plain trees -/

/-- Numerals, the real constants, brackets, and all operators but the power and the factorial. -/
inductive Plain : Tree → Prop
  | literal (d : Decimal) (next : Nat) : Plain (.literal d next)
  | name {word : String} (h : word = "pi" ∨ word = "e") (start next : Nat) :
      Plain (.name word start next)
  | group {t : Tree} (b : Bracket) (h : Plain t) : Plain (.group b t)
  | percent {t : Tree} (h : Plain t) (next : Nat) : Plain (.percent t next)
  | negate {t : Tree} (h : Plain t) (next : Nat) : Plain (.negate t next)
  | binary {op : Operator} {a b : Tree} (hOperator : op ≠ .pow) (hLeft : Plain a) (hRight : Plain b)
      (next : Nat) : Plain (.binary op a b next)

inductive Within (s : Tree) : Tree → Prop
  | self : Within s s
  | argument {t : Tree} {args : List Tree} (hArgument : t ∈ args) (h : Within s t) (word : String)
      (start opening next : Nat) : Within s (.call word args start opening next)
  | group {t : Tree} (b : Bracket) (h : Within s t) : Within s (.group b t)
  | factorial {t : Tree} (h : Within s t) (negated : Bool) (next : Nat) :
      Within s (.factorial negated t next)
  | percent {t : Tree} (h : Within s t) (next : Nat) : Within s (.percent t next)
  | negate {t : Tree} (h : Within s t) (next : Nat) : Within s (.negate t next)
  | left {a : Tree} (op : Operator) (h : Within s a) (b : Tree) (next : Nat) :
      Within s (.binary op a b next)
  | right {b : Tree} (op : Operator) (a : Tree) (h : Within s b) (next : Nat) :
      Within s (.binary op a b next)

/-- The real parts of all values on the way are finite. -/
def Bounded (A : Arithmetic) (t : Tree) : Prop :=
  ∀ s, Within s t → ∀ y, s.eval A = .ok y → y.re.isFinite = true

/-- Whether the real part of the value has a minus sign; so it has for `-0.0`. -/
def minusRe (A : Arithmetic) (t : Tree) : Bool :=
  match t.eval A with
  | .ok x => negative x.re
  | .error _ => false

/-- Whether the imaginary part of a plain tree is a negative zero. -/
def minusIm (A : Arithmetic) : Tree → Bool
  | group _ t => t.minusIm A
  | percent t _ => t.minusIm A && !t.minusRe A
  | binary .add a b _ => a.minusIm A && b.minusIm A
  | binary .sub a b _ => a.minusIm A && !b.minusIm A
  | binary .mul a b _ => (a.minusRe A ^^ b.minusIm A) && (a.minusIm A ^^ b.minusRe A)
  | binary .div a b _ =>
    (a.minusIm A && !(a.minusRe A ^^ (b.minusIm A ^^ b.minusRe A))) ^^ b.minusRe A
  | _ => false

variable {A : Arithmetic} {t : Tree} {x : Number}

theorem Bounded.mono {s : Tree} (h : t.Bounded A) (hWithin : ∀ r, Within r s → Within r t) :
    s.Bounded A :=
  fun r hr => h r (hWithin r hr)

theorem Bounded.isFinite_re {z : Complex} (h : t.Bounded A) (hValue : t.eval A = .ok (.complex z)) :
    z.re.isFinite = true := by
  have hFinite := h t .self (.complex z) hValue
  exact hFinite

theorem minusRe_of_eval {z : Complex} (h : t.eval A = .ok (.complex z)) :
    t.minusRe A = negative z.re := by
  rw [minusRe, h]
  rfl

theorem reportedAt_eq_ok_iff {offset : Nat} {result : Except Failure Number} :
    reportedAt offset result = .ok x ↔ result = .ok x := mapError_eq_ok_iff

theorem constant_of_name (hMode : A.mode = .complex) {word : String} {start next : Nat}
    (hWord : word = "pi" ∨ word = "e") (h : (Tree.name word start next).eval A = .ok x) :
    ∃ r, x = .complex (.ofReal r) := by
  obtain ⟨mode, epsilon⟩ := A
  obtain rfl : mode = .complex := hMode
  rcases hWord with rfl | rfl
  · exact ⟨Binary64.pi, (Except.ok.inj h).symm⟩
  · exact ⟨Binary64.e, (Except.ok.inj h).symm⟩

theorem im_of_binary {op : Operator} (hMode : A.mode = .complex) (hOperator : op ≠ .pow) {a b : Tree}
    {z w : Complex} (hLeft : a.eval A = .ok (.complex z)) (hRight : b.eval A = .ok (.complex w))
    (hz : z.im = zero (a.minusIm A)) (hw : w.im = zero (b.minusIm A)) (hzRe : z.re.isFinite = true)
    (hwRe : w.re.isFinite = true) (next : Nat) (h : op.apply A (.complex z) (.complex w) = .ok x) :
    ∃ v, x = .complex v ∧ v.im = zero ((Tree.binary op a b next).minusIm A) := by
  cases op with
  | pow => exact absurd rfl hOperator
  | add => exact ⟨_, Arithmetic.eq_of_coerce hMode h, Complex.im_add hz hw⟩
  | sub => exact ⟨_, Arithmetic.eq_of_coerce hMode h, Complex.im_sub hz hw⟩
  | mul =>
    refine ⟨_, Arithmetic.eq_of_coerce hMode h, (Complex.im_mul hz hw hzRe hwRe).trans ?_⟩
    rw [minusIm, minusRe_of_eval hLeft, minusRe_of_eval hRight]
  | div =>
    obtain ⟨hNonzero, rfl⟩ := Arithmetic.div_complex hMode h
    -- The imaginary part is a zero, so it is the real part that makes the divisor more than zero.
    have hOrdinary : Binary64.Ordinary w.re := by
      have hImZero : (w.im == 0) = true := by
        rw [hw]
        exact Binary64.zero_beq_zero _ false
      rw [Complex.isZero, hImZero, Bool.and_true] at hNonzero
      exact Binary64.ordinary_of_finite hwRe hNonzero
    refine ⟨_, rfl, (Complex.im_div hz hw hzRe hOrdinary).trans ?_⟩
    rw [minusIm, minusRe_of_eval hLeft, minusRe_of_eval hRight]
  | floorDiv =>
    obtain ⟨r, rfl⟩ := Arithmetic.floorDiv_complex hMode h
    exact ⟨_, rfl, rfl⟩

theorem Plain.im_eq (hMode : A.mode = .complex) (hPlain : t.Plain) (hBounded : t.Bounded A)
    (h : t.eval A = .ok x) : ∃ z, x = .complex z ∧ z.im = zero (t.minusIm A) := by
  induction hPlain generalizing x with
  | literal d next =>
    rw [eval, reportedAt_eq_ok_iff] at h
    exact ⟨_, Arithmetic.eq_of_coerce hMode h, rfl⟩
  | name hWord start next =>
    obtain ⟨r, rfl⟩ := constant_of_name hMode hWord h
    exact ⟨_, rfl, rfl⟩
  | group b _ ih => exact ih (hBounded.mono fun _ => .group b) h
  | percent _ next ih =>
    have hOperandBounded := hBounded.mono fun _ hr => .percent hr next
    obtain ⟨y, hOperand, h⟩ := bind_eq_ok_iff.mp h
    obtain ⟨z, rfl, hz⟩ := ih hOperandBounded hOperand
    have hHundred : Binary64.Ordinary (Complex.ofReal 100).re := Binary64.ordinary_hundred
    have hPositive : negative (Complex.ofReal 100).re = false := rfl
    have hIm : (Complex.ofReal 100).im = zero false := rfl
    have hQuotient : x = .complex (z.div (.ofReal 100)) :=
      Arithmetic.eq_of_coerce hMode (reportedAt_eq_ok_iff.mp h)
    refine ⟨_, hQuotient, (Complex.im_div hz hIm (hOperandBounded.isFinite_re hOperand) hHundred).trans ?_⟩
    rw [hPositive, minusIm, minusRe_of_eval hOperand, Bool.false_xor, Bool.xor_false, Bool.xor_false]
  | negate _ next ih =>
    obtain ⟨y, hOperand, h⟩ := bind_eq_ok_iff.mp h
    obtain ⟨z, rfl, hz⟩ := ih (hBounded.mono fun _ hr => .negate hr next) hOperand
    have hDifference := Arithmetic.negate_complex hMode (reportedAt_eq_ok_iff.mp h)
    -- Taken from `0.0`, either zero leaves `0.0`.
    exact ⟨_, hDifference, Complex.im_sub (s := false) rfl hz⟩
  | @binary op a b hOperator _ _ next ihLeft ihRight =>
    have hLeftBounded := hBounded.mono fun _ hr => .left op hr b next
    have hRightBounded := hBounded.mono fun _ hr => .right op a hr next
    obtain ⟨y, hLeft, h⟩ := bind_eq_ok_iff.mp h
    obtain ⟨y', hRight, h⟩ := bind_eq_ok_iff.mp h
    obtain ⟨z, rfl, hz⟩ := ihLeft hLeftBounded hLeft
    obtain ⟨w, rfl, hw⟩ := ihRight hRightBounded hRight
    exact im_of_binary hMode hOperator hLeft hRight hz hw (hLeftBounded.isFinite_re hLeft)
      (hRightBounded.isFinite_re hRight) next (reportedAt_eq_ok_iff.mp h)

/-! ## The root and the logarithm of a plain tree -/

theorem eval_unary (word : String) (f : Unary) {z w : Complex} (hMode : A.mode = .complex)
    (hFunction : Builtin.ofName? word = some (.unary f)) (hArgument : t.eval A = .ok (.complex z))
    (h : Complex.apply f z = .ok w) (start opening next : Nat) :
    (Tree.call word [t] start opening next).eval A = .ok (.complex w) := by
  obtain ⟨mode, epsilon⟩ := A
  obtain rfl : mode = .complex := hMode
  rw [eval_call hFunction rfl, evalAll, hArgument, ok_bind, evalAll, ok_bind, ok_bind,
    reportedAt_eq_ok_iff]
  change Number.complex <$> (Complex.apply f z).mapError _ = _
  rw [h]
  rfl

end Expression.Tree

open Expression

/-! ## A negative quarter -/

/-- One divided by the negation of four, where it is the argument of a root. -/
def negativeQuarter : Tree := .binary .div (.literal ⟨1, 0⟩ 6) (.negate (.literal ⟨4, 0⟩ 9) 9) 9

theorem plain_negativeQuarter : negativeQuarter.Plain :=
  .binary (by decide) (.literal _ _) (.negate (.literal _ _) _) _

theorem eval_negativeQuarter :
    negativeQuarter.eval ⟨.complex, defaultEpsilon⟩ = .ok (.complex ⟨-0.25, -0.0⟩) := by decide +kernel

theorem bounded_negativeQuarter : negativeQuarter.Bounded ⟨.complex, defaultEpsilon⟩ := by
  intro s hWithin y h
  cases hWithin with
  | self => cases eval_negativeQuarter.symm.trans h; rfl
  | left _ hWithin => cases hWithin; cases h; rfl
  | right _ _ hWithin =>
    cases hWithin with
    | self => cases h; rfl
    | negate hWithin => cases hWithin; cases h; rfl

theorem parses_root_negativeQuarter :
    Parses "sqrt(1/-4)".toList (.call "sqrt" [negativeQuarter] 0 4 10) := by
  have hOne : Derives .power ⟨5, "1/-4)".toList⟩ (.literal ⟨1, 0⟩ 6) ⟨6, "/-4)".toList⟩ :=
    derives_power_of_primary (derives_of_scan? (n := ⟨['1'], none, none⟩) rfl)
  have hFour : Derives .primary ⟨8, "4)".toList⟩ (.literal ⟨4, 0⟩ 9) ⟨9, ")".toList⟩ :=
    derives_of_scan? (n := ⟨['4'], none, none⟩) rfl
  have hNegated : Derives .factor ⟨7, "-4)".toList⟩ (.negate _ _) ⟨9, ")".toList⟩ :=
    .factor (.minus ⟨by decide, rfl⟩ (.none _)) (.operand true hFour)
  have hQuotient : Derives .product _ (.binary .div _ _ _) ⟨9, ")".toList⟩ :=
    .product (.single hOne) (by decide) ⟨by decide, rfl⟩ (.base hNegated)
  have hWord : Cursor.Word ⟨0, "sqrt(1/-4)".toList⟩ "sqrt" ⟨4, "(1/-4)".toList⟩ := by
    refine ⟨⟨by decide, rfl⟩, by decide, List.all_eq_true.mp rfl, ?_⟩
    rintro next ⟨⟩
    rfl
  have hClose : Cursor.Token ⟨9, ")".toList⟩ [')'] ⟨10, []⟩ := ⟨by decide, rfl⟩
  have hCall : Derives .primary _ (.call "sqrt" [_] _ _ _) ⟨10, []⟩ :=
    .call hWord ⟨by decide, rfl⟩ (.summand hQuotient) (.none _) hClose
  exact ⟨_, .summand (.single (derives_power_of_primary hCall)), rfl⟩

/-! ## Both sides of the cut -/

theorem evaluate_of_eval [Interpreter] {settings : Settings} {text : String} {t : Tree} {x : Number}
    (hParses : Parses text.toList t) (hNesting : t.nesting ≤ levels settings.maxDepth)
    (hValue : t.eval settings.arithmetic = .ok x) : evaluate settings text = .ok ⟨text, .ok x⟩ :=
  evaluate_value_iff.mpr ((value_of_parses hParses hNesting).trans hValue)

/-- The imaginary part of a plain expression is a zero of known sign. Where that is the plus sign, and
    only there, the root of a negative value points up and its logarithm has the angle `π`. -/
theorem sign_of_imaginary_zero [Interpreter] (settings : Settings) (t : Tree) (x : Number)
    (hMode : settings.mode = .complex) (hPlain : t.Plain) (hBounded : t.Bounded settings.arithmetic)
    (hValue : t.eval settings.arithmetic = .ok x) :
    (∀ text : String, Parses text.toList t → t.nesting ≤ levels settings.maxDepth →
      evaluate settings text = .ok ⟨text, .ok x⟩) ∧
    x.im = (if t.minusIm settings.arithmetic then -0.0 else 0.0) ∧
    (x.re < 0 → ∀ (text : String) (start opening next : Nat), t.nesting < levels settings.maxDepth →
      (Parses text.toList (.call "sqrt" [t] start opening next) →
        ∃ w, evaluate settings text = .ok ⟨text, .ok w⟩ ∧
          (0 < w.im ↔ t.minusIm settings.arithmetic = false)) ∧
      (Parses text.toList (.call "log" [t] start opening next) →
        ∃ w, evaluate settings text = .ok ⟨text, .ok w⟩ ∧
          w.im = if t.minusIm settings.arithmetic then -Binary64.pi else Binary64.pi)) := by
  obtain ⟨z, rfl, hIm⟩ := hPlain.im_eq hMode hBounded hValue
  have hFinite := hBounded.isFinite_re hValue
  refine ⟨fun text hParses hNesting => evaluate_of_eval hParses hNesting hValue, hIm, ?_⟩
  intro hNegative text start opening next hDeeper
  have hNesting (word : String) :
      (Tree.call word [t] start opening next).nesting ≤ levels settings.maxDepth := by
    rw [Tree.nesting] at hDeeper
    rw [Tree.nesting, Tree.depth, Tree.depthAll, Tree.depthAll]
    omega
  constructor
  · intro hParses
    have hRoot := Tree.eval_unary "sqrt" .sqrt hMode rfl hValue rfl start opening next
    exact ⟨.complex z.sqrt, evaluate_of_eval hParses (hNesting "sqrt") hRoot,
      Complex.sqrt_im_pos_iff hFinite hNegative hIm⟩
  · intro hParses
    obtain ⟨w, hLog, hAngle⟩ := Complex.log_of_negative hFinite hNegative hIm
    have hCall := Tree.eval_unary "log" .log hMode rfl hValue hLog start opening next
    exact ⟨.complex w, evaluate_of_eval hParses (hNesting "log") hCall, hAngle⟩

theorem sign_of_imaginary_zero_negative_quarter :
    negativeQuarter.Plain ∧ negativeQuarter.Bounded ⟨.complex, defaultEpsilon⟩ ∧
      negativeQuarter.eval ⟨.complex, defaultEpsilon⟩ = .ok (.complex ⟨-0.25, -0.0⟩) ∧
      Number.re (.complex ⟨-0.25, -0.0⟩) < 0 ∧ negativeQuarter.nesting < levels 100 ∧
      Parses "sqrt(1/-4)".toList (.call "sqrt" [negativeQuarter] 0 4 10) ∧
        negativeQuarter.minusIm ⟨.complex, defaultEpsilon⟩ = true ∧
          Number.im (.complex ⟨-0.25, -0.0⟩) = -0.0 ∧
            ∃ w, evaluate {} "sqrt(1/-4)" = .ok ⟨"sqrt(1/-4)", .ok w⟩ ∧ ¬ 0 < w.im := by
  have hSign : negativeQuarter.minusIm ⟨.complex, defaultEpsilon⟩ = true := by decide +kernel
  have hNegative : Number.re (.complex ⟨-0.25, -0.0⟩) < 0 := by decide +kernel
  have hNesting : negativeQuarter.nesting < levels 100 := by decide
  obtain ⟨-, hIm, hSide⟩ := sign_of_imaginary_zero {} negativeQuarter _ rfl plain_negativeQuarter
    bounded_negativeQuarter eval_negativeQuarter
  obtain ⟨w, hRoot, hUp⟩ := (hSide hNegative "sqrt(1/-4)" 0 4 10 hNesting).1 parses_root_negativeQuarter
  rw [show Settings.arithmetic {} = ⟨.complex, defaultEpsilon⟩ from rfl, hSign] at hUp hIm
  refine ⟨plain_negativeQuarter, bounded_negativeQuarter, eval_negativeQuarter, hNegative, hNesting,
    parses_root_negativeQuarter, hSign, hIm, w, hRoot, ?_⟩
  intro hPositive
  cases hUp.mp hPositive

/-- The imaginary part of a quotient by a negative number is a negative zero, and its root points down. -/
theorem evaluate_negative_quarter :
    evaluate {} "1/-4" = .ok ⟨"1/-4", .ok (.complex ⟨-0.25, -0.0⟩)⟩ ∧ (-0.0 : Float) ≠ 0.0 ∧
      evaluate {} "sqrt(1/-4)" = .ok ⟨"sqrt(1/-4)", .ok (.complex ⟨0.0, -0.5⟩)⟩ := by
  decide +kernel

end Reckon
