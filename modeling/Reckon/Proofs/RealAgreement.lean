import Reckon.Proofs.Complex.RealAxis
import Reckon.Proofs.ImaginaryZero
import Reckon.Proofs.SyntaxFaults

/-! # Real expressions in complex arithmetic

Numerals, the real constants and all operators but the power have the same values in both modes, as long as
nothing on the way is infinite and no divisor counts as zero.
-/
namespace Reckon
set_option autoImplicit false
open Binary64 (Ordinary)
open Reckon.Complex (OnAxis)

/-! ## Operations -/

namespace Arithmetic

variable {epsilon x y : Float} {z w : Complex}

/-- If the real result is finite the complex one is the same number. -/
def CarriesOver (inReal inComplex : Except Failure Number) : Prop :=
  ∀ a, inReal = .ok a → a.re.isFinite = true →
    ∃ r v, a = .real r ∧ inComplex = .ok (.complex v) ∧ OnAxis r v

theorem carriesOver_ok (h : x.isFinite = true → OnAxis x z) :
    CarriesOver (.ok (.real x)) (.ok (.complex z)) := by
  rintro a ⟨⟩ hFinite
  exact ⟨x, z, rfl, rfl, h hFinite⟩

theorem carriesOver_negate (hz : OnAxis x z) (hx : x.isFinite = true) :
    CarriesOver (negate ⟨.real, epsilon⟩ (.real x)) (negate ⟨.complex, epsilon⟩ (.complex z)) :=
  carriesOver_ok fun _ => hz.zero_sub hx

theorem carriesOver_percent (hz : OnAxis x z) (hx : x.isFinite = true) :
    CarriesOver (percent ⟨.real, epsilon⟩ (.real x)) (percent ⟨.complex, epsilon⟩ (.complex z)) := by
  exact carriesOver_ok fun _ => hz.div (Complex.onAxis_ofReal 100) hx Binary64.ordinary_hundred

/-- Whether a number has a factorial does not depend on the sign of a zero. -/
theorem hasFactorial_eq (hz : OnAxis x z) (hEpsilon : 0 ≤ epsilon) :
    hasFactorial ⟨.complex, epsilon⟩ (.complex z) = hasFactorial ⟨.real, epsilon⟩ (.real x) := by
  obtain ⟨s, hIm⟩ := hz.im
  have hNear : z.im.abs ≤ epsilon := by
    rw [hIm, Binary64.abs_zero]
    exact hEpsilon
  change (decide (z.im.abs ≤ epsilon) && !decide (z.re < 0)) = !decide (x < 0)
  rw [decide_eq_true hNear, Bool.true_and, decide_eq_decide.mpr hz.re.lt_zero_iff]

theorem carriesOver_factorial (hz : OnAxis x z) (hEpsilon : 0 ≤ epsilon) (negated : Bool) :
    CarriesOver (factorial ⟨.real, epsilon⟩ (.real x) negated)
      (factorial ⟨.complex, epsilon⟩ (.complex z) negated) := by
  have hHere := hasFactorial_eq hz hEpsilon
  have hWritten : hasFactorial ⟨.complex, epsilon⟩ (-.complex z) =
      hasFactorial ⟨.real, epsilon⟩ (-.real x) := hasFactorial_eq hz.neg hEpsilon
  have hArgument : (Number.complex z).re + 1.0 = (Number.real x).re + 1.0 := hz.re.add_one_eq.symm
  unfold factorial
  rw [hHere, hWritten, hArgument]
  split
  · rintro a ⟨⟩
  · cases Real.gamma ((Number.real x).re + 1.0) with
    | error m => rintro a ⟨⟩
    | ok g => exact carriesOver_ok fun _ => Complex.onAxis_ofReal g

theorem isZero_real (epsilon y : Float) : isZero ⟨.real, epsilon⟩ (.real y) = .ok (y == 0) := rfl

/-- A divisor that lies farther from zero than `epsilon` does not count as zero. -/
theorem isZero_complex (hw : OnAxis y w) (hy : Ordinary y) (hFar : epsilon < y.abs) :
    isZero ⟨.complex, epsilon⟩ (.complex w) = .ok false := by
  have hw' : Ordinary w.re := hw.re.eq hy ▸ hy
  have hModulus : (Number.complex w).magnitude? = some y.abs := hw.modulus hy
  have hZero : (Number.complex w).isZero = false := Complex.isZero_of_ordinary hw'
  simp only [isZero, magnitude, hZero, hModulus, Bool.false_eq_true, if_false]
  exact congrArg Except.ok (decide_eq_false (Binary64.not_lt_of_lt hFar))

theorem carriesOver_div (hz : OnAxis x z) (hw : OnAxis y w) (hx : x.isFinite = true)
    (hy : y.isFinite = true) (hFar : epsilon < y.abs) :
    CarriesOver (div ⟨.real, epsilon⟩ (.real x) (.real y))
      (div ⟨.complex, epsilon⟩ (.complex z) (.complex w)) := by
  cases hZero : (y == 0) with
  | true =>
    intro a hResult
    rw [div, isZero_real, hZero] at hResult
    cases hResult
  | false =>
    have hOrdinary := Binary64.ordinary_of_finite hy hZero
    rw [div, div, isZero_real, hZero, isZero_complex hw hOrdinary hFar]
    exact carriesOver_ok fun _ => hz.div hw hx hOrdinary

theorem carriesOver_floorDiv (hz : OnAxis x z) (hw : OnAxis y w) (hy : y.isFinite = true)
    (hFar : epsilon < y.abs) : CarriesOver (floorDiv ⟨.real, epsilon⟩ (.real x) (.real y))
      (floorDiv ⟨.complex, epsilon⟩ (.complex z) (.complex w)) := by
  cases hZero : (y == 0) with
  | true =>
    intro a hResult
    rw [floorDiv, isZero_real, hZero] at hResult
    cases hResult
  | false =>
    have hOrdinary := Binary64.ordinary_of_finite hy hZero
    have hSame := hw.re.eq hOrdinary
    have hQuotient : Binary64.truncate (x / y) = Binary64.truncate (z.re / w.re) := by
      rw [← hSame]
      exact (hz.re.div hOrdinary).truncate_eq
    have hNear : ¬ (Number.complex w).re.abs ≤ epsilon := by
      change ¬ w.re.abs ≤ epsilon
      rw [← hSame]
      exact Binary64.not_le_of_lt hFar
    have hNonzero : ((Number.complex w).re == 0) = false := by
      change (w.re == 0) = false
      rw [← hSame]
      exact hZero
    rw [floorDiv, floorDiv, isZero_real, hZero, isZero_complex hw hOrdinary hFar]
    simp only [ok_bind, Bool.false_eq_true, if_false, hNear, hNonzero]
    change CarriesOver (.ok (.real (Binary64.truncate (x / y))))
      (.ok (.complex (.ofReal (Binary64.truncate (z.re / w.re)))))
    rw [hQuotient]
    exact carriesOver_ok fun _ => Complex.onAxis_ofReal _

end Arithmetic

namespace Expression
open Arithmetic (CarriesOver)

theorem Operator.carriesOver_apply {op : Operator} {epsilon x y : Float} {z w : Complex}
    (hOperator : op ≠ .pow) (hz : OnAxis x z) (hw : OnAxis y w) (hx : x.isFinite = true) (hy : y.isFinite = true)
    (hFar : op = .div ∨ op = .floorDiv → epsilon < y.abs) :
    CarriesOver (op.apply ⟨.real, epsilon⟩ (.real x) (.real y))
      (op.apply ⟨.complex, epsilon⟩ (.complex z) (.complex w)) := by
  cases op with
  | pow => exact absurd rfl hOperator
  | add => exact Arithmetic.carriesOver_ok fun _ => hz.add hw hx hy
  | sub => exact Arithmetic.carriesOver_ok fun _ => hz.sub hw hx hy
  | mul => exact Arithmetic.carriesOver_ok fun hProduct => hz.mul hw hx hy hProduct
  | div => exact Arithmetic.carriesOver_div hz hw hx hy (hFar (.inl rfl))
  | floorDiv => exact Arithmetic.carriesOver_floorDiv hz hw hy (hFar (.inr rfl))

/-! ## Trees -/

namespace Tree

/-- Numerals, the real constants, brackets, and all operators but the power. -/
inductive Shared : Tree → Prop
  | literal (d : Decimal) (next : Nat) : Shared (.literal d next)
  | name {word : String} (h : word = "pi" ∨ word = "e") (start next : Nat) :
      Shared (.name word start next)
  | group {t : Tree} (b : Bracket) (h : Shared t) : Shared (.group b t)
  | factorial {t : Tree} (h : Shared t) (negated : Bool) (next : Nat) : Shared (.factorial negated t next)
  | percent {t : Tree} (h : Shared t) (next : Nat) : Shared (.percent t next)
  | negate {t : Tree} (h : Shared t) (next : Nat) : Shared (.negate t next)
  | binary {op : Operator} {a b : Tree} (hOperator : op ≠ .pow) (hLeft : Shared a) (hRight : Shared b)
      (next : Nat) : Shared (.binary op a b next)

/-- All divisors in the tree lie farther from zero than `epsilon`. -/
def DividesBeyond (A : Arithmetic) (epsilon : Float) (t : Tree) : Prop :=
  ∀ op a b next, Within (.binary op a b next) t → op = .div ∨ op = .floorDiv →
    ∀ y, b.eval A = .ok y → epsilon < y.re.abs

variable {A : Arithmetic} {epsilon : Float} {t s : Tree} {x : Number}

theorem DividesBeyond.mono (h : t.DividesBeyond A epsilon) (hWithin : ∀ r, Within r s → Within r t) :
    s.DividesBeyond A epsilon :=
  fun op a b next hDivision => h op a b next (hWithin _ hDivision)

theorem reportedAt_of_carriesOver {inReal inComplex : Except Failure Number} {next : Nat}
    (h : CarriesOver inReal inComplex) (hResult : reportedAt next inReal = .ok x)
    (hFinite : x.re.isFinite = true) :
    ∃ r z, x = .real r ∧ reportedAt next inComplex = .ok (.complex z) ∧ OnAxis r z := by
  obtain ⟨r, z, hReal, hComplex, hAxis⟩ := h x (reportedAt_eq_ok_iff.mp hResult) hFinite
  exact ⟨r, z, hReal, reportedAt_eq_ok_iff.mpr hComplex, hAxis⟩

/-- A value that the tree has in real arithmetic is finite, and it has the same one in complex arithmetic. -/
def Persists (epsilon : Float) (t : Tree) : Prop :=
  ∀ y, t.eval ⟨.real, epsilon⟩ = .ok y → y.re.isFinite = true ∧
    ∃ r z, y = .real r ∧ t.eval ⟨.complex, epsilon⟩ = .ok (.complex z) ∧ OnAxis r z

theorem eval_complex_of_operand {inReal inComplex : Number → Except Failure Number} {next : Nat}
    (hOperand : t.Persists epsilon) (hCarries : ∀ {r z}, OnAxis r z → r.isFinite = true →
      CarriesOver (inReal (.real r)) (inComplex (.complex z))) (hFinite : x.re.isFinite = true)
    (h : (t.eval ⟨.real, epsilon⟩ >>= fun y => reportedAt next (inReal y)) = .ok x) :
    ∃ r z, x = .real r ∧ (t.eval ⟨.complex, epsilon⟩ >>= fun y => reportedAt next (inComplex y)) =
      .ok (.complex z) ∧ OnAxis r z := by
  obtain ⟨y, hValue, hResult⟩ := bind_eq_ok_iff.mp h
  obtain ⟨hOperandFinite, r, z, rfl, hComplex, hAxis⟩ := hOperand y hValue
  rw [hComplex, ok_bind]
  exact reportedAt_of_carriesOver (hCarries hAxis hOperandFinite) hResult hFinite

theorem persists_of_bounded (hBounded : t.Bounded ⟨.real, epsilon⟩)
    (h : ∀ y, t.eval ⟨.real, epsilon⟩ = .ok y → y.re.isFinite = true →
      ∃ r z, y = .real r ∧ t.eval ⟨.complex, epsilon⟩ = .ok (.complex z) ∧ OnAxis r z) :
    t.Persists epsilon :=
  fun y hValue => ⟨hBounded t .self y hValue, h y hValue (hBounded t .self y hValue)⟩

theorem Shared.persists (hShared : t.Shared) (hEpsilon : 0 ≤ epsilon)
    (hBounded : t.Bounded ⟨.real, epsilon⟩) (hDivides : t.DividesBeyond ⟨.real, epsilon⟩ epsilon) :
    t.Persists epsilon := by
  induction hShared with
  | literal d next =>
    have hLiteral := Arithmetic.carriesOver_ok fun _ => Complex.onAxis_ofReal d.toFloat
    exact persists_of_bounded hBounded fun x h hFinite => reportedAt_of_carriesOver hLiteral h hFinite
  | name hWord start next =>
    refine persists_of_bounded hBounded fun x h _ => ?_
    rcases hWord with rfl | rfl
    · exact ⟨_, _, (Except.ok.inj h).symm, rfl, Complex.onAxis_ofReal _⟩
    · exact ⟨_, _, (Except.ok.inj h).symm, rfl, Complex.onAxis_ofReal _⟩
  | group b _ ih => exact ih (hBounded.mono fun _ => .group b) (hDivides.mono fun _ => .group b)
  | factorial _ negated next ih =>
    have hOperand := ih (hBounded.mono fun _ hr => .factorial hr negated next)
      (hDivides.mono fun _ hr => .factorial hr negated next)
    exact persists_of_bounded hBounded fun x h hFinite => eval_complex_of_operand hOperand
      (fun hAxis _ => Arithmetic.carriesOver_factorial hAxis hEpsilon negated) hFinite h
  | percent _ next ih =>
    have hOperand := ih (hBounded.mono fun _ hr => .percent hr next)
      (hDivides.mono fun _ hr => .percent hr next)
    exact persists_of_bounded hBounded fun x h hFinite =>
      eval_complex_of_operand hOperand Arithmetic.carriesOver_percent hFinite h
  | negate _ next ih =>
    have hOperand := ih (hBounded.mono fun _ hr => .negate hr next)
      (hDivides.mono fun _ hr => .negate hr next)
    exact persists_of_bounded hBounded fun x h hFinite =>
      eval_complex_of_operand hOperand Arithmetic.carriesOver_negate hFinite h
  | @binary op a b hOperator _ _ next ihLeft ihRight =>
    have hLeft := ihLeft (hBounded.mono fun _ hr => .left op hr b next)
      (hDivides.mono fun _ hr => .left op hr b next)
    have hRight := ihRight (hBounded.mono fun _ hr => .right op a hr next)
      (hDivides.mono fun _ hr => .right op a hr next)
    refine persists_of_bounded hBounded fun x h hFinite => ?_
    obtain ⟨y, hLeftValue, h⟩ := bind_eq_ok_iff.mp h
    obtain ⟨y', hRightValue, hResult⟩ := bind_eq_ok_iff.mp h
    have hFar (hDivision : op = .div ∨ op = .floorDiv) :=
      hDivides op a b next .self hDivision y' hRightValue
    obtain ⟨hLeftFinite, r, z, rfl, hLeftComplex, hz⟩ := hLeft y hLeftValue
    obtain ⟨hRightFinite, r', w, rfl, hRightComplex, hw⟩ := hRight y' hRightValue
    rw [eval, hLeftComplex, ok_bind, hRightComplex, ok_bind]
    exact reportedAt_of_carriesOver
      (Operator.carriesOver_apply hOperator hz hw hLeftFinite hRightFinite hFar) hResult hFinite

end Tree

/-! ## Texts -/

/-- Whether a text can be read does not depend on the arithmetic. -/
theorem value_of_parses_of_value [Interpreter] {A : Arithmetic} {limit : Int} {text : List Char} {t : Tree}
    {x : Number}
    (hParses : Parses text t) (h : value A limit text = .ok x) (A' : Arithmetic) :
    value A' limit text = t.eval A' := by
  rw [value_eq_execute, map_eq_ok_iff] at h
  obtain ⟨⟨u, stack⟩, hExecute, -⟩ := h
  have hRead := (execute_eq_ok_iff.mp hExecute).2
  rcases value_of_parses_or A' limit hParses with hTree | ⟨p, hDeep⟩
  · exact hTree
  · rw [value_eq_execute, map_eq_error_iff] at hDeep
    have hOperates := (operates_of_execute hRead hDeep).kind
    rw [kind_tooDeep] at hOperates
    cases hOperates

end Expression

open Expression

/-! ## The factorial of three over minus four -/

def factorialQuotient : Tree :=
  .binary .div (.factorial false (.literal ⟨3, 0⟩ 1) 2) (.negate (.literal ⟨4, 0⟩ 5) 5) 5

theorem parses_factorialQuotient : Parses "3!/-4".toList factorialQuotient := by
  have hThree : Derives .primary ⟨0, "3!/-4".toList⟩ (.literal ⟨3, 0⟩ 1) ⟨1, "!/-4".toList⟩ :=
    derives_of_scan? (n := ⟨['3'], none, none⟩) rfl
  have hSign : Cursor.Token ⟨1, "!/-4".toList⟩ ['!'] ⟨2, "/-4".toList⟩ := ⟨by decide, rfl⟩
  have hFactorial : Derives (.suffixed false) _ (.factorial false _ 2) _ :=
    .factorial (.operand false hThree) hSign
  have hFour : Derives .primary ⟨4, "4".toList⟩ (.literal ⟨4, 0⟩ 5) ⟨5, []⟩ :=
    derives_of_scan? (n := ⟨['4'], none, none⟩) rfl
  have hLeft : Derives .power _ (.factorial false _ 2) _ := .base (.factor (.none _) hFactorial)
  have hRight : Derives .power ⟨3, "-4".toList⟩ (.negate _ 5) _ :=
    .base (.factor (.minus ⟨by decide, rfl⟩ (.none _)) (.operand true hFour))
  exact ⟨_, .summand (.product (.single hLeft) (by decide) ⟨by decide, rfl⟩ hRight), rfl⟩

theorem shared_factorialQuotient : factorialQuotient.Shared :=
  .binary (by decide) (.factorial (.literal _ _) _ _) (.negate (.literal _ _) _) _

theorem bounded_factorialQuotient : factorialQuotient.Bounded ⟨.real, defaultEpsilon⟩ := by
  intro s hWithin y h
  have hQuotient : factorialQuotient.eval ⟨.real, defaultEpsilon⟩ = .ok (.real (-1.5)) := by
    decide +kernel
  have hFactorial : (Tree.factorial false (.literal ⟨3, 0⟩ 1) 2).eval ⟨.real, defaultEpsilon⟩ =
      .ok (.real 6) := by decide +kernel
  cases hWithin with
  | self => cases hQuotient.symm.trans h; rfl
  | left _ hWithin =>
    cases hWithin with
    | self => cases hFactorial.symm.trans h; rfl
    | factorial hWithin => cases hWithin; cases h; rfl
  | right _ _ hWithin =>
    cases hWithin with
    | self => cases h; rfl
    | negate hWithin => cases hWithin; cases h; rfl

theorem dividesBeyond_factorialQuotient :
    factorialQuotient.DividesBeyond ⟨.real, defaultEpsilon⟩ defaultEpsilon := by
  intro op a b next hWithin hDivision y h
  cases hWithin with
  | self => cases h; decide +kernel
  | left _ hWithin => cases hWithin with | factorial hWithin => cases hWithin
  | right _ _ hWithin => cases hWithin with | negate hWithin => cases hWithin

/-! ## Both modes -/

/-- The value of a real expression in real mode is its value in complex mode, up to the signs of zeros. -/
theorem evaluate_complex_of_real [Interpreter] (settings : Settings) (text : String) (t : Tree) (x : Number)
    (hEpsilon : 0 ≤ settings.epsilon) (hParses : Parses text.toList t) (hShared : t.Shared)
    (hBounded : t.Bounded ⟨.real, settings.epsilon⟩)
    (hDivides : t.DividesBeyond ⟨.real, settings.epsilon⟩ settings.epsilon)
    (h : evaluate { settings with mode := .real } text = .ok ⟨text, .ok x⟩) :
    ∃ r z, x = .real r ∧
      evaluate { settings with mode := .complex } text = .ok ⟨text, .ok (.complex z)⟩ ∧
      (z.re == r) = true ∧ (z.im == 0) = true := by
  have hValue := evaluate_value_iff.mp h
  have hReal := value_of_parses_of_value hParses hValue ⟨.real, settings.epsilon⟩
  have hComplex := value_of_parses_of_value hParses hValue ⟨.complex, settings.epsilon⟩
  obtain ⟨hFinite, r, z, rfl, hEval, hAxis⟩ :=
    hShared.persists hEpsilon hBounded hDivides x (hReal.symm.trans hValue)
  exact ⟨r, z, rfl, evaluate_value_iff.mpr (hComplex.trans hEval), hAxis.beq hFinite⟩

theorem evaluate_complex_of_real_quotient :
    (0 : Float) ≤ defaultEpsilon ∧ Parses "3!/-4".toList factorialQuotient ∧ factorialQuotient.Shared ∧
      factorialQuotient.Bounded ⟨.real, defaultEpsilon⟩ ∧
      factorialQuotient.DividesBeyond ⟨.real, defaultEpsilon⟩ defaultEpsilon ∧
      evaluate { mode := .real } "3!/-4" = .ok ⟨"3!/-4", .ok (.real (-1.5))⟩ ∧
      ∃ z, evaluate { mode := .complex } "3!/-4" = .ok ⟨"3!/-4", .ok (.complex z)⟩ ∧
        (z.re == -1.5) = true ∧ (z.im == 0) = true := by
  have hEpsilon : (0 : Float) ≤ defaultEpsilon := by decide +kernel
  have hReal : evaluate { mode := .real } "3!/-4" = .ok ⟨"3!/-4", .ok (.real (-1.5))⟩ := by decide +kernel
  obtain ⟨r, z, hValue, hComplex, hRe, hIm⟩ := evaluate_complex_of_real {} "3!/-4" factorialQuotient _
    hEpsilon parses_factorialQuotient shared_factorialQuotient bounded_factorialQuotient
    dividesBeyond_factorialQuotient hReal
  obtain rfl := Number.real.inj hValue
  exact ⟨hEpsilon, parses_factorialQuotient, shared_factorialQuotient, bounded_factorialQuotient,
    dividesBeyond_factorialQuotient, hReal, z, hComplex, hRe, hIm⟩

end Reckon
