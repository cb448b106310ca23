import Reckon.Proofs.Causes
import Reckon.Proofs.Mishaps
import Reckon.Proofs.Totality
import Reckon.Proofs.Binary64.Whole
import Reckon.Proofs.Complex.ImaginarySign

/-! # The kinds of faults an operation can end in

On operands of the mode's own type each operation fails with few kinds of faults. The tests in front of a
division and of the gamma function keep them from every argument they have no value for.
-/
namespace Reckon
set_option autoImplicit false

def Number.mode : Number → Mode
  | real _ => .real
  | complex _ => .complex

/-- The kinds of faults that a power can end in. A real power may be no real number. -/
def Mode.powerKinds : Mode → List FaultKind
  | .real => [.divisionByZero, .overflow, .domainError]
  | .complex => [.divisionByZero, .overflow]

/-! ## Failing with a kind of fault -/

section Kinds

variable {α β : Type} {kinds : List FaultKind}

def FailsAs (kind : FaultKind) (result : Except Failure α) : Prop :=
  ∃ cause, result = .error (.cause cause) ∧ cause.kind = kind

/-- Whatever failure the operation ends in is a fault of one of the kinds. -/
def FailsWith (kinds : List FaultKind) (result : Except Failure α) : Prop :=
  ∀ failure, result = .error failure → ∃ cause, failure = .cause cause ∧ cause.kind ∈ kinds

theorem failsWith_ok (a : α) : FailsWith kinds (.ok a) := by
  intro failure h
  cases h

theorem failsWith_cause {cause : Cause} (h : cause.kind ∈ kinds) :
    FailsWith kinds (.error (.cause cause) : Except Failure α) := by
  rintro failure ⟨⟩
  exact ⟨cause, rfl, h⟩

theorem FailsWith.mono {more : List FaultKind} {result : Except Failure α} (h : FailsWith kinds result)
    (hMore : kinds ⊆ more) : FailsWith more result := by
  intro failure hFails
  obtain ⟨cause, hCause, hKind⟩ := h failure hFails
  exact ⟨cause, hCause, hMore hKind⟩

theorem FailsWith.bind {result : Except Failure α} {f : α → Except Failure β} (h : FailsWith kinds result)
    (hNext : ∀ a, result = .ok a → FailsWith kinds (f a)) : FailsWith kinds (result >>= f) := by
  intro failure hBind
  rcases bind_eq_error_iff.mp hBind with hError | ⟨a, hResult, hError⟩
  · exact h failure hError
  · exact hNext a hResult failure hError

theorem FailsWith.map {result : Except Failure α} (h : FailsWith kinds result) (f : α → β) :
    FailsWith kinds (f <$> result) := fun failure hMap => h failure (map_eq_error_iff.mp hMap)

end Kinds

/-! ## Operands of one type -/

namespace Number

variable {a b : Number} {f : Float → Float → Float} {g : Complex → Complex → Complex}

theorem mode_lift (h : a.mode = b.mode) : (lift f g a b).mode = a.mode := by
  cases a <;> cases b <;> first | rfl | cases h

theorem mode_lift_real (x : Float) : (lift f g a (real x)).mode = a.mode := by
  cases a <;> rfl

theorem mode_real_lift (x : Float) : (lift f g (real x) b).mode = b.mode := by
  cases b <;> rfl

theorem mode_neg : (-a).mode = a.mode := by
  cases a <;> rfl

theorem re_neg : (-a).re = -a.re := by
  cases a <;> rfl

theorem abs_im_neg : (-a).im.abs = a.im.abs := by
  cases a with
  | real x => rfl
  | complex z => exact Binary64.abs_neg z.im

/-- A division that has no value where the divisor is zero. -/
def quotient (a b : Number) : Except Mishap Number :=
  if b.isZero then .error .zeroDivision else .ok (a.div b)

end Number

namespace Arithmetic

variable {A : Arithmetic} {a b : Number} {kinds : List FaultKind}

theorem coerce_of_mode (h : a.mode = A.mode) : A.coerce a = .ok a := by
  unfold coerce
  rw [← h]
  cases a <;> rfl

theorem exists_coerce (h : a.mode = A.mode) : ∃ c, A.coerce a = .ok c := ⟨a, coerce_of_mode h⟩

theorem exists_negate (h : a.mode = A.mode) : ∃ c, A.negate a = .ok c := by
  unfold negate
  split
  · exact exists_coerce (Number.mode_neg.trans h)
  · exact exists_coerce ((Number.mode_real_lift 0).trans h)

theorem failsWith_during {α : Type} {what : Calculation} {result : Except Mishap α}
    (h : ∀ m, result = .error m → (Cause.mishap what m).kind ∈ kinds) :
    FailsWith kinds (during what result) := by
  cases result with
  | ok a => exact failsWith_ok a
  | error m => exact failsWith_cause (h m rfl)

/-! ## Division -/

theorem isZero_number (h : A.isZero b = .ok false) : b.isZero = false := by
  cases hMode : A.mode with
  | complex => exact isZero_of_isZero hMode h
  | real =>
    rw [isZero, hMode] at h
    exact Except.ok.inj h

theorem failsWith_isZero (h : ¬ A.Immeasurable b) : FailsWith kinds (A.isZero b) := by
  intro failure hFails
  cases failure with
  | cause cause => exact absurd hFails isZero_ne_cause
  | modulusOverflow => exact absurd (A.isZero_eq_overflow_iff.mp hFails) h

theorem failsWith_div (hMode : (a.div b).mode = A.mode) (h : ¬ A.Immeasurable b) :
    FailsWith [.divisionByZero] (A.div a b) := by
  refine (failsWith_isZero h).bind fun zero _ => ?_
  cases zero with
  | true => exact failsWith_cause (List.mem_singleton.mpr rfl)
  | false =>
    change FailsWith _ (A.coerce (a.div b))
    rw [coerce_of_mode hMode]
    exact failsWith_ok _

/-- A divisor beyond `epsilon` on the real axis has a real part. -/
theorem re_ne_zero (hEpsilon : 0 ≤ A.epsilon) (h : ¬ b.re.abs ≤ A.epsilon) : (b.re == 0) = false := by
  cases hZero : b.re == 0 with
  | false => rfl
  | true =>
    rw [Binary64.eq_zero_of_beq_zero hZero, Binary64.abs_zero] at h
    exact absurd hEpsilon h

theorem failsWith_floorDiv (hEpsilon : 0 ≤ A.epsilon) (hMode : (a.div b).mode = A.mode)
    (h : ¬ A.Immeasurable b) : FailsWith [.integerDivisionByZero] (A.floorDiv a b) := by
  refine (failsWith_isZero h).bind fun zero _ => ?_
  cases zero with
  | true => exact failsWith_cause (List.mem_singleton.mpr rfl)
  | false =>
    simp only [Bool.false_eq_true, if_false]
    split
    · exact failsWith_ok _
    · rename_i hReal hQuotient
      rw [hReal, hQuotient] at hMode
      cases hMode
    · split
      · exact failsWith_cause (List.mem_singleton.mpr rfl)
      · rename_i hBeyond
        rw [re_ne_zero hEpsilon hBeyond]
        exact failsWith_ok _

/-- The truncated quotient, with every way to fail that a quotient by zero and truncation have. -/
def truncateQuotient (q : Except Mishap Number) : Except Failure Float :=
  during .integerDivision (q >>= fun c => Binary64.truncateStepwise c.re)

/-- Integer division as it is carried out, step by step. -/
def floorDivStepwise (A : Arithmetic) (a b : Number) : Except Failure Number := do
  if ← A.isZero b then throw (.cause .integerDivisionByZero)
  match A.mode with
  | .real => A.coerce (.real (← truncateQuotient (a.quotient b)))
  | .complex =>
    if b.re.abs ≤ A.epsilon then throw (.cause .noRealPart)
    A.coerce (.complex (.ofReal (← truncateQuotient ((Number.real a.re).quotient (.real b.re)))))

theorem truncateQuotient_eq (h : b.isZero = false) :
    truncateQuotient (a.quotient b) = .ok (Binary64.truncate (a.div b).re) := by
  have hQuotient : a.quotient b = .ok (a.div b) := by rw [Number.quotient, h]; rfl
  rw [hQuotient, truncateQuotient, ok_bind, Binary64.truncateStepwise_eq]
  rfl

theorem floorDivStepwise_eq (hEpsilon : 0 ≤ A.epsilon) (hMode : (a.div b).mode = A.mode) :
    A.floorDivStepwise a b = A.floorDiv a b := by
  unfold floorDivStepwise floorDiv
  cases hZero : A.isZero b with
  | error failure => rfl
  | ok zero =>
    cases zero with
    | true => rfl
    | false =>
      rw [ok_bind, ok_bind, if_neg Bool.false_ne_true, if_neg Bool.false_ne_true]
      cases hA : A.mode with
      | real =>
        rw [truncateQuotient_eq (isZero_number hZero)]
        cases hQuotient : a.div b with
        | complex z =>
          rw [hA, hQuotient] at hMode
          cases hMode
        | real q => exact coerce_of_mode hA.symm
      | complex =>
        dsimp only
        split
        · rfl
        · rename_i hBeyond
          have hDivisor : (Number.real b.re).isZero = false := re_ne_zero hEpsilon hBeyond
          rw [truncateQuotient_eq hDivisor, re_ne_zero hEpsilon hBeyond]
          exact coerce_of_mode hA.symm

/-! ## Powers and roots -/

theorem failsWith_pow : FailsWith A.mode.powerKinds (A.pow a b) := by
  have hPower : FailsWith A.mode.powerKinds (during .power (a.pow b)) := by
    apply failsWith_during
    intro m hMishap
    rcases Number.mishap_of_pow hMishap with rfl | rfl <;> cases A.mode <;> decide
  refine hPower.bind fun c _ => ?_
  unfold coerce
  split
  · exact failsWith_ok _
  · rename_i hReal _
    rw [hReal]
    exact failsWith_cause (by decide)
  · exact failsWith_ok _

theorem failsWith_root {n : Number} (hMode : n.mode = A.mode) (h : ¬ A.Immeasurable n) :
    FailsWith A.mode.powerKinds (A.root a n) := by
  have hExponent := failsWith_div ((Number.mode_real_lift 1).trans hMode) h
  refine (hExponent.mono ?_).bind fun _ _ => failsWith_pow
  cases A.mode <;> decide

/-! ## Factorials -/

variable {negated : Bool}

theorem hasFactorial_iff (hEpsilon : 0 ≤ A.epsilon) (h : a.mode = A.mode) :
    A.hasFactorial a = true ↔ a.im.abs ≤ A.epsilon ∧ ¬ a.re < 0 := by
  unfold hasFactorial
  rw [← h]
  cases a with
  | real x =>
    have hIm : (Number.real x).im.abs = 0 := Binary64.abs_zero false
    simp [hIm, hEpsilon, Number.mode, Number.re, Number.toComplex, Complex.ofReal]
  | complex z => simp [Number.mode]

theorem not_hasFactorial_iff (hEpsilon : 0 ≤ A.epsilon) (h : a.mode = A.mode) :
    A.hasFactorial a = false ↔ A.epsilon < a.im.abs ∨ a.im.abs.isNaN = true ∨ a.re < 0 := by
  have hNumber : ¬ A.epsilon.isNaN = true := by
    rw [(Binary64.isNaN_eq_false_of_le hEpsilon).2]
    exact Bool.false_ne_true
  rw [← Bool.not_eq_true, hasFactorial_iff hEpsilon h, Decidable.not_and_iff_not_or_not, Decidable.not_not,
    Binary64.not_le_iff, or_iff_left hNumber, or_assoc]

/-- The test in front of the gamma function. -/
def refusesFactorial (A : Arithmetic) (a : Number) (negated : Bool) : Bool :=
  !A.hasFactorial a || (negated && !A.hasFactorial (-a))

theorem refusesFactorial_iff (hEpsilon : 0 ≤ A.epsilon) (h : a.mode = A.mode) :
    A.refusesFactorial a negated = true ↔
      A.epsilon < a.im.abs ∨ a.im.isNaN = true ∨ a.re < 0 ∨ negated = true ∧ 0 < a.re := by
  rw [refusesFactorial, Bool.or_eq_true, Bool.and_eq_true, Bool.not_eq_true', Bool.not_eq_true',
    not_hasFactorial_iff hEpsilon h, not_hasFactorial_iff hEpsilon (Number.mode_neg.trans h),
    Number.abs_im_neg, Number.re_neg, Binary64.neg_lt_zero_iff, Binary64.isNaN_abs]
  tauto

theorem factorial_of_refused (h : A.refusesFactorial a negated = true) :
    A.factorial a negated = .error (.cause .invalidFactorial) := if_pos h

theorem factorial_of_accepted (h : A.refusesFactorial a negated = false) :
    A.factorial a negated = during .factorial (Real.gamma (a.re + 1.0)) >>= fun r => A.coerce (.real r) := by
  rw [refusesFactorial] at h
  rw [factorial, h]
  rfl

/-- What is accepted lies to the right of the poles of the gamma function. -/
theorem not_pole (hEpsilon : 0 ≤ A.epsilon) (h : a.mode = A.mode)
    (hAccepted : A.refusesFactorial a negated = false) : ¬ a.re + 1.0 ≤ 0 := by
  apply Binary64.not_add_one_le_zero
  intro hNegative
  rw [(refusesFactorial_iff hEpsilon h).mpr (.inr (.inr (.inl hNegative)))] at hAccepted
  cases hAccepted

theorem failsWith_factorial_of_accepted (hEpsilon : 0 ≤ A.epsilon) (h : a.mode = A.mode)
    (hAccepted : A.refusesFactorial a negated = false) : FailsWith [.overflow] (A.factorial a negated) := by
  rw [factorial_of_accepted hAccepted]
  have hGamma : FailsWith [.overflow] (during .factorial (Real.gamma (a.re + 1.0))) := by
    apply failsWith_during
    intro m hMishap
    rw [(Real.mishap_of_gamma hMishap).resolve_left (not_pole hEpsilon h hAccepted)]
    decide
  refine hGamma.bind fun r _ => ?_
  unfold coerce
  split
  · exact failsWith_ok _
  · rename_i hComplex
    cases hComplex
  · exact failsWith_ok _

theorem failsWith_factorial (hEpsilon : 0 ≤ A.epsilon) (h : a.mode = A.mode) :
    FailsWith [.invalidFactorial, .overflow] (A.factorial a negated) := by
  cases hRefused : A.refusesFactorial a negated with
  | true =>
    rw [factorial_of_refused hRefused]
    exact failsWith_cause (by decide)
  | false => exact (failsWith_factorial_of_accepted hEpsilon h hRefused).mono (by decide)

theorem failsAs_invalidFactorial_iff (hEpsilon : 0 ≤ A.epsilon) (h : a.mode = A.mode) :
    FailsAs .invalidFactorial (A.factorial a negated) ↔ A.refusesFactorial a negated = true := by
  constructor
  · rintro ⟨cause, hFails, hKind⟩
    rw [← Bool.not_eq_false]
    intro hAccepted
    obtain ⟨cause', hCause, hOverflow⟩ := failsWith_factorial_of_accepted hEpsilon h hAccepted _ hFails
    cases hCause
    rw [hKind] at hOverflow
    exact absurd hOverflow (by decide)
  · intro hRefused
    exact ⟨_, factorial_of_refused hRefused, rfl⟩

/-! ## Functions of one argument -/

theorem failsWith_unary {f : Unary} (h : a.mode = A.mode) :
    FailsWith [.domainError, .overflow] (A.unary f a) := by
  unfold unary
  rw [← h]
  cases a with
  | real x =>
    refine (failsWith_during ?_).map _
    intro m hMishap
    rw [Real.mishap_of_apply hMishap]
    exact List.mem_cons_self
  | complex z =>
    refine (failsWith_during ?_).map _
    intro m hMishap
    rcases Complex.mishap_of_apply hMishap with rfl | rfl
    · exact List.mem_cons_self
    · exact List.mem_cons_of_mem _ List.mem_cons_self

/-! ## All operations -/

/-- Sums, differences, products, negation and percentages of numbers of the mode's type never fail. Every
    other operation fails with its own kinds of faults alone, at every operand, infinite or no number at all:
    quotients where the divisor counts as zero, factorials exactly where the operand is not on the right half
    of the real axis, so that the gamma function is not asked for a pole. None of the further ways to fail
    that a quotient and its truncation have is ever taken in an integer division. -/
theorem faults_of_operations (A : Arithmetic) (hEpsilon : 0 ≤ A.epsilon) (a b : Number)
    (ha : a.mode = A.mode) (hb : b.mode = A.mode) :
    ((∃ c, A.add a b = .ok c) ∧ (∃ c, A.sub a b = .ok c) ∧ (∃ c, A.mul a b = .ok c) ∧
      (∃ c, A.negate a = .ok c) ∧ ∃ c, A.percent a = .ok c) ∧
    (¬ A.Immeasurable b →
      FailsWith [.divisionByZero] (A.div a b) ∧ FailsWith [.integerDivisionByZero] (A.floorDiv a b) ∧
      A.floorDivStepwise a b = A.floorDiv a b ∧ FailsWith A.mode.powerKinds (A.root a b)) ∧
    (∀ negated,
      FailsWith [.invalidFactorial, .overflow] (A.factorial a negated) ∧
      (FailsAs .invalidFactorial (A.factorial a negated) ↔
        A.epsilon < a.im.abs ∨ a.im.isNaN = true ∨ a.re < 0 ∨ negated = true ∧ 0 < a.re) ∧
      (FailsAs .invalidFactorial (A.factorial a negated) ∨ ¬ a.re + 1.0 ≤ 0)) ∧
    FailsWith A.mode.powerKinds (A.pow a b) ∧
    ∀ f, FailsWith [.domainError, .overflow] (A.unary f a) := by
  have hSame : a.mode = b.mode := ha.trans hb.symm
  have hQuotient : (a.div b).mode = A.mode := (Number.mode_lift hSame).trans ha
  refine ⟨⟨?_, ?_, ?_, exists_negate ha, ?_⟩, fun hMeasurable => ?_, fun negated => ?_, failsWith_pow,
    fun f => failsWith_unary ha⟩
  · exact exists_coerce ((Number.mode_lift hSame).trans ha)
  · exact exists_coerce ((Number.mode_lift hSame).trans ha)
  · exact exists_coerce ((Number.mode_lift hSame).trans ha)
  · exact exists_coerce ((Number.mode_lift_real 100).trans ha)
  · exact ⟨failsWith_div hQuotient hMeasurable, failsWith_floorDiv hEpsilon hQuotient hMeasurable,
      floorDivStepwise_eq hEpsilon hQuotient, failsWith_root hb hMeasurable⟩
  · refine ⟨failsWith_factorial hEpsilon ha, ?_, ?_⟩
    · rw [failsAs_invalidFactorial_iff hEpsilon ha, refusesFactorial_iff hEpsilon ha]
    · rw [failsAs_invalidFactorial_iff hEpsilon ha]
      cases hRefused : A.refusesFactorial a negated with
      | true => exact .inl rfl
      | false => exact .inr (not_pole hEpsilon ha hRefused)

/-- At `-1` and `0` every test in front of a function of numbers is needed. -/
theorem faults_of_operations_minus_one :
    (0 : Float) ≤ defaultEpsilon ∧
      FailsAs .invalidFactorial (factorial ⟨.complex, defaultEpsilon⟩ (.complex ⟨-1, 0⟩) false) ∧
      FailsWith [.integerDivisionByZero]
        (floorDiv ⟨.complex, defaultEpsilon⟩ (.complex ⟨-1, 0⟩) (.complex ⟨0, 0⟩)) := by
  have hEpsilon : (0 : Float) ≤ defaultEpsilon := by decide +kernel
  have hMeasurable : ¬ Immeasurable ⟨.complex, defaultEpsilon⟩ (.complex ⟨0, 0⟩) := by
    rintro ⟨-, z, ⟨⟩, -, hHuge⟩
    exact absurd hHuge (by decide +kernel)
  obtain ⟨-, hDivisions, hFactorials, -⟩ := faults_of_operations ⟨.complex, defaultEpsilon⟩ hEpsilon
    (.complex ⟨-1, 0⟩) (.complex ⟨0, 0⟩) rfl rfl
  refine ⟨hEpsilon, (hFactorials false).2.1.mpr ?_, (hDivisions hMeasurable).2.1⟩
  exact .inr (.inr (.inl (by decide +kernel)))

end Arithmetic
end Reckon
