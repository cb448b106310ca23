import Reckon.Proofs.Recognition
import Reckon.Proofs.Binary64.SignedZero

/-! # When evaluation gives an outcome

Every failure of an operation is reported as a fault but one: a divisor whose parts are finite and whose
modulus is not ends the evaluation without an outcome. No other operation can do so.
-/
namespace Reckon
set_option autoImplicit false

/-! ## Operations -/

/-- The operation has a value or a cause to report. -/
def Reports {α : Type} (result : Except Failure α) : Prop := result ≠ .error .modulusOverflow

theorem reports_ok {α : Type} (a : α) : Reports (.ok a) := by
  intro h
  cases h

theorem reports_cause {α : Type} (c : Cause) : Reports (.error (.cause c) : Except Failure α) := by
  intro h
  cases h

theorem Reports.bind {α β : Type} {result : Except Failure α} {f : α → Except Failure β}
    (h : Reports result) (hNext : ∀ a, Reports (f a)) : Reports (result >>= f) := by
  intro hBind
  rcases bind_eq_error_iff.mp hBind with hError | ⟨a, -, hError⟩
  · exact h hError
  · exact hNext a hError

theorem Reports.map {α β : Type} {result : Except Failure α} (h : Reports result) (f : α → β) :
    Reports (f <$> result) := fun hMap => h (map_eq_error_iff.mp hMap)

namespace Arithmetic

variable (A : Arithmetic)

theorem reports_during {α : Type} (what : Calculation) (result : Except Mishap α) :
    Reports (during what result) := by
  cases result with
  | ok a => exact reports_ok a
  | error m => exact reports_cause _

theorem reports_coerce (a : Number) : Reports (A.coerce a) := by
  unfold coerce
  split
  · exact reports_ok _
  · exact reports_cause _
  · exact reports_ok _

theorem reports_negate (a : Number) : Reports (A.negate a) := by
  unfold negate
  split <;> exact A.reports_coerce _

theorem reports_pow (a b : Number) : Reports (A.pow a b) :=
  (reports_during _ _).bind A.reports_coerce

theorem reports_factorial (a : Number) (negated : Bool) : Reports (A.factorial a negated) := by
  unfold factorial
  split
  · exact reports_cause _
  · exact (reports_during _ _).bind fun _ => A.reports_coerce _

theorem reports_unary (f : Unary) (a : Number) : Reports (A.unary f a) := by
  unfold unary
  split
  · exact (reports_during _ _).map _
  · exact reports_cause _
  · exact (reports_during _ _).map _

theorem reports_percent (a : Number) : Reports (A.percent a) := A.reports_coerce _

/-! ## Divisors -/

/-- The parts of the number are finite, but its distance from zero lies beyond the largest number. -/
def Immeasurable (A : Arithmetic) (b : Number) : Prop :=
  A.mode = .complex ∧ ∃ z, b = .complex z ∧ z.isFinite = true ∧
    Binary64.infinite (Binary64.hypot z.re z.im) = true

theorem magnitude_eq_overflow_iff {b : Number} :
    magnitude b = .error .modulusOverflow ↔ ∃ z, b = .complex z ∧ z.isFinite = true ∧
      Binary64.infinite (Binary64.hypot z.re z.im) = true := by
  unfold magnitude
  cases b with
  | real x => simp [Number.magnitude?]
  | complex z =>
    by_cases hHuge : z.isFinite = true ∧ Binary64.infinite (Binary64.hypot z.re z.im) = true
    · simp [Number.magnitude?, Complex.modulus?, hHuge]
    · simp [Number.magnitude?, Complex.modulus?, hHuge]

theorem isZero_of_immeasurable {b : Number} (h : A.Immeasurable b) : b.isZero = false := by
  obtain ⟨-, z, rfl, hFinite, hHuge⟩ := h
  obtain ⟨hRe, hIm⟩ := Bool.and_eq_true_iff.mp hFinite
  cases hZero : (Number.complex z).isZero with
  | false => rfl
  | true =>
    obtain ⟨hReZero, hImZero⟩ := Bool.and_eq_true_iff.mp hZero
    rw [Binary64.eq_zero_of_beq hRe hReZero, Binary64.eq_zero_of_beq hIm hImZero] at hHuge
    cases hMinusRe : Binary64.negative z.re <;> cases hMinusIm : Binary64.negative z.im <;>
      rw [hMinusRe, hMinusIm] at hHuge <;> exact absurd hHuge (by decide +kernel)

theorem isZero_eq_overflow_iff {b : Number} :
    A.isZero b = .error .modulusOverflow ↔ A.Immeasurable b := by
  constructor
  · intro h
    unfold isZero at h
    split at h
    · cases h
    · rename_i hMode
      cases hZero : b.isZero with
      | true =>
        rw [hZero] at h
        cases h
      | false =>
        rw [hZero] at h
        refine ⟨hMode, magnitude_eq_overflow_iff.mp ?_⟩
        rcases bind_eq_error_iff.mp h with hMagnitude | ⟨r, -, hRest⟩
        · exact hMagnitude
        · cases hRest
  · intro h
    rw [isZero, h.1, A.isZero_of_immeasurable h]
    exact bind_eq_error_iff.mpr (.inl (magnitude_eq_overflow_iff.mpr h.2))

theorem div_eq_overflow_iff {a b : Number} :
    A.div a b = .error .modulusOverflow ↔ A.Immeasurable b := by
  rw [← isZero_eq_overflow_iff, div, bind_eq_error_iff, or_iff_left]
  rintro ⟨zero, -, h⟩
  cases zero with
  | true => exact reports_cause _ h
  | false => exact A.reports_coerce _ h

theorem floorDiv_eq_overflow_iff {a b : Number} :
    A.floorDiv a b = .error .modulusOverflow ↔ A.Immeasurable b := by
  rw [← isZero_eq_overflow_iff, floorDiv, bind_eq_error_iff, or_iff_left]
  rintro ⟨zero, -, h⟩
  cases zero with
  | true => exact reports_cause _ h
  | false =>
    simp only [Bool.false_eq_true, if_false] at h
    split at h
    · exact reports_ok _ h
    · exact reports_cause _ h
    · split at h
      · exact reports_cause _ h
      · split at h
        · exact reports_cause _ h
        · exact reports_ok _ h

theorem root_eq_overflow_iff {a n : Number} :
    A.root a n = .error .modulusOverflow ↔ A.Immeasurable n := by
  rw [← div_eq_overflow_iff, root, bind_eq_error_iff, or_iff_left]
  rintro ⟨y, -, h⟩
  exact A.reports_pow _ _ h

end Arithmetic

namespace Expression

variable {A : Arithmetic}

def Action.divides : Action → Bool
  | .binary .div | .binary .floorDiv | .call .root => true
  | _ => false

/-- The operands of a division stand on the stack, and the divisor is immeasurable. -/
def Stack.Immeasurable (A : Arithmetic) (stack : Stack) : Prop :=
  ∃ b a rest, stack = b :: a :: rest ∧ A.Immeasurable b

theorem Stack.immeasurable_cons_iff {b a : Number} {rest : Stack} :
    Stack.Immeasurable A (b :: a :: rest) ↔ A.Immeasurable b := by
  constructor
  · rintro ⟨b', a', rest', hStack, h⟩
    cases hStack
    exact h
  · intro h
    exact ⟨b, a, rest, rfl, h⟩

theorem Stack.not_immeasurable {stack : Stack} (h : stack.length < 2) : ¬ stack.Immeasurable A := by
  rintro ⟨b, a, rest, rfl, -⟩
  rw [List.length_cons, List.length_cons] at h
  omega

theorem Operator.reports_apply {op : Operator} (h : (Action.binary op).divides = false) (a b : Number) :
    Reports (op.apply A a b) := by
  cases op with
  | add | sub | mul => exact A.reports_coerce _
  | pow => exact A.reports_pow a b
  | div | floorDiv => cases h

theorem Operator.apply_eq_overflow_iff {op : Operator} (h : (Action.binary op).divides = true)
    {a b : Number} : op.apply A a b = .error .modulusOverflow ↔ A.Immeasurable b := by
  cases op with
  | add | sub | mul | pow => cases h
  | div => exact A.div_eq_overflow_iff
  | floorDiv => exact A.floorDiv_eq_overflow_iff

theorem Action.reports_apply {action : Action} (h : action.divides = false) (stack : Stack) :
    Reports (action.apply A stack) := by
  cases action with
  | literal d => exact (A.reports_coerce _).map _
  | constant name =>
    rw [apply]
    split
    · exact reports_ok _
    · exact reports_cause _
  | binary op =>
    rcases stack with _ | ⟨b, _ | ⟨a, rest⟩⟩
    · exact reports_ok _
    · exact reports_ok _
    · exact (Operator.reports_apply h a b).map _
  | negate =>
    cases stack with
    | nil => exact reports_ok _
    | cons a rest => exact (A.reports_negate a).map _
  | factorial negated =>
    cases stack with
    | nil => exact reports_ok _
    | cons a rest => exact (A.reports_factorial a negated).map _
  | percent =>
    cases stack with
    | nil => exact reports_ok _
    | cons a rest => exact (A.reports_percent a).map _
  | call f =>
    cases f with
    | root => cases h
    | unary f =>
      cases stack with
      | nil => exact reports_ok _
      | cons a rest => exact (A.reports_unary f a).map _

/-- Of all actions only divisions fail without a cause, and only at an immeasurable divisor. -/
theorem Action.apply_eq_overflow_iff {action : Action} {stack : Stack} :
    action.apply A stack = .error .modulusOverflow ↔
      action.divides = true ∧ stack.Immeasurable A := by
  cases hDivides : action.divides with
  | false => exact iff_of_false (reports_apply hDivides stack) (fun h => Bool.false_ne_true h.1)
  | true =>
    rw [and_iff_right rfl]
    cases action with
    | literal d | constant name | negate | factorial negated | percent => cases hDivides
    | binary op =>
      rcases stack with _ | ⟨b, _ | ⟨a, rest⟩⟩
      · exact iff_of_false (reports_ok _) (Stack.not_immeasurable Nat.zero_lt_two)
      · exact iff_of_false (reports_ok _) (Stack.not_immeasurable Nat.one_lt_two)
      · rw [apply, map_eq_error_iff, Operator.apply_eq_overflow_iff hDivides,
          Stack.immeasurable_cons_iff]
    | call f =>
      cases f with
      | unary f => cases hDivides
      | root =>
        rcases stack with _ | ⟨n, _ | ⟨a, rest⟩⟩
        · exact iff_of_false (reports_ok _) (Stack.not_immeasurable Nat.zero_lt_two)
        · exact iff_of_false (reports_ok _) (Stack.not_immeasurable Nat.one_lt_two)
        · rw [apply, map_eq_error_iff, A.root_eq_overflow_iff, Stack.immeasurable_cons_iff]

theorem run_eq_error_iff {code : List Instruction} {stack : Stack} {stop : Stop} :
    run A code stack = .error stop ↔ ∃ before i after stack' failure, code = before ++ i :: after ∧
      run A before stack = .ok stack' ∧ i.action.apply A stack' = .error failure ∧
        stop = ⟨failure, i.position, i.reached⟩ := by
  constructor
  · intro h
    induction code generalizing stack with
    | nil => cases h
    | cons i code ih =>
      rw [run] at h
      split at h
      · rename_i stack' hApply
        obtain ⟨before, j, after, stack'', failure, rfl, hRun, hFails, hStop⟩ := ih h
        refine ⟨i :: before, j, after, stack'', failure, rfl, ?_, hFails, hStop⟩
        rw [run, hApply]
        exact hRun
      · rename_i failure hFails
        cases h
        exact ⟨[], i, code, stack, failure, rfl, rfl, hFails, rfl⟩
  · rintro ⟨before, i, after, stack', failure, rfl, hRun, hFails, rfl⟩
    rw [run_append, hRun, ok_bind, run, hFails]

theorem value_eq_overflow_iff [Interpreter] {limit : Int} {text : List Char} {position reached : Nat} :
    value A limit text = .error ⟨.modulusOverflow, position, reached⟩ ↔
      run A (read limit text).code [] = .error ⟨.modulusOverflow, position, reached⟩ := by
  simp only [value]
  split
  · rename_i stop hRun
    rw [hRun]
    simp
  · rename_i hRun _
    rw [hRun]
    simp [Complaint.stop]
  · rename_i hRun _
    rw [hRun]
    simp

end Expression

open Expression

theorem text_of_evaluate [Interpreter] {settings : Settings} {text : String} {o : Outcome}
    (h : evaluate settings text = .ok o) : o.text = text := by
  unfold evaluate at h
  split at h
  · cases h
    rfl
  · cases h
    rfl
  · cases h

/-- Evaluation gives an outcome unless, in complex arithmetic, the code read from the text comes to a
    division or a root whose divisor has finite parts and no modulus. -/
theorem exists_outcome_iff [Interpreter] (settings : Settings) (text : String) :
    (∃ o, evaluate settings text = .ok o ∧ o.text = text) ↔
      ¬ ∃ before i after stack, (read settings.maxDepth text.toList).code = before ++ i :: after ∧
        run settings.arithmetic before [] = .ok stack ∧ i.action.divides = true ∧
          stack.Immeasurable settings.arithmetic := by
  have hStops : evaluate settings text = .error .modulusOverflow ↔
      ∃ before i after stack, (read settings.maxDepth text.toList).code = before ++ i :: after ∧
        run settings.arithmetic before [] = .ok stack ∧ i.action.divides = true ∧
          stack.Immeasurable settings.arithmetic := by
    rw [evaluate_interruption_iff]
    simp only [value_eq_overflow_iff, run_eq_error_iff]
    constructor
    · rintro ⟨position, reached, before, i, after, stack, failure, hCode, hRun, hFails, hStop⟩
      cases hStop
      obtain ⟨hDivides, hDivisor⟩ := Action.apply_eq_overflow_iff.mp hFails
      exact ⟨before, i, after, stack, hCode, hRun, hDivides, hDivisor⟩
    · rintro ⟨before, i, after, stack, hCode, hRun, hDivides, hDivisor⟩
      have hFails := Action.apply_eq_overflow_iff.mpr ⟨hDivides, hDivisor⟩
      exact ⟨_, _, before, i, after, stack, _, hCode, hRun, hFails, rfl⟩
  rw [← hStops]
  constructor
  · rintro ⟨o, hOutcome, -⟩ hStop
    rw [hStop] at hOutcome
    cases hOutcome
  · intro hStop
    cases hOutcome : evaluate settings text with
    | ok o => exact ⟨o, rfl, text_of_evaluate hOutcome⟩
    | error interruption => cases interruption; exact absurd hOutcome hStop

/-- The sum of the squares of the divisor's parts has a root beyond the largest number. -/
theorem evaluate_huge_divisor :
    evaluate {} "1/(1.5e308+1.5e308xi)" = .error .modulusOverflow := by decide +kernel

end Reckon
