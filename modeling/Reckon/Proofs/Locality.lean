import Reckon.Proofs.Expression.Lookahead
import Reckon.Proofs.Totality

/-! # Faults depend on what was read

A fault is a matter of the text up to the cursor at which it is noticed and of three characters more.
A text that goes on in another way behind them has the same fault at the same offset.
-/
namespace Reckon
set_option autoImplicit false
open Expression

/-! ## Running readings that are alike -/

namespace Expression

variable {α : Type} {A : Arithmetic} {stack : Stack} {stop : Stop} {m m' : Reading α}

theorem execute_behind (code : List Instruction) (m : Reading α) (stack : Stack) :
    execute A (m.behind code) stack = run A code stack >>= execute A m := by
  simp only [execute, Reading.behind, run_append, bind_assoc]
  rfl

theorem mem_of_run_eq_error {code : List Instruction} (h : run A code stack = .error stop) :
    ∃ i ∈ code, stop.position = i.position ∧ stop.reached = i.reached := by
  obtain ⟨before, i, after, stack', failure, rfl, -, -, rfl⟩ := run_eq_error_iff.mp h
  exact ⟨i, by simp, rfl, rfl⟩

theorem Late.le_reached {p : Nat} {place : α → Nat} (h : Late p place m)
    (hStop : execute A m stack = .error stop) : p ≤ stop.reached := by
  rcases execute_eq_error_iff.mp hStop with hRun | ⟨stack', e, -, hOutcome, rfl⟩
  · obtain ⟨i, hi, -, hReached⟩ := mem_of_run_eq_error hRun
    rw [hReached]
    exact h.code i hi
  · exact h.error e hOutcome

/-- A stop before the texts part is a stop of both readings. -/
theorem Alike.execute_eq_error {n : Nat} {place : α → Nat} {R : α → α → Prop}
    (h : Alike n none place R m m') (hStop : execute A m stack = .error stop)
    (hNear : stop.reached + 2 < n) : execute A m' stack = .error stop := by
  cases h with
  | ok =>
    rw [execute_eq_error_iff] at hStop ⊢
    rcases hStop with hRun | ⟨stack', e, -, hOutcome, -⟩
    · exact .inl hRun
    · cases hOutcome
  | error => exact hStop
  | @far code p m m' hFar hLate hLate' =>
    rw [execute_behind] at hStop ⊢
    rcases bind_eq_error_iff.mp hStop with hRun | ⟨stack', -, hRest⟩
    · rw [hRun, error_bind]
    · have hReached := hLate.le_reached hRest
      omega
  | cut hCut => cases hCut

theorem Reading.Onward.bounds {c : Cursor} {next : α → Cursor} (h : m.Onward c next)
    (hStop : execute A m stack = .error stop) :
    stop.position ≤ stop.reached ∧ stop.reached ≤ c.position + c.rest.length := by
  rcases execute_eq_error_iff.mp hStop with hRun | ⟨stack', e, -, hOutcome, rfl⟩
  · obtain ⟨i, hi, hPosition, hReached⟩ := mem_of_run_eq_error hRun
    rw [hPosition, hReached]
    cases hOutcome : m.outcome with
    | ok a =>
      have hSpans := h.spans hOutcome
      have hEnd := (h.ahead hOutcome).end_eq
      exact ⟨hSpans.position i hi, by have := (hSpans.reached i hi).2; omega⟩
    | error e =>
      obtain ⟨hSpans, -, hEnd⟩ := h.spans_error hOutcome
      exact ⟨hSpans.position i hi, Nat.le_trans (hSpans.reached i hi).2 hEnd⟩
  · exact (h.spans_error hOutcome).2

/-! ## Values -/

theorem value_eq_error_iff [Interpreter] {limit : Int} {text : List Char} :
    value A limit text = .error stop ↔
      execute A (readWithin (tooDeep limit) (levels limit) ⟨0, text⟩) [] = .error stop := by
  rw [value_eq_execute, map_eq_error_iff, read_eq_readWithin, execute_bind, bind_eq_error_iff,
    or_iff_left]
  rintro ⟨r, -, hStop⟩
  cases hStop

theorem bounds_of_value [Interpreter] {limit : Int} {text : List Char} (h : value A limit text = .error stop) :
    stop.position ≤ stop.reached ∧ stop.reached ≤ text.length := by
  have hBounds := (forward_readWithin _ _ _).bounds (value_eq_error_iff.mp h)
  rwa [Nat.zero_add] at hBounds

theorem value_eq_error_of_agree [Interpreter] {limit : Int} {text text' : List Char}
    (h : value A limit text = .error stop)
    (hAgree : text'.take (stop.reached + 3) = text.take (stop.reached + 3)) :
    value A limit text' = .error stop := by
  rw [value_eq_error_iff] at h ⊢
  have hSame := Narrower.same none (tooDeep limit) (levels limit)
  have hAlike := parallel_readWithin (n := stop.reached + 3) hSame ⟨0, text⟩ ⟨0, text'⟩
    ⟨rfl, hAgree.symm⟩
  exact hAlike.execute_eq_error h (Nat.lt_succ_self _)

end Expression

/-! ## Faults -/

/-- The fault of a text is noticed somewhere in the text, and every text that begins with the same
    characters, as far as it was read and three characters further, has the same fault. -/
theorem evaluate_error_of_agree [Interpreter] (settings : Settings) (text : String) (fault : Fault)
    (h : evaluate settings text = .ok ⟨text, .error fault⟩) :
    ∃ cause position reached, fault = cause.fault position ∧
      value settings.arithmetic settings.maxDepth text.toList =
        .error ⟨.cause cause, position, reached⟩ ∧
      position ≤ reached ∧ reached ≤ text.toList.length ∧
      ∀ text' : String, text'.toList.take (reached + 3) = text.toList.take (reached + 3) →
        evaluate settings text' = .ok ⟨text', .error fault⟩ := by
  obtain ⟨cause, position, reached, hFault, hValue⟩ := evaluate_fault_iff.mp h
  obtain ⟨hPosition, hReached⟩ := bounds_of_value hValue
  refine ⟨cause, position, reached, hFault, hValue, hPosition, hReached, ?_⟩
  intro text' hAgree
  exact evaluate_fault_iff.mpr
    ⟨cause, position, reached, hFault, value_eq_error_of_agree hValue hAgree⟩

/-- Behind `1` the exponent letter, the sign and the character after it count, and two of them are not
    enough. -/
theorem evaluate_error_of_agree_exponent :
    evaluate {} "1e+)" = .ok ⟨"1e+)", .error ((Cause.trailing 'e').fault 1)⟩ ∧
      evaluate {} "1e+)5" = .ok ⟨"1e+)5", .error ((Cause.trailing 'e').fault 1)⟩ ∧
      evaluate {} "1e+5" = .ok ⟨"1e+5", .ok (.complex (.ofReal 100000))⟩ := by
  have hEvaluate : evaluate {} "1e+)" = .ok ⟨"1e+)", .error ((Cause.trailing 'e').fault 1)⟩ := by
    decide +kernel
  have hStop : value ({} : Settings).arithmetic ({} : Settings).maxDepth "1e+)".toList =
      .error ⟨.cause (.trailing 'e'), 1, 1⟩ := by
    decide +kernel
  obtain ⟨cause, position, reached, -, hValue, -, -, hAgree⟩ :=
    evaluate_error_of_agree {} "1e+)" _ hEvaluate
  rw [hStop] at hValue
  cases hValue
  exact ⟨hEvaluate, hAgree "1e+)5" (by decide), by decide +kernel⟩

end Reckon
