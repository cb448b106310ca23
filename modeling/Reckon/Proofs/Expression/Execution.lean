import Mathlib.Data.List.Basic
import Reckon.Proofs.Expression.Tree

/-! # Running what was read

A reading is executed by running its code and then raising its complaint, if it has one. Execution
respects the order in which readings are put together, so the code of a tree has the effect of its
value on the stack.
-/
namespace Reckon.Expression
set_option autoImplicit false

variable {α β : Type} {A : Arithmetic}

def execute (A : Arithmetic) (m : Reading α) (stack : Stack) : Except Stop (α × Stack) := do
  let stack ← run A m.code stack
  match m.outcome with
  | .ok a => .ok (a, stack)
  | .error complaint => .error complaint.stop

theorem run_append (code more : List Instruction) (stack : Stack) :
    run A (code ++ more) stack = run A code stack >>= run A more := by
  induction code generalizing stack with
  | nil => rfl
  | cons i code ih =>
    simp only [List.cons_append, run]
    split
    · exact ih _
    · rfl

theorem execute_emit (i : Instruction) (stack : Stack) :
    execute A (.emit i) stack =
      ((), ·) <$> (i.action.apply A stack).mapError (⟨·, i.position, i.reached⟩) := by
  simp only [execute, Reading.emit, run]
  cases i.action.apply A stack <;> rfl

theorem execute_bind (m : Reading α) (f : α → Reading β) (stack : Stack) :
    execute A (m >>= f) stack = execute A m stack >>= fun r => execute A (f r.1) r.2 := by
  cases hOutcome : m.outcome with
  | error complaint =>
    rw [Reading.bind_of_error hOutcome]
    simp only [execute, hOutcome]
    cases run A m.code stack <;> rfl
  | ok a =>
    rw [Reading.bind_of_ok hOutcome]
    simp only [execute, hOutcome, run_append]
    cases run A m.code stack <;> rfl

theorem execute_eq_ok_iff {m : Reading α} {a : α} {stack stack' : Stack} :
    execute A m stack = .ok (a, stack') ↔ run A m.code stack = .ok stack' ∧ m.outcome = .ok a := by
  rw [execute, bind_eq_ok_iff]
  constructor
  · rintro ⟨stack₁, hRun, hOutcome⟩
    split at hOutcome
    · rename_i b hOk
      cases hOutcome
      exact ⟨hRun, hOk⟩
    · cases hOutcome
  · rintro ⟨hRun, hOk⟩
    refine ⟨stack', hRun, ?_⟩
    rw [hOk]

theorem execute_eq_error_iff {m : Reading α} {stack : Stack} {stop : Stop} :
    execute A m stack = .error stop ↔ run A m.code stack = .error stop ∨
      ∃ stack' e, run A m.code stack = .ok stack' ∧ m.outcome = .error e ∧ stop = e.stop := by
  rw [execute, bind_eq_error_iff]
  refine or_congr_right ⟨?_, ?_⟩
  · rintro ⟨stack', hRun, hOutcome⟩
    split at hOutcome
    · cases hOutcome
    · rename_i e hError
      cases hOutcome
      exact ⟨stack', e, hRun, hError, rfl⟩
  · rintro ⟨stack', e, hRun, hError, rfl⟩
    refine ⟨stack', hRun, ?_⟩
    rw [hError]

theorem value_eq_execute [Interpreter] (limit : Int) (text : List Char) :
    value A limit text = (fun r => r.2.headD default) <$> execute A (read limit text) [] := by
  simp only [value, execute]
  cases run A (read limit text).code [] with
  | error stop => rfl
  | ok stack => cases (read limit text).outcome <;> rfl

/-! ## Trees -/

theorem map_mapError (result : Except Failure Number) (offset : Nat) (stack : Stack) :
    ((), ·) <$> ((· :: stack) <$> result).mapError (⟨·, offset, offset⟩) =
      (fun x => ((), x :: stack)) <$> reportedAt offset result := by
  cases result <;> rfl

theorem apply_call {f : Builtin} {values : List Number} (h : values.length = f.arity) (stack : Stack) :
    (Action.call f).apply A (values.reverse ++ stack) = (· :: stack) <$> f.apply A values := by
  cases f with
  | unary f =>
    obtain ⟨a, rfl⟩ := List.length_eq_one_iff.mp h
    rfl
  | root =>
    obtain ⟨a, n, rfl⟩ := List.length_eq_two.mp h
    rfl

namespace Tree

mutual
/-- The code of a tree puts its value on the stack, or stops where its evaluation does. -/
theorem execute_tree (t : Tree) (stack : Stack) :
    execute A t.emit stack = (fun x => ((), x :: stack)) <$> t.eval A := by
  cases t with
  | literal d next => rw [emit, execute_emit, eval, ← map_mapError]; rfl
  | name word start next =>
    rw [emit, execute_emit, eval]
    simp only [Action.apply]
    cases Constant.ofName? A.mode word <;> rfl
  | call word args start opening next =>
    simp only [emit, eval]
    cases Builtin.ofName? word with
    | none => rfl
    | some f =>
      simp only [execute_bind, execute_all args]
      cases hValues : evalAll A args with
      | error stop => rfl
      | ok values =>
        simp only [Functor.map, Except.map, ok_bind]
        split
        · rename_i hArity
          rw [execute_emit, apply_call ((length_of_evalAll hValues).trans hArity), map_mapError]
          rfl
        · rfl
  | group b t => exact execute_tree t stack
  | factorial negated t next | percent t next | negate t next =>
    simp only [emit, eval, execute_bind, execute_tree t]
    cases t.eval A with
    | error stop => rfl
    | ok x => rw [ok_bind, ← map_mapError]; exact execute_emit _ _
  | binary op a b next =>
    simp only [emit, eval, execute_bind, execute_tree a]
    cases a.eval A with
    | error stop => rfl
    | ok x =>
      simp only [Functor.map, Except.map, ok_bind, execute_tree b]
      cases b.eval A with
      | error stop => rfl
      | ok y => rw [ok_bind]; exact (execute_emit _ _).trans (map_mapError _ _ _)

theorem execute_all (ts : List Tree) (stack : Stack) :
    execute A (emitAll ts) stack = (fun xs => ((), xs.reverse ++ stack)) <$> evalAll A ts := by
  cases ts with
  | nil => rfl
  | cons t ts =>
    simp only [emitAll, evalAll, execute_bind, execute_tree t]
    cases t.eval A with
    | error stop => rfl
    | ok x =>
      simp only [Functor.map, Except.map, ok_bind, execute_all ts]
      cases evalAll A ts with
      | error stop => rfl
      | ok xs => simp
end

theorem headD_execute (t : Tree) :
    (fun r : Unit × Stack => r.2.headD default) <$> execute A t.emit [] = t.eval A := by
  rw [execute_tree]
  cases t.eval A <;> rfl

end Tree
end Reckon.Expression
