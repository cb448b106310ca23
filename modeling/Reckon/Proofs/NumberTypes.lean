import Reckon.Proofs.Expression.Operands
import Reckon.Proofs.FaultKinds
import Reckon.Record

/-! # The type of the numbers in a run

Every operation gives a number of the type that belongs to the mode, whatever its operands are. So all
numbers on the stack are of this type whenever the run comes to an instruction.
-/
namespace Reckon
set_option autoImplicit false

/-! ## Operations -/

section Typed

variable {A : Arithmetic}

/-- If the operation gives a number, that is of the type of the mode. -/
def Typed (A : Arithmetic) (result : Except Failure Number) : Prop := ∀ a, result = .ok a → a.mode = A.mode

theorem typed_error (failure : Failure) : Typed A (.error failure) := nofun

theorem typed_ok {a : Number} (h : a.mode = A.mode) : Typed A (.ok a) := by
  rintro b ⟨⟩
  exact h

theorem typed_bind {α : Type} (result : Except Failure α) {f : α → Except Failure Number}
    (h : ∀ a, Typed A (f a)) : Typed A (result >>= f) := by
  intro b hBind
  obtain ⟨a, -, hResult⟩ := bind_eq_ok_iff.mp hBind
  exact h a b hResult

theorem typed_map {α : Type} (result : Except Failure α) {f : α → Number}
    (h : ∀ a, (f a).mode = A.mode) : Typed A (f <$> result) := by
  intro b hMap
  obtain ⟨a, -, rfl⟩ := map_eq_ok_iff.mp hMap
  exact h a

end Typed

namespace Arithmetic

variable (A : Arithmetic)

theorem typed_coerce (a : Number) : Typed A (A.coerce a) := by
  unfold coerce
  split
  · rename_i hMode
    exact typed_ok hMode.symm
  · exact typed_error _
  · rename_i hMode
    exact typed_ok hMode.symm

theorem typed_negate (a : Number) : Typed A (A.negate a) := by
  unfold negate
  split <;> exact A.typed_coerce _

theorem typed_div (a b : Number) : Typed A (A.div a b) := by
  refine typed_bind _ fun zero => ?_
  cases zero with
  | true => exact typed_error _
  | false => exact A.typed_coerce _

theorem typed_floorDiv (a b : Number) : Typed A (A.floorDiv a b) := by
  refine typed_bind _ fun zero => ?_
  cases zero with
  | true => exact typed_error _
  | false =>
    simp only [Bool.false_eq_true, if_false]
    split
    · rename_i hMode _
      exact typed_ok hMode.symm
    · exact typed_error _
    · rename_i hMode
      split
      · exact typed_error _
      · split
        · exact typed_error _
        · exact typed_ok hMode.symm

theorem typed_pow (a b : Number) : Typed A (A.pow a b) := typed_bind _ A.typed_coerce

theorem typed_factorial (a : Number) (negated : Bool) : Typed A (A.factorial a negated) := by
  unfold factorial
  split
  · exact typed_error _
  · exact typed_bind _ fun _ => A.typed_coerce _

theorem typed_root (a n : Number) : Typed A (A.root a n) := typed_bind _ fun _ => A.typed_pow a _

theorem typed_unary (f : Unary) (a : Number) : Typed A (A.unary f a) := by
  unfold unary
  split
  · rename_i hMode
    exact typed_map _ fun _ => hMode.symm
  · exact typed_error _
  · rename_i hMode
    exact typed_map _ fun _ => hMode.symm

theorem mode_constant (c : Constant) : (A.constant c).mode = A.mode := by
  unfold constant
  cases A.mode <;> rfl

/-- A real power that is no real number is refused. -/
theorem pow_of_complex {A : Arithmetic} {a b : Number} {z : Complex} (hMode : A.mode = .real)
    (h : a.pow b = .ok (.complex z)) : A.pow a b = .error (.cause .notReal) := by
  have hRefused : A.coerce (.complex z) = .error (.cause .notReal) := by
    unfold coerce
    rw [hMode]
  rw [pow, h]
  exact hRefused

/-- The exponent of a root is of the type of the mode, though the quotient is taken from a real number. -/
theorem exists_of_root {A : Arithmetic} {a n x : Number} (h : A.root a n = .ok x) :
    ∃ q, A.div (.real 1) n = .ok q ∧ q.mode = A.mode ∧ A.pow a q = .ok x ∧ x.mode = A.mode := by
  obtain ⟨q, hQuotient, hPower⟩ := bind_eq_ok_iff.mp h
  exact ⟨q, hQuotient, A.typed_div _ _ q hQuotient, hPower, A.typed_pow a q x hPower⟩

end Arithmetic

theorem Number.record_of_real {a : Number} (h : a.mode = .real) :
    a.record = .object [("real", .ofFloat a.re), ("imag", .float 0)] := by
  cases a with
  | real x =>
    have hFinite : (0 : Float).isFinite = true := by decide +kernel
    have hZero : Json.ofFloat (Number.real x).im = .float 0 := if_pos hFinite
    rw [record, hZero]
  | complex z => cases h

/-! ## Runs -/

namespace Expression

variable {A : Arithmetic} {stack stack' : Stack}

/-- All numbers on the stack are of the type of the mode. -/
def Stack.Typed (A : Arithmetic) (stack : Stack) : Prop := ∀ a ∈ stack, a.mode = A.mode

theorem Stack.typed_nil : Stack.Typed A [] := nofun

theorem Operator.typed_apply (op : Operator) (a b : Number) : Reckon.Typed A (op.apply A a b) := by
  cases op with
  | add | sub | mul => exact A.typed_coerce _
  | div => exact A.typed_div a b
  | floorDiv => exact A.typed_floorDiv a b
  | pow => exact A.typed_pow a b

theorem Stack.Typed.push {result : Except Failure Number} (h : stack.Typed A)
    (hResult : Reckon.Typed A result) (hPush : (· :: stack) <$> result = .ok stack') :
    stack'.Typed A := by
  obtain ⟨x, hOk, rfl⟩ := push_eq_ok hPush
  intro a hMem
  rcases List.mem_cons.mp hMem with rfl | hBelow
  · exact hResult _ hOk
  · exact h a hBelow

theorem Stack.Typed.tail {a : Number} (h : Stack.Typed A (a :: stack)) : stack.Typed A :=
  fun b hMem => h b (List.mem_cons_of_mem a hMem)

/-- One action keeps the types. -/
theorem Stack.Typed.apply {action : Action} (h : stack.Typed A)
    (hApply : action.apply A stack = .ok stack') : stack'.Typed A := by
  unfold Action.apply at hApply
  split at hApply
  · exact h.push (A.typed_coerce _) hApply
  · split at hApply
    · rename_i c hConstant
      exact h.push (typed_ok (A.mode_constant c)) hApply
    · cases hApply
  · exact h.tail.tail.push (Operator.typed_apply _ _ _) hApply
  · exact h.tail.push (A.typed_negate _) hApply
  · exact h.tail.push (A.typed_factorial _ _) hApply
  · exact h.tail.push (A.typed_coerce _) hApply
  · exact h.tail.push (A.typed_unary _ _) hApply
  · exact h.tail.tail.push (A.typed_root _ _) hApply
  · cases hApply
    exact h

theorem Stack.Typed.run {code : List Instruction} (h : stack.Typed A)
    (hRun : run A code stack = .ok stack') : stack'.Typed A := by
  induction code generalizing stack with
  | nil =>
    cases hRun
    exact h
  | cons i code ih =>
    rw [Expression.run] at hRun
    split at hRun
    · rename_i stack₁ hApply
      exact ih (h.apply hApply) hRun
    · cases hRun

/-- A part of a text that is read to its end gives one number, of the type of the mode. -/
theorem Part.mode_of_execute {deep : Cause} {reader : Reader} (hPart : Part deep reader) {c c' : Cursor}
    (h : stack.Typed A) (hRun : execute A (reader c) stack = .ok (c', stack')) :
    ∃ x, stack' = x :: stack ∧ x.mode = A.mode := by
  obtain ⟨x, rfl⟩ := hPart.pushes.execute hRun
  have hTyped := h.run (execute_eq_ok_iff.mp hRun).1
  exact ⟨x, rfl, hTyped x List.mem_cons_self⟩

theorem Tree.mode_of_eval {t : Tree} {x : Number} (h : t.eval A = .ok x) : x.mode = A.mode := by
  have hRun : execute A t.emit [] = .ok ((), [x]) := by
    rw [execute_tree, h]
    rfl
  exact Stack.typed_nil.run (execute_eq_ok_iff.mp hRun).1 x List.mem_cons_self

theorem mode_of_value [Interpreter] {limit : Int} {text : List Char} {x : Number}
    (h : value A limit text = .ok x) :
    x.mode = A.mode := by
  rw [value_eq_execute] at h
  obtain ⟨⟨⟨⟩, stack⟩, hExecute, rfl⟩ := map_eq_ok_iff.mp h
  obtain ⟨hRun, hOutcome⟩ := execute_eq_ok_iff.mp hExecute
  obtain ⟨n, hSupplied, hHeight⟩ := supplied_read limit text
  rw [hHeight () hOutcome] at hSupplied
  obtain ⟨top, rfl, hLength⟩ := hSupplied.exists_of_run [] [] hRun
  obtain ⟨x, rfl⟩ := List.length_eq_one_iff.mp hLength
  exact Stack.typed_nil.run hRun x List.mem_cons_self

end Expression

open Expression

/-! ## Evaluation -/

/-- In a run, also in one that fails in the end, every instruction finds its operands; they and all other
    numbers are of the type of the mode, and so is the number that takes their place. Every part of a text
    that is read to its end gives one number of this type, and so does a whole text; in real mode that
    number is written with an imaginary part of zero. The type is kept behind the quotient of a real number
    from which a root takes its exponent, and a real power that is no real number is refused. -/
theorem modes_of_evaluation [Interpreter] (settings : Settings) (text : String) :
    (∀ before i after stack, (read settings.maxDepth text.toList).code = before ++ i :: after →
      run settings.arithmetic before [] = .ok stack →
        i.action.operands ≤ stack.length ∧ (∀ a ∈ stack, a.mode = settings.mode) ∧
        ∀ stack', i.action.apply settings.arithmetic stack = .ok stack' →
          ∃ x, stack' = x :: stack.drop i.action.operands ∧ x.mode = settings.mode) ∧
    (∀ deep reader c c' stack stack', Part deep reader → (∀ a ∈ stack, a.mode = settings.mode) →
      execute settings.arithmetic (reader c) stack = .ok (c', stack') →
        ∃ x, stack' = x :: stack ∧ x.mode = settings.mode) ∧
    (∀ x, evaluate settings text = .ok ⟨text, .ok x⟩ → x.mode = settings.mode ∧
      (settings.mode = .real → x.record = .object [("real", .ofFloat x.re), ("imag", .float 0)])) ∧
    (∀ a n x, settings.arithmetic.root a n = .ok x →
      ∃ q, settings.arithmetic.div (.real 1) n = .ok q ∧ q.mode = settings.mode ∧
        settings.arithmetic.pow a q = .ok x ∧ x.mode = settings.mode) ∧
    ∀ a b z, settings.mode = .real → a.pow b = .ok (.complex z) →
      settings.arithmetic.pow a b = .error (.cause .notReal) := by
  refine ⟨?_, ?_, ?_, fun a n x => Arithmetic.exists_of_root,
    fun a b z hReal => Arithmetic.pow_of_complex (A := settings.arithmetic) hReal⟩
  · intro before i after stack hCode hRun
    have hOperands := operands_le_of_read hCode hRun
    have hTyped := Stack.typed_nil.run hRun
    refine ⟨hOperands, hTyped, fun stack' hApply => ?_⟩
    obtain ⟨x, rfl⟩ := Action.exists_of_apply hOperands hApply
    exact ⟨x, rfl, hTyped.apply hApply x List.mem_cons_self⟩
  · intro deep reader c c' stack stack' hPart hTyped hRun
    exact hPart.mode_of_execute (A := settings.arithmetic) hTyped hRun
  · intro x hEvaluate
    have hMode : x.mode = settings.mode := mode_of_value (evaluate_value_iff.mp hEvaluate)
    refine ⟨hMode, fun hReal => ?_⟩
    exact Number.record_of_real (hMode.trans hReal)

/-- The exponent of each of these roots comes from the quotient of a real number. -/
theorem modes_of_evaluation_root :
    (∃ x, evaluate {} "root(4, 0.5)" = .ok ⟨"root(4, 0.5)", .ok x⟩ ∧ x.mode = .complex) ∧
      ∃ x, evaluate { mode := .real } "root(1, 3)" = .ok ⟨"root(1, 3)", .ok x⟩ ∧ x.mode = .real ∧
        x.record = .object [("real", .ofFloat x.re), ("imag", .float 0)] := by
  have hComplex : evaluate {} "root(4, 0.5)" = .ok ⟨"root(4, 0.5)", .ok (.complex ⟨16, 0⟩)⟩ := by
    decide +kernel
  have hReal : evaluate { mode := .real } "root(1, 3)" = .ok ⟨"root(1, 3)", .ok (.real 1)⟩ := by
    decide +kernel
  obtain ⟨hMode, -⟩ := (modes_of_evaluation {} "root(4, 0.5)").2.2.1 _ hComplex
  obtain ⟨hMode', hRecord⟩ := (modes_of_evaluation { mode := .real } "root(1, 3)").2.2.1 _ hReal
  exact ⟨⟨_, hComplex, hMode⟩, _, hReal, hMode', hRecord rfl⟩

end Reckon
