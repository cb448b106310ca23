import Reckon.Proofs.Expression.Stops

/-! # What operations blame

An operation that fails blames its operands or its result, never the text it stands in.
-/
namespace Reckon
set_option autoImplicit false

/-- Whether the fault lies in the text, and not in a value that was calculated. -/
def Cause.ofText : Cause → Bool
  | unknownFunction _ | arityMismatch _ _ | openBracket _ | openArguments _ | endOfInput | unexpected _
  | lonePoint | trailing _ | tooDeep _ | beyondReach => true
  | divisionByZero | integerDivisionByZero | noRealPart | invalidFactorial | mishap _ _ | notReal
  | unknownIdentifier _ => false

/-- A cause that is reported does not lie in the text. -/
def Calculates {α : Type} (result : Except Failure α) : Prop :=
  ∀ cause, result = .error (.cause cause) → cause.ofText = false

theorem calculates_ok {α : Type} (a : α) : Calculates (.ok a) := by
  intro cause h
  cases h

theorem calculates_cause {α : Type} {cause : Cause} (h : cause.ofText = false) :
    Calculates (.error (.cause cause) : Except Failure α) := by
  rintro cause' ⟨⟩
  exact h

theorem Calculates.bind {α β : Type} {result : Except Failure α} {f : α → Except Failure β}
    (h : Calculates result) (hNext : ∀ a, Calculates (f a)) : Calculates (result >>= f) := by
  intro cause hBind
  rcases bind_eq_error_iff.mp hBind with hError | ⟨a, -, hError⟩
  · exact h cause hError
  · exact hNext a cause hError

theorem Calculates.map {α β : Type} {result : Except Failure α} (h : Calculates result) (f : α → β) :
    Calculates (f <$> result) := fun cause hMap => h cause (map_eq_error_iff.mp hMap)

namespace Arithmetic

variable (A : Arithmetic)

theorem calculates_during {α : Type} (what : Calculation) (result : Except Mishap α) :
    Calculates (during what result) := by
  cases result with
  | ok a => exact calculates_ok a
  | error m => exact calculates_cause rfl

theorem calculates_coerce (a : Number) : Calculates (A.coerce a) := by
  unfold coerce
  split
  · exact calculates_ok _
  · exact calculates_cause rfl
  · exact calculates_ok _

theorem calculates_magnitude (a : Number) : Calculates (magnitude a) := by
  unfold magnitude
  split
  · exact calculates_ok _
  · intro cause h
    cases h

theorem calculates_isZero (a : Number) : Calculates (A.isZero a) := by
  unfold isZero
  split
  · exact calculates_ok _
  · split
    · exact calculates_ok _
    · exact (calculates_magnitude a).bind fun _ => calculates_ok _

theorem calculates_negate (a : Number) : Calculates (A.negate a) := by
  unfold negate
  split <;> exact A.calculates_coerce _

theorem calculates_div (a b : Number) : Calculates (A.div a b) := by
  refine (A.calculates_isZero b).bind fun zero => ?_
  cases zero with
  | true => exact calculates_cause rfl
  | false => exact A.calculates_coerce _

theorem calculates_floorDiv (a b : Number) : Calculates (A.floorDiv a b) := by
  refine (A.calculates_isZero b).bind fun zero => ?_
  cases zero with
  | true => exact calculates_cause rfl
  | false =>
    simp only [Bool.false_eq_true, if_false]
    split
    · exact calculates_ok _
    · exact calculates_cause rfl
    · split
      · exact calculates_cause rfl
      · split
        · exact calculates_cause rfl
        · exact calculates_ok _

theorem calculates_pow (a b : Number) : Calculates (A.pow a b) :=
  (calculates_during _ _).bind A.calculates_coerce

theorem calculates_root (a n : Number) : Calculates (A.root a n) :=
  (A.calculates_div _ _).bind fun _ => A.calculates_pow _ _

theorem calculates_factorial (a : Number) (negated : Bool) : Calculates (A.factorial a negated) := by
  unfold factorial
  split
  · exact calculates_cause rfl
  · exact (calculates_during _ _).bind fun _ => A.calculates_coerce _

theorem calculates_unary (f : Unary) (a : Number) : Calculates (A.unary f a) := by
  unfold unary
  split
  · exact (calculates_during _ _).map _
  · exact calculates_cause rfl
  · exact (calculates_during _ _).map _

end Arithmetic

namespace Expression

variable {A : Arithmetic}

theorem Operator.calculates_apply (op : Operator) (a b : Number) : Calculates (op.apply A a b) := by
  cases op with
  | add | sub | mul => exact A.calculates_coerce _
  | div => exact A.calculates_div a b
  | floorDiv => exact A.calculates_floorDiv a b
  | pow => exact A.calculates_pow a b

theorem Action.calculates_apply (action : Action) (stack : Stack) : Calculates (action.apply A stack) := by
  unfold apply
  split
  · exact (A.calculates_coerce _).map _
  · split
    · exact calculates_ok _
    · exact calculates_cause rfl
  · exact (Operator.calculates_apply _ _ _).map _
  · exact (A.calculates_negate _).map _
  · exact (A.calculates_factorial _ _).map _
  · exact (A.calculates_coerce _).map _
  · exact (A.calculates_unary _ _).map _
  · exact (A.calculates_root _ _).map _
  · exact calculates_ok _

theorem Operates.ofText_eq_false {cause : Cause} (h : Operates A (.cause cause)) : cause.ofText = false := by
  obtain ⟨action, stack, hFails⟩ := h
  exact Action.calculates_apply action stack cause hFails

theorem Reading.outcome_bind_eq_error {α β : Type} {m : Reading α} {f : α → Reading β} {e : Complaint}
    (h : (m >>= f).outcome = .error e) :
    m.outcome = .error e ∨ ∃ a, m.outcome = .ok a ∧ (f a).outcome = .error e := by
  cases hOutcome : m.outcome with
  | error complaint =>
    rw [bind_of_error hOutcome] at h
    cases h
    exact .inl rfl
  | ok a =>
    rw [bind_of_ok hOutcome] at h
    exact .inr ⟨a, rfl, h⟩

mutual
/-- What the code of a tree complains of is the use of a function. -/
theorem Tree.kind_of_emit {t : Tree} {e : Complaint} (h : t.emit.outcome = .error e) :
    e.cause.kind = .unknownFunction ∨ e.cause.kind = .arityMismatch := by
  cases t with
  | literal | name => cases h
  | call word args start opening next =>
    rw [emit] at h
    split at h
    · cases h
      exact .inl rfl
    · rcases Reading.outcome_bind_eq_error h with hArguments | ⟨-, -, hCount⟩
      · exact kind_of_emitAll hArguments
      · split at hCount
        · cases hCount
        · cases hCount
          exact .inr rfl
  | group b t => exact kind_of_emit (t := t) h
  | factorial negated t next | percent t next | negate t next =>
    rcases Reading.outcome_bind_eq_error h with hOperand | ⟨-, -, hEmit⟩
    · exact kind_of_emit (t := t) hOperand
    · cases hEmit
  | binary op a b next =>
    rcases Reading.outcome_bind_eq_error h with hLeft | ⟨-, -, hRest⟩
    · exact kind_of_emit (t := a) hLeft
    · rcases Reading.outcome_bind_eq_error hRest with hRight | ⟨-, -, hEmit⟩
      · exact kind_of_emit (t := b) hRight
      · cases hEmit

theorem Tree.kind_of_emitAll {ts : List Tree} {e : Complaint} (h : (emitAll ts).outcome = .error e) :
    e.cause.kind = .unknownFunction ∨ e.cause.kind = .arityMismatch := by
  cases ts with
  | nil => cases h
  | cons t ts =>
    rcases Reading.outcome_bind_eq_error h with hFirst | ⟨-, -, hOthers⟩
    · exact kind_of_emit (t := t) hFirst
    · exact kind_of_emitAll hOthers
end

/-- A tree is at fault for its operations and for the functions it calls. -/
theorem Tree.cause_of_eval {t : Tree} {cause : Cause} {position reached : Nat}
    (h : t.eval A = .error ⟨.cause cause, position, reached⟩) : cause.ofText = false ∨
      cause.kind = .unknownFunction ∨ cause.kind = .arityMismatch := by
  have hExecute := execute_tree (A := A) t []
  rw [h] at hExecute
  rcases execute_eq_error_iff.mp hExecute with hRun | ⟨stack', e, -, hOutcome, hStop⟩
  · obtain ⟨before, i, after, stack', failure, -, -, hFails, hStop⟩ := run_eq_error_iff.mp hRun
    cases hStop
    exact .inl (Operates.ofText_eq_false ⟨i.action, stack', hFails⟩)
  · cases hStop
    exact .inr (kind_of_emit hOutcome)

end Expression
end Reckon
