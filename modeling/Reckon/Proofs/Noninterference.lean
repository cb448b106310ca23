import Reckon.Proofs.Causes
import Reckon.Proofs.SyntaxFaults

/-! # Values do not steer the reading

A text is read before anything is calculated, so mode and epsilon decide only whether an instruction fails.
Two evaluations of a text that do not fail in a calculation, nor for the one name that a mode can lack, come
to the same end.
-/
namespace Reckon
set_option autoImplicit false
open Expression

theorem Constant.ofName?_of_ne {name : String} (h : name ≠ "i") (mode mode' : Mode) :
    ofName? mode name = ofName? mode' name := by
  have hImaginary : (Constant.i.name == name) = false := beq_eq_false_iff_ne.mpr h.symm
  have hComplex : ofName? .complex name = ofName? .real name := by
    rw [ofName?, show all .complex = all .real ++ [i] from rfl, List.find?_append,
      List.find?_singleton, hImaginary]
    exact Option.or_none
  cases mode <;> cases mode' <;> simp only [hComplex]

namespace Expression

variable {A A' : Arithmetic} {code : List Instruction} {stack stack' : Stack}

/-- No calculation failed, and what is missing is not the name `i`. -/
def Stop.Settled (stop : Stop) : Prop :=
  ∃ cause, stop.failure = .cause cause ∧ cause.kind.arithmetic = false ∧ cause ≠ .unknownIdentifier "i"

/-- An instruction that fails without a calculation fails in every arithmetic. -/
theorem Action.apply_of_settled {i : Instruction} {failure : Failure}
    (h : i.action.apply A stack = .error failure)
    (hSettled : Stop.Settled ⟨failure, i.position, i.reached⟩) :
    i.action.apply A' stack' = .error failure := by
  obtain ⟨cause, rfl, hKind, hName⟩ := hSettled
  rcases Action.cause_of_apply h with hArithmetic | ⟨name, hAction, hUnknown, rfl⟩
  · rw [hArithmetic] at hKind
    cases hKind
  · have hOther : name ≠ "i" := fun hSame => hName (congrArg Cause.unknownIdentifier hSame)
    rw [Constant.ofName?_of_ne hOther A.mode A'.mode] at hUnknown
    rw [hAction, Action.apply, hUnknown]

/-- The first instruction that fails is the same one, for the induction goes on only where both succeed. -/
theorem run_settled (h : ∀ stop, run A code stack = .error stop → stop.Settled)
    (h' : ∀ stop, run A' code stack' = .error stop → stop.Settled) :
    (∃ s s', run A code stack = .ok s ∧ run A' code stack' = .ok s') ∨
      ∃ stop, run A code stack = .error stop ∧ run A' code stack' = .error stop := by
  induction code generalizing stack stack' with
  | nil => exact .inl ⟨stack, stack', rfl, rfl⟩
  | cons i code ih =>
    simp only [run] at h h' ⊢
    cases hFirst : i.action.apply A stack with
    | error failure =>
      rw [hFirst] at h
      rw [Action.apply_of_settled hFirst (h _ rfl)]
      exact .inr ⟨_, rfl, rfl⟩
    | ok next =>
      cases hSecond : i.action.apply A' stack' with
      | error failure =>
        rw [hSecond] at h'
        rw [Action.apply_of_settled hSecond (h' _ rfl)] at hFirst
        cases hFirst
      | ok next' =>
        rw [hFirst] at h
        rw [hSecond] at h'
        exact ih h h'

theorem value_settled [Interpreter] {limit : Int} {text : List Char}
    (h : ∀ stop, value A limit text = .error stop → stop.Settled)
    (h' : ∀ stop, value A' limit text = .error stop → stop.Settled) :
    (∃ x x', value A limit text = .ok x ∧ value A' limit text = .ok x') ∨
      ∃ stop, value A limit text = .error stop ∧ value A' limit text = .error stop := by
  have hRun (A : Arithmetic) (stop : Stop) (hStop : run A (read limit text).code [] = .error stop) :
      value A limit text = .error stop := by
    simp only [value, hStop]
  rcases run_settled (fun stop hStop => h stop (hRun A stop hStop))
    (fun stop hStop => h' stop (hRun A' stop hStop)) with ⟨s, s', hOk, hOk'⟩ | ⟨stop, hStop, hStop'⟩
  · cases hOutcome : (read limit text).outcome with
    | ok u => exact .inl ⟨s.headD default, s'.headD default, by simp only [value, hOk, hOutcome],
        by simp only [value, hOk', hOutcome]⟩
    | error e => exact .inr ⟨e.stop, by simp only [value, hOk, hOutcome],
        by simp only [value, hOk', hOutcome]⟩
  · exact .inr ⟨stop, hRun A stop hStop, hRun A' stop hStop'⟩

end Expression

/-- The evaluation ends with a value, or with a fault that is no matter of arithmetic and not the fault that
    `i` is unknown. -/
def Settles (result : Except Interruption Outcome) : Prop :=
  ∃ o, result = .ok o ∧ ∀ fault, o.result = .error fault → fault.kind.arithmetic = false ∧
    ¬ (fault.kind = .unknownIdentifier ∧ fault.message = (Cause.unknownIdentifier "i").message)

theorem settled_of_settles [Interpreter] {settings : Settings} {text : String}
    (h : Settles (evaluate settings text))
    (stop : Stop) (hStop : value settings.arithmetic settings.maxDepth text.toList = .error stop) :
    stop.Settled := by
  obtain ⟨o, hOutcome, hFault⟩ := h
  unfold evaluate at hOutcome
  rw [hStop] at hOutcome
  obtain ⟨failure, position, reached⟩ := stop
  cases failure with
  | modulusOverflow => cases hOutcome
  | cause cause =>
    cases hOutcome
    obtain ⟨hKind, hName⟩ := hFault _ rfl
    refine ⟨cause, rfl, hKind, ?_⟩
    rintro rfl
    exact hName ⟨rfl, rfl⟩

/-- With one limit on nesting and any modes and epsilons, evaluations of a text that do not end in a
    calculation or for want of `i` both give a value or both give the same fault. -/
theorem evaluate_settles [Interpreter] (settings settings' : Settings) (text : String)
    (hDepth : settings'.maxDepth = settings.maxDepth) (h : Settles (evaluate settings text))
    (h' : Settles (evaluate settings' text)) :
    (∃ x x', evaluate settings text = .ok ⟨text, .ok x⟩ ∧ evaluate settings' text = .ok ⟨text, .ok x'⟩) ∨
      ∃ fault, evaluate settings text = .ok ⟨text, .error fault⟩ ∧
        evaluate settings' text = .ok ⟨text, .error fault⟩ := by
  have hStops' := settled_of_settles h'
  rw [hDepth] at hStops'
  rcases value_settled (settled_of_settles h) hStops' with ⟨x, x', hValue, hValue'⟩ | ⟨stop, hStop, hStop'⟩
  · rw [← hDepth] at hValue'
    exact .inl ⟨x, x', evaluate_value_iff.mpr hValue, evaluate_value_iff.mpr hValue'⟩
  · obtain ⟨cause, hCause, -, -⟩ := settled_of_settles h stop hStop
    obtain ⟨failure, position, reached⟩ := stop
    cases hCause
    rw [← hDepth] at hStop'
    exact .inr ⟨cause.fault position, evaluate_fault_iff.mpr ⟨cause, position, reached, rfl, hStop⟩,
      evaluate_fault_iff.mpr ⟨cause, position, reached, rfl, hStop'⟩⟩

theorem settles_of_fault [Interpreter] {settings : Settings} {text : String} {fault : Fault}
    (h : evaluate settings text = .ok ⟨text, .error fault⟩) (hKind : fault.kind.syntactic = true) :
    Settles (evaluate settings text) := by
  refine ⟨_, h, ?_⟩
  rintro _ ⟨⟩
  constructor
  · revert hKind
    cases fault.kind <;> decide
  · rintro ⟨hName, -⟩
    rw [hName] at hKind
    cases hKind

theorem evaluate_settles_open_bracket :
    evaluate { mode := .real, epsilon := 0 } "7//2+sqrt(9)-(pi" =
      .ok ⟨"7//2+sqrt(9)-(pi", .error ((Cause.openBracket .round).fault 16)⟩ ∧
    ∃ fault, evaluate { mode := .real, epsilon := 0 } "7//2+sqrt(9)-(pi" =
        .ok ⟨"7//2+sqrt(9)-(pi", .error fault⟩ ∧
      evaluate { epsilon := 1 } "7//2+sqrt(9)-(pi" = .ok ⟨"7//2+sqrt(9)-(pi", .error fault⟩ := by
  have hReal : evaluate { mode := .real, epsilon := 0 } "7//2+sqrt(9)-(pi" =
      .ok ⟨"7//2+sqrt(9)-(pi", .error ((Cause.openBracket .round).fault 16)⟩ := by decide +kernel
  have hComplex : evaluate { epsilon := 1 } "7//2+sqrt(9)-(pi" =
      .ok ⟨"7//2+sqrt(9)-(pi", .error ((Cause.openBracket .round).fault 16)⟩ := by decide +kernel
  have hEither := evaluate_settles { mode := .real, epsilon := 0 } { epsilon := 1 } "7//2+sqrt(9)-(pi" rfl
    (settles_of_fault hReal (by decide)) (settles_of_fault hComplex (by decide))
  refine ⟨hReal, hEither.resolve_left ?_⟩
  rintro ⟨x, x', hValue, -⟩
  rw [hReal] at hValue
  cases hValue

end Reckon
