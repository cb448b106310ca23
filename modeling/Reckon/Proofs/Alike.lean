import Reckon.Proofs.DepthLimit
import Reckon.Proofs.Expression.Pairs

/-! # Evaluations that end alike

What two evaluations have in common where their texts are not the same: the value, or the fault but for its
offset, or the exception.
-/
namespace Reckon
set_option autoImplicit false
open Expression

/-- The same value, faults of one kind and message whose offsets belong together, or the same exception. -/
inductive Alike (place : Nat → Nat → Prop) :
    Except Interruption Outcome → Except Interruption Outcome → Prop
  | value {text text' : String} (x : Number) : Alike place (.ok ⟨text, .ok x⟩) (.ok ⟨text', .ok x⟩)
  | fault {text text' : String} (kind : FaultKind) (message : String) {p q : Nat} (h : place p q) :
      Alike place (.ok ⟨text, .error ⟨kind, message, p⟩⟩) (.ok ⟨text', .error ⟨kind, message, q⟩⟩)
  | interruption (i : Interruption) : Alike place (.error i) (.error i)

/-- The evaluation is refused for its nesting. -/
def DeepFault (result : Except Interruption Outcome) : Prop :=
  ∃ text fault, result = .ok ⟨text, .error fault⟩ ∧ fault.kind = .tooDeep

theorem not_deepFault {text : String} {fault : Fault} (hKind : fault.kind ≠ .tooDeep) :
    ¬ DeepFault (.ok ⟨text, .error fault⟩) := by
  rintro ⟨_, _, hFault, hDeep⟩
  cases hFault
  exact hKind hDeep

theorem not_deepFault_of_value {text : String} {x : Number} : ¬ DeepFault (.ok ⟨text, .ok x⟩) := by
  rintro ⟨_, _, hFault, -⟩
  cases hFault

namespace Alike

variable {place : Nat → Nat → Prop} {result result' result'' : Except Interruption Outcome}

theorem of_cause (place : Nat → Nat → Prop) {text text' : String} (cause : Cause) {p q : Nat}
    (h : place p q) :
    Alike place (.ok ⟨text, .error (cause.fault p)⟩) (.ok ⟨text', .error (cause.fault q)⟩) :=
  .fault _ _ h

theorem symm (h : Alike place result result') (hPlace : ∀ p q, place p q → place q p) :
    Alike place result' result := by
  cases h with
  | value x => exact .value x
  | fault kind message h => exact .fault kind message (hPlace _ _ h)
  | interruption i => exact .interruption i

theorem trans (h : Alike place result result') (h' : Alike place result' result'')
    (hPlace : ∀ p q r, place p q → place q r → place p r) : Alike place result result'' := by
  generalize hMiddle : result' = middle at h'
  cases h with
  | value x =>
    cases h' <;> cases hMiddle
    exact .value x
  | @fault _ _ kind message p q h =>
    cases h' with
    | value | interruption => cases hMiddle
    | fault kind' message' h' =>
      simp only [Except.ok.injEq, Outcome.mk.injEq, Except.error.injEq, Fault.mk.injEq, Int.ofNat_inj] at hMiddle
      obtain ⟨-, rfl, rfl, rfl⟩ := hMiddle
      exact .fault kind message (hPlace _ _ _ h h')
  | interruption i =>
    cases h' <;> cases hMiddle
    exact .interruption i

end Alike

theorem alike_self [Interpreter] {place : Nat → Nat → Prop} (hPlace : ∀ p, place p p) (settings : Settings)
    (text : String) :
    Alike place (evaluate settings text) (evaluate settings text) := by
  rw [evaluate_eq_outcomeOf]
  generalize valueWithin settings.arithmetic _ _ text.toList = result
  rcases result with ⟨cause | _, position, reached⟩ | x
  · exact .of_cause place cause (hPlace position)
  · exact .interruption .modulusOverflow
  · exact .value x

/-- Evaluations whose executions end alike end alike, unless one of them ends with an excused stop. -/
theorem alike_of_matches [Interpreter] {E : Pairing} {settings : Settings} {text text' : String}
    (h : E.Matches (fun _ _ => True)
      (execute settings.arithmetic
        (readWithin (tooDeep settings.maxDepth) (levels settings.maxDepth) ⟨0, text.toList⟩) [])
      (execute settings.arithmetic
        (readWithin (tooDeep settings.maxDepth) (levels settings.maxDepth) ⟨0, text'.toList⟩) [])) :
    Alike E.place (evaluate settings text) (evaluate settings text') ∨ ∃ stop, E.excused stop ∧
      (evaluate settings text = outcomeOf text (.error stop) ∨
        evaluate settings text' = outcomeOf text' (.error stop)) := by
  rw [evaluate_eq_outcomeOf, evaluate_eq_outcomeOf, valueWithin, valueWithin]
  generalize execute settings.arithmetic (readWithin _ _ ⟨0, text.toList⟩) [] = result at h ⊢
  generalize execute settings.arithmetic (readWithin _ _ ⟨0, text'.toList⟩) [] = result' at h ⊢
  cases h with
  | ok h => exact .inl (.value _)
  | @error failure p q reached reached' h =>
    cases failure with
    | cause cause => exact .inl (.of_cause E.place cause h)
    | modulusOverflow => exact .inl (.interruption .modulusOverflow)
  | left h => exact .inr ⟨_, h, .inl rfl⟩
  | right h => exact .inr ⟨_, h, .inr rfl⟩

end Reckon
