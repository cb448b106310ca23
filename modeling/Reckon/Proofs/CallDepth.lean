import Reckon.Proofs.DepthLimit
import Reckon.Proofs.Expression.Strides

/-! # How deep calls go

Reading and calculating take turns, and a failed calculation ends both. Up to there the cursor has only moved forward,
and the calls in progress have never been more than seven for each level of nesting and two, however long the text is.
-/
namespace Reckon
set_option autoImplicit false
open Expression

namespace Expression

variable {A : Arithmetic} {stack : Stack} {steps : List Step}

/-! ## Calculating on the way -/

/-- The steps up to the first one that fails to calculate. -/
def performed (A : Arithmetic) : Stack → List Step → List Step
  | _, [] => []
  | stack, step :: steps =>
    match step.instruction? with
    | none => step :: performed A stack steps
    | some i =>
      match i.action.apply A stack with
      | .ok stack => step :: performed A stack steps
      | .error _ => [step]

theorem performed_eq_take (A : Arithmetic) (stack : Stack) (steps : List Step) :
    ∃ n, performed A stack steps = steps.take n := by
  induction steps generalizing stack with
  | nil => exact ⟨0, rfl⟩
  | cons step steps ih =>
    rw [performed]
    split
    · obtain ⟨n, hMore⟩ := ih stack
      exact ⟨n + 1, by rw [hMore, List.take_succ_cons]⟩
    · split
      · rename_i stack' _
        obtain ⟨n, hMore⟩ := ih stack'
        exact ⟨n + 1, by rw [hMore, List.take_succ_cons]⟩
      · exact ⟨1, rfl⟩

/-- The steps behind these do not matter to what is calculated. -/
theorem run_performed (A : Arithmetic) (stack : Stack) (steps : List Step) :
    run A ((performed A stack steps).filterMap Step.instruction?) stack =
      run A (steps.filterMap Step.instruction?) stack := by
  induction steps generalizing stack with
  | nil => rfl
  | cons step steps ih =>
    rw [performed]
    split
    · rename_i hNone
      rw [List.filterMap_cons_none hNone, List.filterMap_cons_none hNone]
      exact ih stack
    · rename_i i hSome
      split
      · rename_i stack' hApply
        rw [List.filterMap_cons_some hSome, List.filterMap_cons_some hSome, run, run, hApply]
        exact ih stack'
      · rename_i failure hApply
        rw [List.filterMap_cons_some hSome, List.filterMap_cons_some hSome, run, run, hApply]

/-! ## The walk of a text -/

/-- The walk through a text with so many places for calls. -/
def walkOf (overflow deep : Cause) (places room : Nat) (text : List Char) : Walk Cursor :=
  visit overflow deep places .parse room ⟨0, text⟩

variable {overflow deep : Cause} {places room : Nat} {text : List Char}

theorem reading_walkOf (h : 7 * room + 2 ≤ places) :
    (walkOf overflow deep places room text).reading = readWithin deep room ⟨0, text⟩ :=
  reading_visit overflow deep h _

theorem progresses_walkOf (overflow deep : Cause) (places room : Nat) (text : List Char) :
    ∃ stop ≤ text.length, Progresses 0 (walkOf overflow deep places room text).steps stop := by
  have hSafe : (walkOf overflow deep places room text).Safe places 1 ⟨0, text⟩ id :=
    safe_visit overflow deep places trivial
  cases hOutcome : (walkOf overflow deep places room text).outcome with
  | ok c =>
    have hEnd := (hSafe.ahead c hOutcome).end_eq
    exact ⟨c.position, by simp only [id_eq] at hEnd; omega, hSafe.steps c hOutcome⟩
  | error e => exact ⟨_, by simp, hSafe.error e hOutcome⟩

theorem length_chainAfter_walkOf (h : 7 * room + 2 ≤ places) (n : Nat) :
    (chainAfter [] ((walkOf overflow deep places room text).steps.take n)).length ≤ 7 * room + 2 := by
  have hSame : visit overflow deep places .parse room = visit overflow deep (7 * room + 2) .parse room :=
    visit_eq_of_places overflow deep h (Nat.le_refl _)
  have hSafe : (visit overflow deep (7 * room + 2) .parse room ⟨0, text⟩).Safe (7 * room + 2) 1 ⟨0, text⟩ id :=
    safe_visit overflow deep _ trivial
  rw [walkOf, hSame]
  exact Nat.le_trans (hSafe.bounded [] n) (Nat.le_of_eq (Nat.zero_add _))

end Expression

/-! ## Texts that nest beyond reach -/

/-- The text is refused because it nests deeper than any text can be read. -/
def Overruns [Interpreter] (settings : Settings) (text : String) : Prop :=
  ∃ p, evaluate settings text = .ok ⟨text, .error (Cause.beyondReach.fault p)⟩

theorem Cause.message_tooDeep_ne (limit : Int) : (tooDeep limit).message ≠ beyondReach.message := by
  intro h
  change "expression nested deeper than " ++ toString limit ++ " levels" = "expression nested too deeply" at h
  have hFront := congrArg (List.take 20) (congrArg String.toList h)
  rw [String.toList_append, String.toList_append, List.append_assoc,
    List.take_append_of_le_length (by decide +kernel)] at hFront
  exact absurd hFront (by decide +kernel)

theorem Cause.eq_beyondReach {cause : Cause} {p q : Nat} (h : cause.fault p = beyondReach.fault q) :
    cause = beyondReach := by
  have hKind : cause.kind = .tooDeep := congrArg Fault.kind h
  cases cause with
  | beyondReach => rfl
  | tooDeep limit => exact absurd (congrArg Fault.message h) (message_tooDeep_ne limit)
  | mishap during what => cases what <;> cases hKind
  | _ => cases hKind

theorem overruns_iff [Interpreter] {settings : Settings} {text : String} : Overruns settings text ↔ ∃ p reached,
    value settings.arithmetic settings.maxDepth text.toList = .error ⟨.cause .beyondReach, p, reached⟩ := by
  constructor
  · rintro ⟨_, hOutcome⟩
    obtain ⟨cause, p, reached, hFault, hValue⟩ := evaluate_fault_iff.mp hOutcome
    rw [Cause.eq_beyondReach hFault.symm] at hValue
    exact ⟨p, reached, hValue⟩
  · rintro ⟨p, reached, hValue⟩
    exact ⟨p, evaluate_fault_iff.mpr ⟨.beyondReach, p, reached, rfl, hValue⟩⟩

/-- Only brackets, calls and powers lead there, not the length of the text. -/
theorem balance_of_overruns [Interpreter] {settings : Settings} {text : String} (h : Overruns settings text) :
    reach < settings.maxDepth ∧ ∃ n, reach ≤ balance (text.toList.take n) := by
  obtain ⟨p, reached, hValue⟩ := overruns_iff.mp h
  rw [value_eq_valueWithin] at hValue
  obtain ⟨hDeep, -, o, hAwaits, -⟩ := awaits_of_tooDeep rfl hValue
  have hLimit : reach < settings.maxDepth := by
    by_contra hLimit
    rw [tooDeep, if_pos (Int.not_lt.mp hLimit)] at hDeep
    cases hDeep
  have hLevels : levels settings.maxDepth = reach := by
    rw [levels]
    omega
  rw [hLevels] at hAwaits
  exact ⟨hLimit, o.position, hAwaits.le_balance⟩

/-- Within reach a text has the value that it has within its limit. -/
theorem evaluate_of_not_overruns [Interpreter] {settings : Settings} {text : String}
    (h : ¬ Overruns settings text) :
    evaluate settings text = outcomeOf text (valueWithin settings.arithmetic (.tooDeep settings.maxDepth)
      settings.maxDepth.toNat text.toList) := by
  rw [evaluate_eq_outcomeOf]
  by_cases hReach : settings.maxDepth ≤ reach
  · have hLevels : levels settings.maxDepth = settings.maxDepth.toNat := by
      rw [levels]
      omega
    rw [tooDeep, if_pos hReach, hLevels]
  · have hLevels : levels settings.maxDepth ≤ settings.maxDepth.toNat := Nat.min_le_left _ _
    rcases valueWithin_cut (A := settings.arithmetic) (tooDeep settings.maxDepth) (.tooDeep settings.maxDepth) hLevels
      text.toList with hSame | ⟨p, hCut, -⟩
    · rw [hSame]
    · rw [← value_eq_valueWithin, tooDeep, if_neg hReach] at hCut
      exact absurd (overruns_iff.mpr ⟨p, p, hCut⟩) h

/-! ## Walks of texts -/

/-- With seven places for each level and two more, a walk reads what is read, as no call is without a place and no loop
    cut short. It only leads forward and never past the end of the text; calls that return and turns of loops move the
    cursor; and no more calls are open at a time than there are these places. Short of the limit on nesting itself the
    outcome is that of the walk, and a text that nests beyond reach has opened that many levels. -/
theorem evaluate_walk [Interpreter] (settings : Settings) (text : String) (overflow : Cause) (spare : Nat) :
    let places := 7 * (max settings.maxDepth 0).toNat + 2
    let walk := walkOf overflow (.tooDeep settings.maxDepth) (places + spare) settings.maxDepth.toNat text.toList
    let steps := performed settings.arithmetic [] walk.steps
    walk.reading = readWithin (.tooDeep settings.maxDepth) settings.maxDepth.toNat ⟨0, text.toList⟩ ∧
      (¬ Overruns settings text → evaluate settings text = outcomeOf text
        ((fun r => r.2.headD default) <$> execute settings.arithmetic walk.reading [])) ∧
      run settings.arithmetic (steps.filterMap Step.instruction?) [] = run settings.arithmetic walk.reading.code [] ∧
      (steps.map Step.position).Pairwise (· ≤ ·) ∧
      (∀ step ∈ steps, step.position ≤ text.toList.length ∧ step.Moves) ∧
      (∀ n, (chainAfter [] (steps.take n)).length ≤ places) ∧
      (Overruns settings text → reach < settings.maxDepth ∧ ∃ n, reach ≤ balance (text.toList.take n)) := by
  intro places walk steps
  have hPlaces : 7 * settings.maxDepth.toNat + 2 ≤ places + spare := by omega
  have hReading : walk.reading = readWithin (.tooDeep settings.maxDepth) settings.maxDepth.toNat ⟨0, text.toList⟩ :=
    reading_walkOf hPlaces
  obtain ⟨stop, hStop, hProgresses⟩ : ∃ stop ≤ text.toList.length, Progresses 0 walk.steps stop :=
    progresses_walkOf _ _ _ _ _
  obtain ⟨n, hSteps⟩ : ∃ n, steps = walk.steps.take n := performed_eq_take _ _ _
  refine ⟨hReading, fun h => ?_, run_performed _ _ _, ?_, fun step hMember => ?_, fun m => ?_, balance_of_overruns⟩
  · rw [hReading]
    exact evaluate_of_not_overruns h
  · rw [hSteps, List.map_take]
    exact hProgresses.pairwise.sublist (List.take_sublist _ _)
  · rw [hSteps] at hMember
    obtain ⟨-, hBefore, hMoves⟩ := hProgresses.forall step (List.mem_of_mem_take hMember)
    exact ⟨Nat.le_trans hBefore hStop, hMoves⟩
  · rw [hSteps, List.take_take]
    have hChain : (chainAfter [] (walk.steps.take (min m n))).length ≤ 7 * settings.maxDepth.toNat + 2 :=
      length_chainAfter_walkOf hPlaces _
    exact Nat.le_trans hChain (by omega)

/-- All these calls can be open at a time. -/
example : (chainAfter [] (walkOf .beyondReach (.tooDeep 1) 9 1 "sqrt(1)".toList).steps).length = 9 := by decide +kernel

end Reckon
