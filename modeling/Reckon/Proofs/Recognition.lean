import Reckon.Proofs.Expression.Completeness
import Reckon.Proofs.Expression.Execution
import Reckon.Proofs.Expression.FirstFailure
import Reckon.Proofs.Expression.Soundness

/-! # Evaluation by trees

A text has a value if and only if it has a known tree of small enough nesting that has this value. If
it has such a tree but no value, the fault reported is that of the tree's first failure.
-/
namespace Reckon
set_option autoImplicit false
open Expression

/-! ## The value of a text -/

theorem value_of_parses [Interpreter] {A : Arithmetic} {limit : Int} {text : List Char} {t : Tree}
    (h : Parses text t)
    (hNesting : t.nesting ≤ levels limit) : value A limit text = t.eval A := by
  rw [value_eq_execute, read_of_parses h hNesting, Tree.headD_execute]

theorem value_eq_ok_iff [Interpreter] {A : Arithmetic} {limit : Int} {text : List Char} {x : Number} :
    value A limit text = .ok x ↔
      ∃ t, Parses text t ∧ t.nesting ≤ levels limit ∧ t.eval A = .ok x := by
  constructor
  · intro h
    have hRead : (read limit text).outcome = .ok () := by
      rw [value_eq_execute, map_eq_ok_iff] at h
      obtain ⟨⟨⟨⟩, stack⟩, hExecute, -⟩ := h
      obtain ⟨stack', -, hOutcome⟩ := bind_eq_ok_iff.mp hExecute
      split at hOutcome
      · assumption
      · cases hOutcome
    obtain ⟨t, hParses, hNesting⟩ := parses_of_read hRead
    exact ⟨t, hParses, hNesting, (value_of_parses hParses hNesting).symm.trans h⟩
  · rintro ⟨t, hParses, hNesting, hValue⟩
    exact (value_of_parses hParses hNesting).trans hValue

/-! ## Outcomes -/

theorem evaluate_value_iff [Interpreter] {settings : Settings} {text : String} {x : Number} :
    evaluate settings text = .ok ⟨text, .ok x⟩ ↔
      value settings.arithmetic settings.maxDepth text.toList = .ok x := by
  unfold evaluate
  split
  · rename_i hValue
    simp [hValue]
  · rename_i hValue
    simp [hValue]
  · rename_i hValue
    simp [hValue]

theorem evaluate_fault_iff [Interpreter] {settings : Settings} {text : String} {fault : Fault} :
    evaluate settings text = .ok ⟨text, .error fault⟩ ↔
      ∃ cause position reached, fault = cause.fault position ∧
        value settings.arithmetic settings.maxDepth text.toList =
          .error ⟨.cause cause, position, reached⟩ := by
  unfold evaluate
  split
  · rename_i hValue
    simp [hValue]
  · rename_i cause position reached hValue
    rw [hValue]
    constructor
    · intro h
      cases h
      exact ⟨cause, position, reached, rfl, rfl⟩
    · rintro ⟨cause', position', reached', rfl, h⟩
      cases h
      rfl
  · rename_i hValue
    simp [hValue]

theorem evaluate_interruption_iff [Interpreter] {settings : Settings} {text : String} :
    evaluate settings text = .error .modulusOverflow ↔
      ∃ position reached, value settings.arithmetic settings.maxDepth text.toList =
        .error ⟨.modulusOverflow, position, reached⟩ := by
  unfold evaluate
  split
  · rename_i hValue
    simp [hValue]
  · rename_i hValue
    simp [hValue]
  · rename_i position reached hValue
    simp [hValue]

theorem nesting_le_levels_iff [Interpreter] {t : Tree} {limit : Int} :
    t.nesting ≤ levels limit ↔ (t.nesting : Int) ≤ limit ∧ t.nesting ≤ reach := by
  rw [Tree.nesting, levels]
  omega

/-- Evaluation succeeds exactly on the texts with a tree whose names are known, whose calls have as
    many arguments as they take, which nests no deeper than is allowed, and whose operations all
    succeed; and it gives the value of that tree. -/
theorem evaluate_eq_ok_iff [Interpreter] (settings : Settings) (text : String) (x : Number) :
    evaluate settings text = .ok ⟨text, .ok x⟩ ↔
      ∃ t, Parses text.toList t ∧ t.known settings.mode = true ∧
        (t.nesting : Int) ≤ settings.maxDepth ∧ t.nesting ≤ reach ∧
          t.eval settings.arithmetic = .ok x := by
  rw [evaluate_value_iff, value_eq_ok_iff]
  constructor
  · rintro ⟨t, hParses, hNesting, hValue⟩
    obtain ⟨hDepth, hReach⟩ := nesting_le_levels_iff.mp hNesting
    exact ⟨t, hParses, Tree.known_of_eval hValue, hDepth, hReach, hValue⟩
  · rintro ⟨t, hParses, -, hDepth, hReach, hValue⟩
    exact ⟨t, hParses, nesting_le_levels_iff.mpr ⟨hDepth, hReach⟩, hValue⟩

/-- A well-formed text is evaluated as its tree is: to the value of the tree, or to the fault of the
    operation that fails first in post-order, at the offset that the grammar gives to it. -/
theorem evaluate_of_parses [Interpreter] (settings : Settings) (text : String) (t : Tree)
    (hParses : Parses text.toList t) (hKnown : t.known settings.mode = true)
    (hDepth : (t.nesting : Int) ≤ settings.maxDepth) (hReach : t.nesting ≤ reach) :
    (∀ x, evaluate settings text = .ok ⟨text, .ok x⟩ ↔ t.eval settings.arithmetic = .ok x) ∧
    (∀ fault, evaluate settings text = .ok ⟨text, .error fault⟩ ↔
      ∃ cause position, t.FirstFailure settings.arithmetic (.cause cause) position ∧
        fault = cause.fault position) ∧
    (evaluate settings text = .error .modulusOverflow ↔
      ∃ position, t.FirstFailure settings.arithmetic .modulusOverflow position) := by
  have hValue : value settings.arithmetic settings.maxDepth text.toList = t.eval settings.arithmetic :=
    value_of_parses hParses (nesting_le_levels_iff.mpr ⟨hDepth, hReach⟩)
  have hFirst (failure : Failure) (position : Nat) :
      (∃ reached, t.eval settings.arithmetic = .error ⟨failure, position, reached⟩) ↔
        t.FirstFailure settings.arithmetic failure position := by
    constructor
    · rintro ⟨reached, h⟩
      exact ((Tree.eval_eq_error_iff hKnown).mp h).1
    · intro h
      exact ⟨position, h.eval_eq hKnown⟩
  refine ⟨fun x => ?_, fun fault => ?_, ?_⟩
  · rw [evaluate_value_iff, hValue]
  · rw [evaluate_fault_iff, hValue]
    constructor
    · rintro ⟨cause, position, reached, rfl, h⟩
      exact ⟨cause, position, (hFirst _ _).mp ⟨reached, h⟩, rfl⟩
    · rintro ⟨cause, position, h, rfl⟩
      obtain ⟨reached, h⟩ := (hFirst _ _).mpr h
      exact ⟨cause, position, reached, rfl, h⟩
  · rw [evaluate_interruption_iff, hValue]
    exact exists_congr fun position => hFirst _ _

theorem derives_of_scan? {c : Cursor} {n : Numeral} {rest : List Char}
    (h : Numeral.scan? c.skipBlanks.rest = some (n, rest)) :
    Derives .primary c (.literal n.value (c.skipBlanks.advance n.text.length).position)
      (c.skipBlanks.advance n.text.length) := by
  obtain ⟨hLongest, hText⟩ := Numeral.scan?_eq_some_iff.mp h
  exact .literal hLongest (Cursor.token_advance hText)

theorem derives_power_of_primary {c c' : Cursor} {t : Tree} (h : Derives .primary c t c') :
    Derives .power c t c' :=
  .base (.factor (.none c) (.operand false h))

deriving instance DecidableEq for Outcome

theorem evaluate_two_divisions_by_zero :
    ∃ t, Parses "1/0+1//0".toList t ∧ t.known .complex = true ∧ (t.nesting : Int) ≤ 100 ∧
      t.nesting ≤ reach ∧ evaluate {} "1/0+1//0" = .ok ⟨"1/0+1//0", .error (Cause.divisionByZero.fault 3)⟩ ∧
        ∃ cause position, t.FirstFailure ⟨.complex, defaultEpsilon⟩ (.cause cause) position ∧
          Cause.divisionByZero.fault 3 = cause.fault position := by
  have hOne : Derives .power ⟨0, "1/0+1//0".toList⟩ (.literal ⟨1, 0⟩ 1) ⟨1, "/0+1//0".toList⟩ :=
    derives_power_of_primary (derives_of_scan? (n := ⟨['1'], none, none⟩) rfl)
  have hZero : Derives .power ⟨2, "0+1//0".toList⟩ (.literal ⟨0, 0⟩ 3) ⟨3, "+1//0".toList⟩ :=
    derives_power_of_primary (derives_of_scan? (n := ⟨['0'], none, none⟩) rfl)
  have hOther : Derives .power ⟨4, "1//0".toList⟩ (.literal ⟨1, 0⟩ 5) ⟨5, "//0".toList⟩ :=
    derives_power_of_primary (derives_of_scan? (n := ⟨['1'], none, none⟩) rfl)
  have hLast : Derives .power ⟨7, "0".toList⟩ (.literal ⟨0, 0⟩ 8) ⟨8, []⟩ :=
    derives_power_of_primary (derives_of_scan? (n := ⟨['0'], none, none⟩) rfl)
  have hLeft : Derives .product _ (.binary .div _ _ _) _ :=
    .product (.single hOne) (by decide) ⟨by decide, rfl⟩ hZero
  have hRight : Derives .product _ (.binary .floorDiv _ _ _) _ :=
    .product (.single hOther) (by decide) ⟨by decide, rfl⟩ hLast
  have hSum : Derives .expression _ (.binary .add _ _ _) _ :=
    .sum (.summand hLeft) (by decide) ⟨by decide, rfl⟩ hRight
  have hEvaluate : evaluate {} "1/0+1//0" =
      .ok ⟨"1/0+1//0", .error (Cause.divisionByZero.fault 3)⟩ := by decide +kernel
  refine ⟨_, ⟨_, hSum, rfl⟩, rfl, by decide, by decide, hEvaluate, ?_⟩
  exact ((evaluate_of_parses {} "1/0+1//0" _ ⟨_, hSum, rfl⟩ rfl (by decide) (by decide)).2.1 _).mp
    hEvaluate

end Reckon
