import Reckon.Proofs.Expression.Ending
import Reckon.Proofs.Locality

/-! # Readings with fewer levels

A reader that may open fewer levels reads a text as one does that may open more, or it ends with the
complaint that there are no levels left, and the other one goes on from there.
-/
namespace Reckon.Expression
set_option autoImplicit false

variable {A : Arithmetic} {deep deep' : Cause} {room room' : Nat}

/-- The first reading is the second one, or it ends for want of levels where the second one goes on. -/
inductive Cut (deep : Cause) : Reading Cursor → Reading Cursor → Prop
  | same (m : Reading Cursor) : Cut deep m m
  | cut {code : List Instruction} {p : Nat} {m' : Reading Cursor} (h : Late p Cursor.position m') :
      Cut deep ⟨code, .error ⟨deep, p, p⟩⟩ (m'.behind code)

theorem Cursor.Ahead.eq {c a b : Cursor} (ha : c.Ahead a) (hb : c.Ahead b)
    (h : a.position = b.position) : a = b := by
  obtain ⟨m, -, rfl⟩ := ha
  obtain ⟨n, -, rfl⟩ := hb
  rw [Nat.add_left_cancel h]

theorem cut_of_parallel {reader reader' : Reader} (h : ∀ n, Parallel n (some deep) reader reader')
    (hForward : Forward reader) (hForward' : Forward reader') (c : Cursor) :
    Cut deep (reader c) (reader' c) := by
  have hAlike := h (c.position + c.rest.length + 3) c c (.refl _ c)
  have hOnward := hForward c
  have hOnward' := hForward' c
  generalize reader c = m at hAlike hOnward
  generalize reader' c = m' at hAlike hOnward'
  cases hAlike with
  | ok hSame =>
    obtain rfl := (hOnward.ahead rfl).eq (hOnward'.ahead rfl) hSame.position
    exact .same _
  | error => exact .same _
  | @far code p m m' hFar hLate =>
    -- The texts never part, so no reading can come so far.
    cases hOutcome : m.outcome with
    | ok a =>
      have hAhead : c.Ahead a := hOnward.ahead hOutcome
      have hEnd := hAhead.end_eq
      have hPlace := hLate.ok a hOutcome
      omega
    | error e =>
      have hEnd := (hOnward.spans_error (m := m.behind code) hOutcome).2.2
      have hPlace := hLate.error e hOutcome
      omega
  | cut hCut hLate =>
    cases hCut
    exact .cut hLate

theorem cut_powerWithin (deep deep' : Cause) (h : room ≤ room') (c : Cursor) :
    Cut deep (powerWithin deep room c) (powerWithin deep' room' c) :=
  cut_of_parallel (fun _ => parallel_powerWithin (.cut deep deep' h)) (forward_powerWithin _ _)
    (forward_powerWithin _ _) c

theorem cut_expression (deep deep' : Cause) (h : room ≤ room') (c : Cursor) :
    Cut deep (expression deep room c) (expression deep' room' c) :=
  cut_of_parallel (fun _ => parallel_expression (.cut deep deep' h)) (forward_expression _ _)
    (forward_expression _ _) c

theorem cut_readWithin (deep deep' : Cause) (h : room ≤ room') (c : Cursor) :
    Cut deep (readWithin deep room c) (readWithin deep' room' c) :=
  cut_of_parallel (fun _ => parallel_readWithin (.cut deep deep' h)) (forward_readWithin _ _)
    (forward_readWithin _ _) c

/-- A cut reading fails where it was cut, unless an operation fails before, in the other reading too. -/
theorem Cut.execute {m m' : Reading Cursor} (h : Cut deep m m') (stack : Stack) :
    execute A m stack = execute A m' stack ∨ ∃ p, execute A m stack = .error ⟨.cause deep, p, p⟩ ∧
      (∀ c stack', execute A m' stack = .ok (c, stack') → p ≤ c.position) ∧
      ∀ stop, execute A m' stack = .error stop → p ≤ stop.reached := by
  cases h with
  | same => exact .inl rfl
  | @cut code p m' hLate =>
    rw [execute_behind]
    cases hRun : run A code stack with
    | error stop =>
      left
      simp only [Expression.execute, hRun, error_bind]
    | ok stack' =>
      refine .inr ⟨p, ?_, ?_, fun stop hStop => hLate.le_reached hStop⟩
      · simp only [Expression.execute, hRun, ok_bind]
        rfl
      · intro c stack'' hOk
        exact hLate.ok c (execute_eq_ok_iff.mp hOk).2

/-! ## Values -/

/-- The value of a text in which `room` levels may be opened. -/
def valueWithin (A : Arithmetic) (deep : Cause) (room : Nat) (text : List Char) : Except Stop Number :=
  (fun r => r.2.headD default) <$> execute A (readWithin deep room ⟨0, text⟩) []

theorem value_eq_valueWithin [Interpreter] (limit : Int) (text : List Char) :
    value A limit text = valueWithin A (tooDeep limit) (levels limit) text := by
  rw [value_eq_execute, read_eq_readWithin, execute_bind, valueWithin]
  cases execute A (readWithin (tooDeep limit) (levels limit) ⟨0, text⟩) [] with
  | error stop => rfl
  | ok r => rfl

theorem valueWithin_cut (deep deep' : Cause) (h : room ≤ room') (text : List Char) :
    valueWithin A deep room text = valueWithin A deep' room' text ∨
      ∃ p, valueWithin A deep room text = .error ⟨.cause deep, p, p⟩ ∧
        ∀ stop, valueWithin A deep' room' text = .error stop → p ≤ stop.reached := by
  rcases (cut_readWithin deep deep' h ⟨0, text⟩).execute (A := A) [] with hSame | ⟨p, hCut, -, hLater⟩
  · left
    rw [valueWithin, hSame, valueWithin]
  · refine .inr ⟨p, ?_, ?_⟩
    · rw [valueWithin, hCut]
      rfl
    · intro stop hStop
      exact hLater stop (map_eq_error_iff.mp hStop)

theorem valueWithin_of_parses {text : List Char} {t : Tree} (h : Parses text t)
    (hNesting : t.nesting ≤ room) : valueWithin A deep room text = t.eval A := by
  obtain ⟨c', hExpression, hEnd⟩ := h
  have hEnded : Ended .expression c' := .of_skipBlanks (ended_of_rest_nil hEnd)
  have hDepth : t.depth < room := by
    rw [Tree.nesting] at hNesting
    omega
  have hTextEnd : textEnd c'.skipBlanks = pure c'.skipBlanks := by
    rw [textEnd, hEnd]
  rw [valueWithin, readWithin, complete_expression _ _ _ t c' hExpression hDepth hEnded, bind_assoc,
    pure_bind, hTextEnd, execute_bind, Tree.execute_tree]
  cases t.eval A with
  | error stop => rfl
  | ok x => rfl

/-- A text with a tree has the value of the tree, or it nests too deep for the limit. -/
theorem value_of_parses_or [Interpreter] (A : Arithmetic) (limit : Int) {text : List Char} {t : Tree}
    (h : Parses text t) : value A limit text = t.eval A ∨
      ∃ p, value A limit text = .error ⟨.cause (tooDeep limit), p, p⟩ := by
  have hTree : valueWithin A (tooDeep limit) (max (levels limit) t.nesting) text = t.eval A :=
    valueWithin_of_parses h (Nat.le_max_right _ _)
  rw [value_eq_valueWithin, ← hTree]
  rcases valueWithin_cut (A := A) (tooDeep limit) (tooDeep limit) (Nat.le_max_left _ _) text with
    hSame | ⟨p, hCut, -⟩
  · exact .inl hSame
  · exact .inr ⟨p, hCut⟩

end Reckon.Expression
