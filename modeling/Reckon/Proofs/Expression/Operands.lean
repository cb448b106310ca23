import Reckon.Proofs.Expression.Execution
import Reckon.Proofs.Expression.Progress

/-! # Operands on the stack

Every instruction of the code that is read for a text finds its operands, also in the code of a text
that is no expression: each part of the text that is read to its end leaves one value more than there
was before.
-/
namespace Reckon.Expression
set_option autoImplicit false

/-- How many values the action takes off the stack. -/
def Action.operands : Action → Nat
  | .literal _ | .constant _ => 0
  | .negate | .factorial _ | .percent => 1
  | .binary _ => 2
  | .call f => f.arity

/-- The code takes a stack of one height to a stack of another, and no action lacks an operand. -/
inductive Supplied : Nat → List Instruction → Nat → Prop
  | nil (n : Nat) : Supplied n [] n
  | cons {n n' : Nat} {i : Instruction} {code : List Instruction} (h : Supplied (n + 1) code n') :
      Supplied (n + i.action.operands) (i :: code) n'

theorem Supplied.append {n n' n'' : Nat} {code more : List Instruction} (h : Supplied n code n')
    (hMore : Supplied n' more n'') : Supplied n (code ++ more) n'' := by
  induction h with
  | nil n => exact hMore
  | cons _ ih => exact .cons (ih hMore)

theorem Supplied.of_nil {n n' : Nat} (h : Supplied n [] n') : n = n' := by
  cases h
  rfl

theorem Supplied.of_cons {n n' : Nat} {i : Instruction} {code : List Instruction}
    (h : Supplied n (i :: code) n') :
    i.action.operands ≤ n ∧ Supplied (n - i.action.operands + 1) code n' := by
  cases h with
  | cons h =>
    refine ⟨Nat.le_add_left _ _, ?_⟩
    rwa [Nat.add_sub_cancel]

/-! ## Running supplied code -/

section Running

variable {A : Arithmetic} {action : Action} {stack stack' : Stack}

theorem push_eq_ok {result : Except Failure Number} {rest : Stack}
    (h : (· :: rest) <$> result = .ok stack') : ∃ x, result = .ok x ∧ stack' = x :: rest := by
  obtain ⟨x, hResult, hStack⟩ := map_eq_ok_iff.mp h
  exact ⟨x, hResult, hStack.symm⟩

theorem exists_two_of_length (h : 2 ≤ stack.length) : ∃ b a rest, stack = b :: a :: rest := by
  obtain ⟨b, rest, rfl⟩ := List.exists_cons_of_length_pos (Nat.lt_of_succ_lt h)
  obtain ⟨a, rest, rfl⟩ := List.exists_cons_of_length_pos (Nat.lt_of_succ_lt_succ h)
  exact ⟨b, a, rest, rfl⟩

/-- An action with all its operands puts one value in their place. -/
theorem Action.exists_of_apply (hOperands : action.operands ≤ stack.length)
    (h : action.apply A stack = .ok stack') : ∃ x, stack' = x :: stack.drop action.operands := by
  cases action with
  | literal d =>
    obtain ⟨x, -, rfl⟩ := push_eq_ok h
    exact ⟨x, rfl⟩
  | constant name =>
    rw [apply] at h
    split at h
    · cases h
      exact ⟨_, rfl⟩
    · cases h
  | negate | factorial negated | percent =>
    obtain ⟨a, rest, rfl⟩ := List.exists_cons_of_length_pos hOperands
    obtain ⟨x, -, rfl⟩ := push_eq_ok h
    exact ⟨x, rfl⟩
  | binary op =>
    obtain ⟨b, a, rest, rfl⟩ := exists_two_of_length hOperands
    obtain ⟨x, -, rfl⟩ := push_eq_ok h
    exact ⟨x, rfl⟩
  | call f =>
    cases f with
    | unary f =>
      obtain ⟨a, rest, rfl⟩ := List.exists_cons_of_length_pos hOperands
      obtain ⟨x, -, rfl⟩ := push_eq_ok h
      exact ⟨x, rfl⟩
    | root =>
      obtain ⟨n, a, rest, rfl⟩ := exists_two_of_length hOperands
      obtain ⟨x, -, rfl⟩ := push_eq_ok h
      exact ⟨x, rfl⟩

theorem Supplied.operands_le {stack : Stack} {before after : List Instruction} {i : Instruction}
    {n : Nat} (h : Supplied stack.length (before ++ i :: after) n)
    (hRun : run A before stack = .ok stack') :
    i.action.operands ≤ stack'.length := by
  induction before generalizing stack with
  | nil =>
    cases hRun
    exact h.of_cons.1
  | cons j before ih =>
    obtain ⟨hOperands, hRest⟩ := h.of_cons
    rw [run] at hRun
    split at hRun
    · rename_i stack₁ hApply
      obtain ⟨x, rfl⟩ := Action.exists_of_apply hOperands hApply
      refine ih ?_ hRun
      rwa [List.length_cons, List.length_drop]
    · cases hRun

/-- Supplied code leaves alone what stands below the values it is supplied with. -/
theorem Supplied.exists_of_run (top base : Stack) {code : List Instruction} {n : Nat}
    (h : Supplied top.length code n) (hRun : run A code (top ++ base) = .ok stack') :
    ∃ top', stack' = top' ++ base ∧ top'.length = n := by
  induction code generalizing top with
  | nil =>
    cases hRun
    exact ⟨top, rfl, h.of_nil⟩
  | cons i code ih =>
    obtain ⟨hOperands, hRest⟩ := h.of_cons
    have hEnough : i.action.operands ≤ (top ++ base).length := by
      rw [List.length_append]
      omega
    rw [run] at hRun
    split at hRun
    · rename_i stack₁ hApply
      obtain ⟨x, rfl⟩ := Action.exists_of_apply hEnough hApply
      rw [List.drop_append_of_le_length hOperands] at hRun
      have hTop : Supplied (x :: top.drop i.action.operands).length code n := by
        rwa [List.length_cons, List.length_drop]
      exact ih _ hTop hRun
    · cases hRun

end Running

/-! ## Readings -/

/-- The code of the reading is supplied on a stack of height `n`. Where the reading ends with a value,
    that value tells how high the stack is then. -/
def Reading.Supplied {α : Type} (n : Nat) (m : Reading α) (height : α → Nat) : Prop :=
  ∃ n', Expression.Supplied n m.code n' ∧ ∀ a, m.outcome = .ok a → n' = height a

namespace Reading

variable {α β : Type} {n : Nat} {height : α → Nat} {height' : β → Nat}

theorem supplied_pure {a : α} (h : n = height a) : (pure a : Reading α).Supplied n height := by
  refine ⟨n, .nil n, ?_⟩
  rintro a' ⟨⟩
  exact h

theorem supplied_fail (n : Nat) (e : Complaint) (height : α → Nat) : (fail e).Supplied n height :=
  ⟨n, .nil n, nofun⟩

theorem supplied_emit {i : Instruction} {height : Unit → Nat}
    (h : height () = n + 1) : (emit i).Supplied (n + i.action.operands) height := by
  refine ⟨n + 1, .cons (.nil _), ?_⟩
  rintro ⟨⟩ -
  exact h.symm

theorem Supplied.bind {m : Reading α} {f : α → Reading β} (h : m.Supplied n height)
    (hNext : ∀ a, m.outcome = .ok a → (f a).Supplied (height a) height') :
    (m >>= f).Supplied n height' := by
  obtain ⟨n', hCode, hHeight⟩ := h
  cases hOutcome : m.outcome with
  | error e =>
    rw [bind_of_error hOutcome]
    exact ⟨n', hCode, nofun⟩
  | ok a =>
    obtain ⟨n'', hMore, hEnd⟩ := hNext a hOutcome
    rw [bind_of_ok hOutcome]
    rw [← hHeight a hOutcome] at hMore
    exact ⟨n'', hCode.append hMore, hEnd⟩

end Reading

open Reading

/-! ## Readers -/

/-- What the reader reads to the end leaves one value on the stack. -/
def Pushes (reader : Reader) : Prop := ∀ n c, (reader c).Supplied n fun _ => n + 1

/-- The reader goes on behind a value and leaves one in its place. -/
def Turns (reader : Reader) : Prop := ∀ n c, (reader c).Supplied (n + 1) fun _ => n + 1

variable {inside exponent reader : Reader}

theorem Pushes.execute {A : Arithmetic} (h : Pushes reader) {c c' : Cursor} {stack stack' : Stack}
    (hRun : execute A (reader c) stack = .ok (c', stack')) : ∃ x, stack' = x :: stack := by
  obtain ⟨hCode, hOutcome⟩ := execute_eq_ok_iff.mp hRun
  obtain ⟨n, hSupplied, hHeight⟩ := h 0 c
  rw [hHeight c' hOutcome] at hSupplied
  obtain ⟨top, rfl, hLength⟩ := hSupplied.exists_of_run [] stack hCode
  obtain ⟨x, rfl⟩ := List.length_eq_one_iff.mp hLength
  exact ⟨x, rfl⟩

theorem turns_pure (n : Nat) (c : Cursor) : (pure c : Reading Cursor).Supplied (n + 1) fun _ => n + 1 :=
  supplied_pure rfl

/-- An action that leaves its value in the place of its operands, and what is read behind it. -/
theorem supplied_then {α : Type} {i : Instruction} {m : Reading α} {k n : Nat} {height : α → Nat}
    (hMore : m.Supplied (n + 1) height) (hOperands : k = n + i.action.operands) :
    (Reading.emit i >>= fun _ => m).Supplied k height := by
  rw [hOperands]
  exact Supplied.bind (supplied_emit rfl) fun _ _ => hMore

theorem pushes_refuse (cause : Cause) : Pushes (refuse cause) := fun n _ => supplied_fail n _ _

theorem supplied_suffixes (n : Nat) (negated : Bool) (position : Nat) (rest : List Char) :
    (suffixes negated position rest).Supplied (n + 1) fun _ => n + 1 := by
  induction rest generalizing position with
  | nil => exact turns_pure n _
  | cons next rest ih =>
    rw [suffixes]
    split
    · exact ih _
    · split
      · exact supplied_then (ih _) rfl
      · split
        · exact supplied_then (ih _) rfl
        · exact turns_pure n _

theorem pushes_numeral : Pushes numeral := by
  intro n c
  rw [numeral]
  split
  · exact supplied_fail n _ _
  · exact supplied_then (turns_pure n _) rfl

/-- As many values as were counted stand on the stack. -/
theorem supplied_moreArguments (hInside : Pushes inside) (n bound count : Nat) (c : Cursor) :
    (moreArguments inside bound count c).Supplied (n + count) fun r => n + r.1 := by
  induction bound generalizing count c with
  | zero => exact supplied_pure rfl
  | succ bound ih =>
    rw [moreArguments]
    split
    · exact (hInside (n + count) _).bind fun _ _ => ih (count + 1) _
    · exact supplied_pure rfl

theorem supplied_callEnd (n : Nat) (f : Builtin) (start count : Nat) (c : Cursor) :
    (callEnd f start count c).Supplied (n + count) fun _ => n + 1 := by
  rw [callEnd]
  split
  · split
    · rename_i hArity
      rw [hArity]
      exact supplied_then (turns_pure n _) rfl
    · exact supplied_fail _ _ _
  · exact supplied_fail _ _ _

theorem pushes_call (hInside : Pushes inside) (f : Builtin) (start : Nat) :
    Pushes (call inside f start) := by
  intro n c
  rw [call_eq_callEnd]
  refine (hInside n c).bind fun c₁ _ => ?_
  refine (supplied_moreArguments hInside n _ 1 c₁).bind fun ⟨count, c₂⟩ _ => ?_
  exact supplied_callEnd n f start count c₂

theorem pushes_name (hInside : Pushes inside) : Pushes (name inside) := by
  intro n c
  rw [name_eq_wordAt, wordAt]
  split
  · split
    · exact supplied_fail n _ _
    · exact pushes_call hInside _ _ n _
  · exact supplied_then (turns_pure n _) rfl

theorem turns_groupEnd (b : Bracket) : Turns (groupEnd b) := by
  intro n c
  rw [groupEnd]
  split
  · split
    · exact turns_pure n _
    · exact supplied_fail _ _ _
  · exact supplied_fail _ _ _

theorem pushes_group (hInside : Pushes inside) (b : Bracket) : Pushes (group inside b) := by
  intro n c
  rw [group_eq_groupEnd]
  exact (hInside n _).bind fun c₁ _ => turns_groupEnd b n c₁

theorem pushes_primary (hInside : Pushes inside) : Pushes (primary inside) := by
  intro n c
  rw [primary]
  split
  · exact supplied_fail n _ _
  · split
    · exact pushes_name hInside n c
    · split
      · exact pushes_numeral n c
      · split
        · exact pushes_group hInside _ n c
        · exact supplied_fail n _ _

theorem turns_negation (negated : Bool) : Turns (negation negated) := by
  intro n c
  cases negated with
  | false => exact turns_pure n c
  | true => exact supplied_then (turns_pure n c) rfl

theorem pushes_factor (hInside : Pushes inside) : Pushes (factor inside) := by
  intro n c
  rw [factor_eq_operand, operand]
  refine (pushes_primary hInside n _).bind fun c₁ _ => ?_
  exact (supplied_suffixes n _ _ _).bind fun c₂ _ => turns_negation _ n c₂

theorem turns_powerEnd (hExponent : Pushes exponent) : Turns (powerEnd exponent) := by
  intro n c
  rw [powerEnd]
  split
  · exact (hExponent (n + 1) _).bind fun c₁ _ => supplied_then (turns_pure n c₁) rfl
  · exact turns_pure n c

theorem pushes_powerOf (hInside : Pushes inside) (hExponent : Pushes exponent) :
    Pushes (powerOf inside exponent) := by
  intro n c
  rw [powerOf_eq_powerEnd]
  exact (pushes_factor hInside n c).bind fun c₁ _ => turns_powerEnd hExponent n c₁

section Chains

variable {operator? : List Char → Option (Operator × Nat)}

theorem turns_links (hReader : Pushes reader) (bound : Nat) : Turns (links operator? reader bound) := by
  induction bound with
  | zero => exact fun n c => turns_pure n c
  | succ bound ih =>
    intro n c
    rw [links]
    split
    · exact turns_pure n c
    · exact (hReader (n + 1) _).bind fun c₁ _ => supplied_then (ih n c₁) rfl

theorem pushes_chain (hReader : Pushes reader) : Pushes (chain operator? reader) :=
  fun n c => (hReader n c).bind fun c₁ _ => turns_links hReader _ n c₁

end Chains

theorem pushes_sumsOf {power : Reader} (hPower : Pushes power) : Pushes (sumsOf power) :=
  pushes_chain (pushes_chain hPower)

theorem pushes_power (deep : Cause) (levels : Nat) : Pushes (power deep levels) := by
  induction levels with
  | zero => exact pushes_powerOf (pushes_refuse deep) (pushes_refuse deep)
  | succ levels ih => exact pushes_powerOf (pushes_sumsOf ih) ih

theorem pushes_expression (deep : Cause) (levels : Nat) : Pushes (expression deep levels) := by
  cases levels with
  | zero => exact pushes_refuse deep
  | succ levels => exact pushes_sumsOf (pushes_power deep levels)

theorem supplied_read [Interpreter] (limit : Int) (text : List Char) :
    (read limit text).Supplied 0 fun _ => 1 := by
  rw [read]
  refine (pushes_expression _ _ 0 _).bind fun c _ => ?_
  split
  · exact supplied_pure rfl
  · exact supplied_fail _ _ _

/-- The readers of the parts of a text that have a value. -/
inductive Part (deep : Cause) : Reader → Prop
  | numeral : Part deep numeral
  | name (room : Nat) : Part deep (name (expression deep room))
  | call (room : Nat) (f : Builtin) (start : Nat) : Part deep (call (expression deep room) f start)
  | group (room : Nat) (b : Bracket) : Part deep (group (expression deep room) b)
  | primary (room : Nat) : Part deep (primary (expression deep room))
  | factor (room : Nat) : Part deep (factor (expression deep room))
  | power (room : Nat) : Part deep (powerWithin deep room)
  | product (room : Nat) : Part deep (productsOf (powerWithin deep room))
  | expression (room : Nat) : Part deep (expression deep room)

theorem pushes_powerWithin (deep : Cause) (room : Nat) : Pushes (powerWithin deep room) := by
  cases room with
  | zero => exact pushes_refuse deep
  | succ room => exact pushes_power deep room

theorem Part.pushes {deep : Cause} {reader : Reader} (h : Part deep reader) : Pushes reader := by
  cases h with
  | numeral => exact pushes_numeral
  | name room => exact pushes_name (pushes_expression deep room)
  | call room f start => exact pushes_call (pushes_expression deep room) f start
  | group room b => exact pushes_group (pushes_expression deep room) b
  | primary room => exact pushes_primary (pushes_expression deep room)
  | factor room => exact pushes_factor (pushes_expression deep room)
  | power room => exact pushes_powerWithin deep room
  | product room => exact pushes_chain (pushes_powerWithin deep room)
  | expression room => exact pushes_expression deep room

/-- Whenever the run of a text comes to an instruction, the operands stand on the stack. -/
theorem operands_le_of_read [Interpreter] {A : Arithmetic} {limit : Int} {text : List Char}
    {before after : List Instruction} {i : Instruction} {stack : Stack}
    (hCode : (read limit text).code = before ++ i :: after) (hRun : run A before [] = .ok stack) :
    i.action.operands ≤ stack.length := by
  obtain ⟨n, hSupplied, -⟩ := supplied_read limit text
  rw [hCode] at hSupplied
  exact @Supplied.operands_le A _ [] _ _ _ _ hSupplied hRun

end Reckon.Expression
