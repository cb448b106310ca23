import Reckon.Proofs.Causes

/-! # The words of a reading

A name that comes from a text consists of letters: in the code, also of a text that is no expression, and in
the complaint.
-/
namespace Reckon
set_option autoImplicit false

/-- The names in the cause are words. -/
def Cause.Spelled : Cause → Prop
  | .unknownFunction name | .unknownIdentifier name => ∀ l ∈ name.toList, l.isAlpha = true
  | _ => True

namespace Expression

/-- A constant that the action asks for has a name of letters. -/
def Action.Spelled : Action → Prop
  | .constant word => ∀ l ∈ word.toList, l.isAlpha = true
  | _ => True

namespace Reading

variable {α β : Type}

structure Spelled (m : Reading α) : Prop where
  code : ∀ i ∈ m.code, i.action.Spelled
  complaint : ∀ e, m.outcome = .error e → e.cause.Spelled

theorem spelled_pure (a : α) : (pure a : Reading α).Spelled := ⟨nofun, nofun⟩

theorem spelled_fail {e : Complaint} (h : e.cause.Spelled) : (fail e : Reading α).Spelled := by
  refine ⟨nofun, ?_⟩
  rintro e' ⟨⟩
  exact h

theorem spelled_refuse (c : Cursor) {cause : Cause} (h : cause.Spelled) :
    (c.fail cause : Reading α).Spelled :=
  spelled_fail h

theorem spelled_emit {i : Instruction} (h : i.action.Spelled) : (emit i).Spelled := by
  refine ⟨fun j hMem => ?_, nofun⟩
  obtain rfl := List.mem_singleton.mp hMem
  exact h

theorem Spelled.bind {m : Reading α} {f : α → Reading β} (h : m.Spelled) (hNext : ∀ a, (f a).Spelled) :
    (m >>= f).Spelled := by
  cases hOutcome : m.outcome with
  | error e =>
    rw [bind_of_error hOutcome]
    refine ⟨h.code, ?_⟩
    rintro e' ⟨⟩
    exact h.complaint e hOutcome
  | ok a =>
    rw [bind_of_ok hOutcome]
    refine ⟨fun i hMem => ?_, (hNext a).complaint⟩
    rcases List.mem_append.mp hMem with hHere | hThere
    · exact h.code i hHere
    · exact (hNext a).code i hThere

end Reading

open Reading

/-! ## Readers -/

def Spelling (reader : Reader) : Prop := ∀ c, (reader c).Spelled

variable {inside exponent : Reader}

theorem spelling_refuse {cause : Cause} (h : cause.Spelled) : Spelling (refuse cause) :=
  fun c => spelled_refuse c h

theorem spelled_note {c : Cursor} {action : Action} (h : action.Spelled) : (c.emit action).Spelled :=
  spelled_emit h

theorem spelled_suffixes (negated : Bool) (position : Nat) (rest : List Char) :
    (suffixes negated position rest).Spelled := by
  induction rest generalizing position with
  | nil => exact spelled_pure _
  | cons next rest ih =>
    rw [suffixes]
    split
    · exact ih _
    · split
      · exact Spelled.bind (spelled_note trivial) fun _ => ih _
      · split
        · exact Spelled.bind (spelled_note trivial) fun _ => ih _
        · exact spelled_pure _

theorem spelling_numeral : Spelling numeral := by
  intro c
  rw [numeral]
  split
  · exact spelled_refuse _ trivial
  · exact Spelled.bind (spelled_note trivial) fun _ => spelled_pure _

theorem spelled_moreArguments (hInside : Spelling inside) (bound count : Nat) (c : Cursor) :
    (moreArguments inside bound count c).Spelled := by
  induction bound generalizing count c with
  | zero => exact spelled_pure _
  | succ bound ih =>
    rw [moreArguments]
    split
    · exact (hInside _).bind fun _ => ih _ _
    · exact spelled_pure _

theorem spelling_callEnd (f : Builtin) (start count : Nat) : Spelling (callEnd f start count) := by
  intro c
  rw [callEnd]
  split
  · split
    · exact Spelled.bind (spelled_note trivial) fun _ => spelled_pure _
    · exact spelled_fail trivial
  · exact spelled_refuse _ trivial

theorem spelling_call (hInside : Spelling inside) (f : Builtin) (start : Nat) :
    Spelling (call inside f start) := by
  intro c
  rw [call_eq_callEnd]
  refine (hInside c).bind fun c₁ => ?_
  exact (spelled_moreArguments hInside _ _ c₁).bind fun ⟨count, c₂⟩ => spelling_callEnd f start count c₂

/-- Only here names come from the text: the letters in front. -/
theorem spelling_name (hInside : Spelling inside) : Spelling (name inside) := by
  intro c
  have hLetters : ∀ l ∈ (String.ofList (c.rest.takeWhile Char.isAlpha)).toList, l.isAlpha = true := by
    intro l hLetter
    rw [String.toList_ofList] at hLetter
    exact List.mem_takeWhile_imp hLetter
  rw [name_eq_wordAt, wordAt]
  split
  · split
    · exact spelled_fail hLetters
    · exact spelling_call hInside _ _ _
  · refine Spelled.bind (spelled_emit ?_) fun _ => spelled_pure _
    exact hLetters

theorem spelling_group (hInside : Spelling inside) (b : Bracket) : Spelling (group inside b) := by
  intro c
  rw [group_eq_groupEnd]
  refine (hInside _).bind fun c₁ => ?_
  rw [groupEnd]
  split
  · split
    · exact spelled_pure _
    · exact spelled_refuse _ trivial
  · exact spelled_refuse _ trivial

theorem spelling_primary (hInside : Spelling inside) : Spelling (primary inside) := by
  intro c
  rw [primary]
  split
  · exact spelled_refuse _ trivial
  · split
    · exact spelling_name hInside c
    · split
      · exact spelling_numeral c
      · split
        · exact spelling_group hInside _ c
        · exact spelled_refuse _ trivial

theorem spelling_negation (negated : Bool) : Spelling (negation negated) := by
  intro c
  cases negated with
  | false => exact spelled_pure _
  | true => exact Spelled.bind (spelled_note trivial) fun _ => spelled_pure _

theorem spelling_factor (hInside : Spelling inside) : Spelling (factor inside) := by
  intro c
  rw [factor_eq_operand, operand]
  refine (spelling_primary hInside _).bind fun c₁ => ?_
  exact (spelled_suffixes _ _ _).bind fun c₂ => spelling_negation _ c₂

theorem spelling_powerOf (hInside : Spelling inside) (hExponent : Spelling exponent) :
    Spelling (powerOf inside exponent) := by
  intro c
  rw [powerOf_eq_powerEnd]
  refine (spelling_factor hInside c).bind fun c₁ => ?_
  rw [powerEnd]
  split
  · exact (hExponent _).bind fun _ => Spelled.bind (spelled_note trivial) fun _ => spelled_pure _
  · exact spelled_pure _

section Chains

variable {operator? : List Char → Option (Operator × Nat)} {reader : Reader}

theorem spelling_links (hReader : Spelling reader) (bound : Nat) : Spelling (links operator? reader bound) := by
  induction bound with
  | zero => exact fun c => spelled_pure c
  | succ bound ih =>
    intro c
    rw [links]
    split
    · exact spelled_pure _
    · exact (hReader _).bind fun _ => Spelled.bind (spelled_note trivial) fun _ => ih _

theorem spelling_chain (hReader : Spelling reader) : Spelling (chain operator? reader) :=
  fun c => (hReader c).bind fun _ => spelling_links hReader _ _

end Chains

theorem spelling_sumsOf {power : Reader} (hPower : Spelling power) : Spelling (sumsOf power) :=
  spelling_chain (spelling_chain hPower)

variable {deep : Cause}

theorem spelling_power (hDeep : deep.Spelled) (levels : Nat) : Spelling (power deep levels) := by
  induction levels with
  | zero => exact spelling_powerOf (spelling_refuse hDeep) (spelling_refuse hDeep)
  | succ levels ih => exact spelling_powerOf (spelling_sumsOf ih) ih

theorem spelling_expression (hDeep : deep.Spelled) (levels : Nat) : Spelling (expression deep levels) := by
  cases levels with
  | zero => exact spelling_refuse hDeep
  | succ levels => exact spelling_sumsOf (spelling_power hDeep levels)

theorem spelled_read [Interpreter] (limit : Int) (text : List Char) : (read limit text).Spelled := by
  have hDeep : (tooDeep limit).Spelled := by
    unfold tooDeep
    split <;> exact trivial
  rw [read]
  refine (spelling_expression hDeep _ _).bind fun c => ?_
  split
  · exact spelled_pure _
  · exact spelled_refuse _ trivial

/-! ## Running the code -/

variable {A : Arithmetic} {action : Action} {stack : Stack} {cause : Cause}

theorem spelled_of_arithmetic (h : cause.kind.arithmetic = true) : cause.Spelled := by
  cases cause with
  | unknownFunction | unknownIdentifier => cases h
  | _ => exact trivial

theorem spelled_of_apply (hAction : action.Spelled) (h : action.apply A stack = .error (.cause cause)) :
    cause.Spelled := by
  rcases Action.cause_of_apply h with hArithmetic | ⟨name, rfl, -, rfl⟩
  · exact spelled_of_arithmetic hArithmetic
  · exact hAction

theorem spelled_of_value [Interpreter] {limit : Int} {text : List Char} {position reached : Nat}
    (h : value A limit text = .error ⟨.cause cause, position, reached⟩) : cause.Spelled := by
  have hRead := spelled_read limit text
  unfold value at h
  dsimp only at h
  split at h
  · rename_i stop _ hRun
    cases h
    obtain ⟨before, i, after, stack, failure, hCode, -, hFails, hStop⟩ := run_eq_error_iff.mp hRun
    cases hStop
    refine spelled_of_apply (hRead.code i ?_) hFails
    rw [hCode]
    exact List.mem_append_right _ List.mem_cons_self
  · rename_i complaint _ hOutcome
    cases h
    exact hRead.complaint complaint hOutcome
  · cases h

end Expression
end Reckon
