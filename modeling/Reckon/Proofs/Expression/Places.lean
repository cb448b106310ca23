import Reckon.Proofs.Operations

/-! # Where the failures of instructions are reported

A constant that is not known is reported where its name begins. Everything else that an instruction does
is reported behind some character of the text that belongs to it.
-/
namespace Reckon.Expression
set_option autoImplicit false

/-- The letters that stand together from an offset on. -/
def lettersAt (text : List Char) (p : Nat) : List Char := (text.drop p).takeWhile Char.isAlpha

/-- A constant is reported at its name, and every other action behind some part of the text. -/
def Instruction.Placed (text : List Char) (i : Instruction) : Prop :=
  match i.action with
  | .constant word => word.toList = lettersAt text i.position ∧ word.toList ≠ []
  | _ => 0 < i.position

/-- All instructions are in their places, and a complaint is about the text. -/
structure Reading.Placed {α : Type} (text : List Char) (m : Reading α) : Prop where
  code : ∀ i ∈ m.code, i.Placed text
  complaint : ∀ e, m.outcome = .error e → e.cause.ofText = true

namespace Reading

variable {α β : Type} {text : List Char}

theorem placed_pure (a : α) : (pure a : Reading α).Placed text := ⟨nofun, nofun⟩

theorem placed_fail {e : Complaint} (h : e.cause.ofText = true) : (fail e : Reading α).Placed text := by
  refine ⟨nofun, ?_⟩
  rintro e' ⟨⟩
  exact h

theorem placed_refuse (c : Cursor) {cause : Cause} (h : cause.ofText = true) :
    (c.fail cause : Reading α).Placed text :=
  placed_fail h

theorem placed_emit {i : Instruction} (h : i.Placed text) : (emit i).Placed text := by
  refine ⟨fun j hMem => ?_, nofun⟩
  obtain rfl := List.mem_singleton.mp hMem
  exact h

theorem Placed.bind {m : Reading α} {f : α → Reading β} (h : m.Placed text)
    (hNext : ∀ a, m.outcome = .ok a → (f a).Placed text) : (m >>= f).Placed text := by
  cases hOutcome : m.outcome with
  | error e =>
    rw [bind_of_error hOutcome]
    refine ⟨h.code, ?_⟩
    rintro e' ⟨⟩
    exact h.complaint e hOutcome
  | ok a =>
    have hRest := hNext a hOutcome
    rw [bind_of_ok hOutcome]
    refine ⟨fun i hMem => ?_, hRest.complaint⟩
    rcases List.mem_append.mp hMem with hHere | hThere
    · exact h.code i hHere
    · exact hRest.code i hThere

end Reading

open Reading

/-! ## Readers -/

section Readers

variable {text : List Char}

/-- All that the reader emits in the text is in its place. -/
def Placing (text : List Char) (reader : Reader) : Prop :=
  ∀ c, Cursor.Ahead ⟨0, text⟩ c → (reader c).Placed text

theorem placing_refuse {cause : Cause} (h : cause.ofText = true) : Placing text (refuse cause) :=
  fun c _ => placed_refuse c h

/-- No action but a constant is out of place behind a character. -/
theorem placed_then {α : Type} {c : Cursor} {action : Action} {m : Reading α}
    (hAction : ∀ word, action ≠ .constant word) (hPlace : 0 < c.position) (hMore : m.Placed text) :
    (c.emit action >>= fun _ => m).Placed text := by
  refine Placed.bind (placed_emit ?_) fun _ _ => hMore
  unfold Instruction.Placed
  split
  · rename_i word hConstant
    exact absurd hConstant (hAction word)
  · exact hPlace

theorem placed_suffixes (negated : Bool) (position : Nat) (rest : List Char) :
    (suffixes negated position rest).Placed text := by
  induction rest generalizing position with
  | nil => exact placed_pure _
  | cons next rest ih =>
    rw [suffixes]
    split
    · exact ih _
    · split
      · exact placed_then (by simp) (Nat.succ_pos _) (ih _)
      · split
        · exact placed_then (by simp) (Nat.succ_pos _) (ih _)
        · exact placed_pure _

theorem placed_numeral (c : Cursor) : (numeral c).Placed text := by
  rw [numeral]
  split
  · exact placed_fail rfl
  · rename_i n rest hScan
    have hLength := Numeral.length_pos_of_proper (Numeral.proper_of_scan? hScan)
    exact placed_then (by simp) (Nat.add_pos_right _ hLength) (placed_pure _)

theorem placed_callEnd (f : Builtin) (start count : Nat) (c : Cursor) :
    (callEnd f start count c).Placed text := by
  rw [callEnd]
  split
  · split
    · exact placed_then (by simp) (Nat.succ_pos _) (placed_pure _)
    · exact placed_fail rfl
  · exact placed_fail rfl

theorem placed_group {inside : Reader} (hInside : Placing text inside) (b : Bracket) {c : Cursor}
    (hc : Cursor.Ahead ⟨0, text⟩ c) (hOpen : c.rest ≠ []) :
    (group inside b c).Placed text := by
  obtain ⟨opener, rest, hRest⟩ := List.exists_cons_of_ne_nil hOpen
  rw [group_eq_groupEnd]
  refine (hInside _ (hc.trans (Cursor.ahead_of_rest hRest))).bind fun c₁ _ => ?_
  rw [groupEnd]
  split
  · split
    · exact placed_pure _
    · exact placed_fail rfl
  · exact placed_fail rfl

theorem position_pos_of_signs {c c' : Cursor} (h : c.Signs true c') : 0 < c'.position := by
  generalize hOdd : true = odd at h
  cases h with
  | none => cases hOdd
  | minus hSign hMore =>
    have hPlace := hMore.ahead.position_le
    have hBehind := hSign.2
    simp only [List.length_singleton] at hBehind
    omega

section Inside

variable {inside : Reader} (hInside : Placing text inside) (hForward : Forward inside)
include hInside hForward

theorem placed_moreArguments (bound count : Nat) {c : Cursor} (hc : Cursor.Ahead ⟨0, text⟩ c) :
    (moreArguments inside bound count c).Placed text := by
  induction bound generalizing count c with
  | zero => exact placed_pure _
  | succ bound ih =>
    rw [moreArguments]
    split
    · rename_i rest hComma
      have hNext := hc.trans (Cursor.ahead_of_rest hComma)
      refine (hInside _ hNext).bind fun c₁ hRead => ?_
      exact ih _ (hNext.trans ((hForward _).ahead hRead))
    · exact placed_pure _

theorem placing_call (f : Builtin) (start : Nat) : Placing text (call inside f start) := by
  intro c hc
  rw [call_eq_callEnd]
  refine (hInside c hc).bind fun c₁ hRead => ?_
  have hFirst := hc.trans ((hForward c).ahead hRead)
  exact (placed_moreArguments hInside hForward _ _ hFirst).bind fun ⟨count, c₂⟩ _ =>
    placed_callEnd f start count c₂

/-- The constant is reported where its letters begin. -/
theorem placed_name {c : Cursor} (hc : Cursor.Ahead ⟨0, text⟩ c) {first : Char} {rest : List Char}
    (hRest : c.rest = first :: rest) (hFirst : first.isAlpha = true) : (name inside c).Placed text := by
  rw [name_eq_wordAt, wordAt]
  split
  · rename_i after hOpen
    split
    · exact placed_fail rfl
    · have hNext := (hc.trans c.ahead_wordEnd).trans (Cursor.ahead_of_rest hOpen)
      exact placing_call hInside hForward _ _ _ hNext
  · refine Placed.bind (placed_emit ?_) fun _ _ => placed_pure _
    refine ⟨?_, ?_⟩
    · rw [String.toList_ofList, lettersAt, ← hc.rest_eq]
    · rw [String.toList_ofList, hRest, List.takeWhile_cons_of_pos hFirst]
      exact List.cons_ne_nil _ _

theorem placing_primary : Placing text (primary inside) := by
  intro c hc
  rw [primary]
  split
  · exact placed_fail rfl
  · rename_i first rest hRest
    split
    · rename_i hAlpha
      exact placed_name hInside hForward hc hRest hAlpha
    · split
      · exact placed_numeral c
      · split
        · exact placed_group hInside _ hc (by simp [hRest])
        · exact placed_fail rfl

theorem placing_factor : Placing text (factor inside) := by
  intro c hc
  obtain ⟨odd, c₁, hSigns, hMinus⟩ := signs_minusSigns false c.position c.rest
  rw [factor_eq_operand, hMinus, Bool.false_xor]
  have hFirst := hc.trans (hSigns.ahead.trans c₁.ahead_skipBlanks)
  refine (placing_primary hInside hForward _ hFirst).bind fun c₂ hRead => ?_
  have hSecond := (forward_primary hForward _).ahead hRead
  refine (placed_suffixes odd _ _).bind fun c₃ hSuffixes => ?_
  have hThird := (onward_suffixes odd c₂.position c₂.rest).ahead hSuffixes
  cases odd with
  | false => exact placed_pure _
  | true =>
    have hPlace := position_pos_of_signs hSigns
    have hBehind := ((c₁.ahead_skipBlanks.trans hSecond).trans hThird).position_le
    exact placed_then (by simp) (Nat.lt_of_lt_of_le hPlace hBehind) (placed_pure _)

theorem placing_powerOf {exponent : Reader} (hExponent : Placing text exponent)
    (hForward' : Forward exponent) : Placing text (powerOf inside exponent) := by
  intro c hc
  rw [powerOf_eq_powerEnd]
  refine (placing_factor hInside hForward c hc).bind fun c₁ hRead => ?_
  have hFirst := hc.trans ((forward_factor hForward c).ahead hRead)
  rw [powerEnd]
  split
  · rename_i rest hSign
    refine (hExponent _ (hFirst.trans (Cursor.ahead_of_rest hSign))).bind fun c₂ hRight => ?_
    have hBehind := ((hForward' _).ahead hRight).position_le
    exact placed_then (by simp) (Nat.lt_of_lt_of_le (Nat.succ_pos _) hBehind) (placed_pure _)
  · exact placed_pure _

end Inside

section Chains

variable {operator? : List Char → Option (Operator × Nat)} {reader : Reader}

theorem placing_links (hStanding : Standing operator?) (hReader : Placing text reader)
    (hForward : Forward reader) (bound : Nat) : Placing text (links operator? reader bound) := by
  induction bound with
  | zero => exact fun c _ => placed_pure c
  | succ bound ih =>
    intro c hc
    rw [links]
    split
    · exact placed_pure _
    · rename_i op width hFound
      obtain ⟨hWidth, hLength⟩ := hStanding _ _ _ hFound
      have hNext := hc.trans (Cursor.ahead_advance hLength)
      refine (hReader _ hNext).bind fun c₁ hRead => ?_
      have hAhead := (hForward _).ahead hRead
      have hBehind := hAhead.position_le
      exact placed_then (by simp) (Nat.lt_of_lt_of_le (Nat.add_pos_right _ hWidth) hBehind)
        (ih _ (hNext.trans hAhead))

theorem placing_chain (hStanding : Standing operator?) (hReader : Placing text reader)
    (hForward : Forward reader) : Placing text (chain operator? reader) := by
  intro c hc
  refine (hReader c hc).bind fun c₁ hRead => ?_
  exact placing_links hStanding hReader hForward _ _ (hc.trans ((hForward c).ahead hRead))

end Chains

theorem placing_sumsOf {power : Reader} (hPower : Placing text power) (hForward : Forward power) :
    Placing text (sumsOf power) :=
  placing_chain standing_sumOperator? (placing_chain standing_productOperator? hPower hForward)
    (forward_chain standing_productOperator? hForward)

theorem placing_powerWithin (text : List Char) {deep : Cause} (hDeep : deep.ofText = true) (room : Nat) :
    Placing text (powerWithin deep room) := by
  induction room with
  | zero => exact placing_refuse hDeep
  | succ room ih =>
    have hInside : Placing text (expression deep room) := by
      rw [expression_eq_sumsOf]
      exact placing_sumsOf ih (forward_powerWithin deep room)
    rw [powerWithin_succ]
    exact placing_powerOf hInside (forward_expression deep room) ih (forward_powerWithin deep room)

theorem ofText_tooDeep [Interpreter] (limit : Int) : (tooDeep limit).ofText = true := by
  unfold tooDeep
  split <;> rfl

theorem placed_read [Interpreter] (limit : Int) (text : List Char) : (read limit text).Placed text := by
  have hExpression : Placing text (expression (tooDeep limit) (levels limit)) := by
    rw [expression_eq_sumsOf]
    exact placing_sumsOf (placing_powerWithin text (ofText_tooDeep limit) _) (forward_powerWithin _ _)
  rw [read]
  refine (hExpression _ (Cursor.ahead_refl _)).bind fun c _ => ?_
  split
  · exact placed_pure _
  · exact placed_fail rfl

end Readers

end Reckon.Expression
