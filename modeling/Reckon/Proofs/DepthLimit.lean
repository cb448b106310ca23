import Mathlib.Order.Bounds.Basic
import Reckon.Proofs.Expression.Balance
import Reckon.Proofs.Expression.Nesting
import Reckon.Proofs.SyntaxFaults

/-! # The limit on nesting

A text is refused for its nesting at the first operand that stands deeper than the limit, unless it fails
before. Any other text has the outcome that it has without a limit.
-/
namespace Reckon
set_option autoImplicit false
open Expression

namespace Expression

variable {A : Arithmetic} {deep : Cause} {room room' : Nat} {text : List Char}

/-! ## Operands that stand too deep -/

/-- The offsets of the operands that stand in more than `limit` levels, when all before them is complete
    and has its value. The text is one level, and so is each bracket, call and power around an operand. -/
def deeper (A : Arithmetic) (text : List Char) (limit : Int) : Set Nat :=
  {p | ∃ (k : Nat) (o : Cursor), limit < k + 1 ∧ Awaits A .expression ⟨0, text⟩ k .power o ∧
    o.position = p}

/-- With too few levels for an operand the reading does not get past it. -/
theorem Awaits.cuts {c o : Cursor} {k : Nat} (h : Awaits A .expression c k .power o) (hRoom : room ≤ k)
    (deep : Cause) (stack : Stack) : Cuts A deep (expression deep room c) stack o.position := by
  have hComes := h.leads deep room stack
  rw [readerOf_expression] at hComes
  rcases hComes with hCuts | ⟨hLevels, next, stack', hReaches⟩
  · exact hCuts
  · obtain rfl := Nat.le_antisymm hRoom hLevels
    rw [Nat.sub_self] at hReaches
    have hRefuse : Cuts A deep (powerWithin deep 0 o) stack' o.position := ⟨_, Nat.le_refl _, rfl⟩
    exact (hRefuse.bind next).of_reaches hReaches

theorem valueWithin_eq_error_iff {stop : Stop} : valueWithin A deep room text = .error stop ↔
    execute A (readWithin deep room ⟨0, text⟩) [] = .error stop := map_eq_error_iff

theorem Awaits.valueWithin {o : Cursor} {k : Nat} (h : Awaits A .expression ⟨0, text⟩ k .power o)
    (hRoom : room ≤ k) (deep : Cause) :
    ∃ p ≤ o.position, valueWithin A deep room text = .error ⟨.cause deep, p, p⟩ := by
  obtain ⟨p, hPlace, hStop⟩ := (h.cuts hRoom deep []).bind textEnd
  exact ⟨p, hPlace, valueWithin_eq_error_iff.mpr hStop⟩

/-- What is refused for its nesting has an operand there that stands too deep. -/
theorem awaits_of_tooDeep {cause : Cause} {position reached : Nat} (hKind : cause.kind = .tooDeep)
    (h : valueWithin A deep room text = .error ⟨.cause cause, position, reached⟩) :
    cause = deep ∧ reached = position ∧
      ∃ o, Awaits A .expression ⟨0, text⟩ room .power o ∧ o.position = position := by
  rcases stopped_of_readWithin (valueWithin_eq_error_iff.mp h) with
    ⟨k, rest, target, o, rfl, hAwaits, hLeaf⟩ | ⟨t, c', x, next, rest, -, -, -, -, -, hStop⟩
  · cases hLeaf with
    | operation hOperates =>
      have hSyntactic := Operates.kind hOperates
      rw [hKind] at hSyntactic
      cases hSyntactic
    | deep => exact ⟨rfl, rfl, o, hAwaits, rfl⟩
    | refusal hRefuses => cases hRefuses <;> cases hKind
  · cases hStop
    cases hKind

theorem valueWithin_tooDeep_iff {limit : Int} (hKind : deep.kind = .tooDeep)
    (hRoom : ∀ k : Nat, limit < k + 1 ↔ room ≤ k) {p : Nat} :
    valueWithin A deep room text = .error ⟨.cause deep, p, p⟩ ↔ IsLeast (deeper A text limit) p := by
  have hMember {p : Nat} (h : valueWithin A deep room text = .error ⟨.cause deep, p, p⟩) :
      p ∈ deeper A text limit := by
    obtain ⟨-, -, o, hAwaits, hPlace⟩ := awaits_of_tooDeep hKind h
    exact ⟨room, o, (hRoom room).mpr (Nat.le_refl room), hAwaits, hPlace⟩
  constructor
  · intro h
    refine ⟨hMember h, ?_⟩
    rintro p' ⟨k, o, hDeep, hAwaits, rfl⟩
    obtain ⟨q, hPlace, hStop⟩ := hAwaits.valueWithin ((hRoom k).mp hDeep) deep
    rw [h] at hStop
    cases hStop
    exact hPlace
  · rintro ⟨⟨k, o, hDeep, hAwaits, rfl⟩, hLeast⟩
    obtain ⟨q, hPlace, hStop⟩ := hAwaits.valueWithin ((hRoom k).mp hDeep) deep
    obtain rfl := Nat.le_antisymm hPlace (hLeast (hMember hStop))
    exact hStop

/-- The first operand that stands too deep begins the text or stands behind the character that opens its
    last level. -/
theorem isLeast_deeper {limit : Int} {p : Nat} (h : IsLeast (deeper A text limit) p) :
    p = 0 ∧ limit < 1 ∨ ∃ next ∈ ['(', '[', '{', '^'], (text.take p).getLast? = some next := by
  obtain ⟨⟨k, o, hDeep, hAwaits, rfl⟩, hLeast⟩ := h
  by_cases hLimit : limit < 1
  · have hFirst : 0 ∈ deeper A text limit :=
      ⟨0, ⟨0, text⟩, by simpa using hLimit, awaits_expression A _, rfl⟩
    exact .inl ⟨Nat.le_zero.mp (hLeast hFirst), hLimit⟩
  · obtain ⟨o', hAwaits', hPlace, hOpened⟩ := hAwaits.begins (by omega)
    have hSame : o.position = o'.position :=
      Nat.le_antisymm (hLeast ⟨k, o', hDeep, hAwaits', rfl⟩) hPlace
    obtain ⟨next, hNext, hWeight⟩ := hOpened.getLast hAwaits'.ahead
    rw [hSame]
    refine .inr ⟨next, ?_, hNext⟩
    unfold weight at hWeight
    split at hWeight <;> simp_all

/-! ## Reading without a limit -/

/-- No way down is longer than the text, and so there are always levels left. -/
def unlimited (A : Arithmetic) (text : List Char) : Except Stop Number :=
  valueWithin A .beyondReach (text.length + 1) text

theorem Awaits.depth_le_length {o : Cursor} {k : Nat} {level target : Level}
    (h : Awaits A level ⟨0, text⟩ k target o) : k ≤ text.length := by
  have hBalance := h.le_balance
  have hLength := balance_le_length (text.take o.position)
  have hTake : (text.take o.position).length ≤ text.length := List.length_take_le' _ _
  omega

theorem valueWithin_ne_tooDeep (hRoom : text.length < room) {cause : Cause} {position reached : Nat}
    (h : valueWithin A deep room text = .error ⟨.cause cause, position, reached⟩) :
    cause.kind ≠ .tooDeep := by
  intro hKind
  obtain ⟨-, -, o, hAwaits, -⟩ := awaits_of_tooDeep hKind h
  have hDepth := hAwaits.depth_le_length
  omega

/-- If no operand stands too deep it does not matter how many more levels there are. -/
theorem valueWithin_eq_of_le (deep' : Cause) (hKind : deep.kind = .tooDeep) (h : room ≤ room')
    (hNone : ∀ o, ¬ Awaits A .expression ⟨0, text⟩ room .power o) :
    valueWithin A deep room text = valueWithin A deep' room' text := by
  rcases valueWithin_cut (A := A) deep deep' h text with hSame | ⟨p, hCut, -⟩
  · exact hSame
  · obtain ⟨-, -, o, hAwaits, -⟩ := awaits_of_tooDeep hKind hCut
    exact absurd hAwaits (hNone o)

theorem valueWithin_eq_unlimited (hKind : deep.kind = .tooDeep)
    (hNone : ∀ o, ¬ Awaits A .expression ⟨0, text⟩ room .power o) :
    valueWithin A deep room text = unlimited A text := by
  rcases Nat.le_total room (text.length + 1) with hRoom | hRoom
  · exact valueWithin_eq_of_le _ hKind hRoom hNone
  · refine (valueWithin_eq_of_le _ rfl hRoom fun o hAwaits => ?_).symm
    have hDepth := hAwaits.depth_le_length
    omega

theorem levels_le_iff [Interpreter] {limit : Int} (hReach : limit ≤ reach) (k : Nat) :
    limit < k + 1 ↔ levels limit ≤ k := by
  rw [levels]
  omega

theorem not_awaits_of_deeper_eq_empty [Interpreter] {limit : Int} (hReach : limit ≤ reach)
    (h : deeper A text limit = ∅)
    (o : Cursor) : ¬ Awaits A .expression ⟨0, text⟩ (levels limit) .power o := by
  intro hAwaits
  have hDeep := (levels_le_iff hReach (levels limit)).mpr (Nat.le_refl _)
  exact Set.eq_empty_iff_forall_notMem.mp h o.position ⟨levels limit, o, hDeep, hAwaits, rfl⟩

theorem deeper_eq_empty_of_balance {limit : Int} (h : ∀ n, balance (text.take n) < limit) :
    deeper A text limit = ∅ := by
  rw [Set.eq_empty_iff_forall_notMem]
  rintro p ⟨k, o, hDeep, hAwaits, rfl⟩
  have hLow := h o.position
  have hHigh := hAwaits.le_balance
  omega

end Expression

/-! ## Outcomes -/

/-- The outcome for a text with that value. -/
def outcomeOf (text : String) : Except Stop Number → Except Interruption Outcome
  | .ok value => .ok ⟨text, .ok value⟩
  | .error ⟨.cause cause, position, _⟩ => .ok ⟨text, .error (cause.fault position)⟩
  | .error ⟨.modulusOverflow, _, _⟩ => .error .modulusOverflow

theorem evaluate_eq_outcomeOf [Interpreter] (settings : Settings) (text : String) : evaluate settings text =
    outcomeOf text (valueWithin settings.arithmetic (tooDeep settings.maxDepth) (levels settings.maxDepth)
      text.toList) := by
  rw [← value_eq_valueWithin]
  rfl

/-- The text is refused for its nesting at the offset. -/
def RefusesNesting [Interpreter] (settings : Settings) (text : String) (p : Nat) : Prop :=
  evaluate settings text = .ok ⟨text, .error ((Cause.tooDeep settings.maxDepth).fault p)⟩

theorem refusesNesting_iff [Interpreter] {settings : Settings} {text : String} (hReach : settings.maxDepth ≤ reach)
    {p : Nat} : RefusesNesting settings text p ↔
      IsLeast (deeper settings.arithmetic text.toList settings.maxDepth) p := by
  have hDeep : tooDeep settings.maxDepth = .tooDeep settings.maxDepth := if_pos hReach
  rw [← valueWithin_tooDeep_iff (kind_tooDeep settings.maxDepth) (levels_le_iff hReach), hDeep]
  constructor
  · intro h
    obtain ⟨cause, position, reached, hFault, hValue⟩ := evaluate_fault_iff.mp h
    rw [value_eq_valueWithin, hDeep] at hValue
    obtain ⟨rfl, rfl, -⟩ := awaits_of_tooDeep (congrArg Fault.kind hFault).symm hValue
    cases hFault
    exact hValue
  · intro h
    exact evaluate_fault_iff.mpr ⟨_, p, p, rfl, by rwa [value_eq_valueWithin, hDeep]⟩

theorem evaluate_eq_outcomeOf_unlimited [Interpreter] {settings : Settings} {text : String}
    (hReach : settings.maxDepth ≤ reach)
    (hNone : deeper settings.arithmetic text.toList settings.maxDepth = ∅) :
    evaluate settings text = outcomeOf text (unlimited settings.arithmetic text.toList) := by
  rw [evaluate_eq_outcomeOf, valueWithin_eq_unlimited (kind_tooDeep _)]
  exact not_awaits_of_deeper_eq_empty hReach hNone

theorem refusesNesting_or_eq_empty [Interpreter] {settings : Settings} (text : String)
    (hReach : settings.maxDepth ≤ reach) : (∃ p, RefusesNesting settings text p) ∨
      deeper settings.arithmetic text.toList settings.maxDepth = ∅ := by
  rcases Set.eq_empty_or_nonempty (deeper settings.arithmetic text.toList settings.maxDepth) with
    hNone | hSome
  · exact .inr hNone
  · exact .inl ⟨_, (refusesNesting_iff hReach).mpr (isLeast_csInf hSome)⟩

/-- Where an operand is read the levels around it are used up and no others. A text is refused at its first
    operand that stands too deep, right behind the character that opens a level there, and otherwise has the
    outcome that it has without a limit, and with every wider one. -/
theorem evaluate_depth_limit [Interpreter] (settings : Settings) (text : String)
    (hReach : settings.maxDepth ≤ reach) :
    (∀ k o, Awaits settings.arithmetic .expression ⟨0, text.toList⟩ k .power o → ∀ deep room,
      Comes settings.arithmetic deep room k o (readWithin deep room ⟨0, text.toList⟩) []) ∧
    (∀ p, RefusesNesting settings text p ↔
      IsLeast (deeper settings.arithmetic text.toList settings.maxDepth) p) ∧
    (∀ p, RefusesNesting settings text p → p = 0 ∧ settings.maxDepth < 1 ∨
      ∃ next ∈ ['(', '[', '{', '^'], (text.toList.take p).getLast? = some next) ∧
    ((∀ p, ¬ RefusesNesting settings text p) →
      evaluate settings text = outcomeOf text (unlimited settings.arithmetic text.toList)) ∧
    (∀ cause position reached, unlimited settings.arithmetic text.toList =
      .error ⟨.cause cause, position, reached⟩ → cause.kind ≠ .tooDeep) ∧
    (∀ limit, settings.maxDepth ≤ limit → (∃ p, RefusesNesting settings text p) ∨
      evaluate { settings with maxDepth := limit } text = evaluate settings text) ∧
    ((∀ n, balance (text.toList.take n) < settings.maxDepth) →
      ∀ p, ¬ RefusesNesting settings text p) := by
  have hOtherwise (h : ∀ p, ¬ RefusesNesting settings text p) :
      deeper settings.arithmetic text.toList settings.maxDepth = ∅ :=
    (refusesNesting_or_eq_empty text hReach).resolve_left fun ⟨p, hRefuses⟩ => h p hRefuses
  refine ⟨?_, fun p => refusesNesting_iff hReach, ?_, ?_, ?_, ?_, ?_⟩
  · intro k o hAwaits deep room
    have hComes := hAwaits.leads deep room []
    rw [readerOf_expression] at hComes
    exact hComes.bind textEnd
  · intro p hRefuses
    exact isLeast_deeper ((refusesNesting_iff hReach).mp hRefuses)
  · intro h
    exact evaluate_eq_outcomeOf_unlimited hReach (hOtherwise h)
  · intro cause position reached hStop
    exact valueWithin_ne_tooDeep (Nat.lt_succ_self _) hStop
  · intro limit hLimit
    refine (refusesNesting_or_eq_empty text hReach).imp_right fun hNone => ?_
    have hLevels : levels settings.maxDepth ≤ levels limit := by
      rw [levels, levels]
      omega
    have hSame := valueWithin_eq_of_le (tooDeep limit) (kind_tooDeep settings.maxDepth) hLevels
      (not_awaits_of_deeper_eq_empty hReach hNone)
    rw [evaluate_eq_outcomeOf, evaluate_eq_outcomeOf]
    exact congrArg (outcomeOf text) hSame.symm
  · intro h p hRefuses
    have hLeast := (refusesNesting_iff hReach).mp hRefuses
    rw [deeper_eq_empty_of_balance h] at hLeast
    exact hLeast.1

theorem evaluate_depth_limit_two :
    RefusesNesting { maxDepth := 2 } "(1+2)x((3))" 8 ∧
      IsLeast (deeper ⟨.complex, defaultEpsilon⟩ "(1+2)x((3))".toList 2) 8 ∧
      ∀ p, ¬ RefusesNesting { maxDepth := 1 } "--1+2x3//4!%-5" p := by
  have hRefuses : RefusesNesting { maxDepth := 2 } "(1+2)x((3))" 8 := by
    unfold RefusesNesting
    decide +kernel
  have hExact := (evaluate_depth_limit { maxDepth := 2 } "(1+2)x((3))" (by decide)).2.1
  have hFlat := (evaluate_depth_limit { maxDepth := 1 } "--1+2x3//4!%-5" (by decide)).2.2.2.2.2.2
  refine ⟨hRefuses, (hExact 8).mp hRefuses, hFlat fun n => ?_⟩
  have hNone : ∀ next ∈ "--1+2x3//4!%-5".toList, weight next = 0 := by simp [weight]
  rw [balance_of_forall fun next hNext => hNone next (List.mem_of_mem_take hNext)]
  decide

end Reckon
