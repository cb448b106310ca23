import Reckon.Proofs.Expression.Walk

/-! # Walks lead forward and not too deep

No step leads back, every call that returns and every turn of a loop has moved the cursor, and no more calls are open
than there were places for. What calls do preserves this if the calls inside of them do; how many there are to come is
the invariant that the recursion on places carries.
-/
namespace Reckon.Expression
set_option autoImplicit false
open Text (isBlank)

/-! ## Steps -/

def Step.position : Step → Nat
  | enter _ position | leave _ _ position | turn _ _ position => position
  | act i => i.reached

/-- A call that has returned and a turn of a loop have moved the cursor. -/
def Step.Moves : Step → Prop
  | leave _ start position | turn _ start position => start < position
  | enter _ _ | act _ => True

/-- The steps lead from one offset to another, and none of them back. -/
def Progresses : Nat → List Step → Nat → Prop
  | start, [], stop => start ≤ stop
  | start, step :: steps, stop => start ≤ step.position ∧ step.Moves ∧ Progresses step.position steps stop

theorem Progresses.append {start middle stop : Nat} {steps more : List Step} (h : Progresses start steps middle)
    (hMore : Progresses middle more stop) : Progresses start (steps ++ more) stop := by
  induction steps generalizing start with
  | nil =>
    cases more with
    | nil => exact Nat.le_trans h hMore
    | cons step more => exact ⟨Nat.le_trans h hMore.1, hMore.2⟩
  | cons step steps ih => exact ⟨h.1, h.2.1, ih h.2.2⟩

theorem Progresses.step {start stop : Nat} {step : Step} (hStart : start ≤ step.position) (hMoves : step.Moves)
    (hStop : step.position ≤ stop) : Progresses start [step] stop := ⟨hStart, hMoves, hStop⟩

theorem Progresses.forall {start stop : Nat} {steps : List Step} (h : Progresses start steps stop) :
    ∀ step ∈ steps, start ≤ step.position ∧ step.position ≤ stop ∧ step.Moves := by
  induction steps generalizing start with
  | nil => nofun
  | cons step steps ih =>
    obtain ⟨hStart, hMoves, hMore⟩ := h
    have hStop : step.position ≤ stop := by
      cases steps with
      | nil => exact hMore
      | cons next steps =>
        obtain ⟨hNext, hBound, -⟩ := ih hMore next List.mem_cons_self
        exact Nat.le_trans hNext hBound
    refine List.forall_mem_cons.mpr ⟨⟨hStart, hStop, hMoves⟩, fun other hMember => ?_⟩
    obtain ⟨hNext, hBound, hMoves'⟩ := ih hMore other hMember
    exact ⟨Nat.le_trans hStart hNext, hBound, hMoves'⟩

theorem Progresses.pairwise {start stop : Nat} {steps : List Step} (h : Progresses start steps stop) :
    (steps.map Step.position).Pairwise (· ≤ ·) := by
  induction steps generalizing start with
  | nil => exact .nil
  | cons step steps ih =>
    refine .cons ?_ (ih h.2.2)
    intro position hMember
    obtain ⟨next, hNext, rfl⟩ := List.mem_map.mp hMember
    exact (h.2.2.forall next hNext).1

/-! ## Open calls -/

/-- The open calls after a step, the one that was made last in front. -/
def Step.chain (chain : List Call) : Step → List Call
  | enter call _ => call :: chain
  | leave _ _ _ => chain.tail
  | turn _ _ _ | act _ => chain

def chainAfter (chain : List Call) (steps : List Step) : List Call := steps.foldl Step.chain chain

theorem chainAfter_append (chain : List Call) (steps more : List Step) :
    chainAfter chain (steps ++ more) = chainAfter (chainAfter chain steps) more := List.foldl_append

/-- All calls that are made have returned at the end. -/
def Balanced (steps : List Step) : Prop := ∀ chain, chainAfter chain steps = chain

/-- At no time more than `room` of the calls that are made are open. -/
def Bounded (room : Nat) (steps : List Step) : Prop :=
  ∀ chain k, (chainAfter chain (steps.take k)).length ≤ chain.length + room

variable {room : Nat} {steps more : List Step}

theorem balanced_nil : Balanced [] := fun _ => rfl

theorem Balanced.append (h : Balanced steps) (hMore : Balanced more) : Balanced (steps ++ more) := by
  intro chain
  rw [chainAfter_append, h, hMore]

theorem Bounded.append (h : Bounded room steps) (hLevel : Balanced steps) (hMore : Bounded room more) :
    Bounded room (steps ++ more) := by
  intro chain k
  rw [List.take_append]
  rcases Nat.le_total k steps.length with hInside | hBeyond
  · rw [Nat.sub_eq_zero_of_le hInside, List.take_zero, List.append_nil]
    exact h chain k
  · rw [List.take_of_length_le hBeyond, chainAfter_append, hLevel]
    exact hMore chain _

/-- A step that makes no call and returns from none. -/
def Step.Level (step : Step) : Prop := ∀ chain, step.chain chain = chain

theorem balanced_of_level (h : ∀ step ∈ steps, step.Level) : Balanced steps := by
  intro chain
  induction steps with
  | nil => rfl
  | cons step steps ih =>
    obtain ⟨hFirst, hMore⟩ := List.forall_mem_cons.mp h
    rw [chainAfter, List.foldl_cons, hFirst chain]
    exact ih hMore

theorem bounded_of_level (h : ∀ step ∈ steps, step.Level) : Bounded room steps := by
  intro chain k
  rw [balanced_of_level fun step hMember => h step (List.mem_of_mem_take hMember)]
  exact Nat.le_add_right _ _

/-- At the end the call is open, and of the calls that are made no other. -/
def Opens (call : Call) (steps : List Step) : Prop := ∀ chain, chainAfter chain steps = call :: chain

variable {call : Call} {start position : Nat}

theorem Balanced.enter (h : Balanced steps) : Opens call (.enter call position :: steps) := fun chain =>
  h (call :: chain)

theorem Opens.leave (h : Opens call steps) : Balanced (steps ++ [.leave call start position]) := by
  intro chain
  rw [chainAfter_append, h]
  rfl

theorem Bounded.enter (h : Bounded room steps) : Bounded (room + 1) (.enter call position :: steps) := by
  intro chain k
  cases k with
  | zero => exact Nat.le_add_right _ _
  | succ k =>
    have hInside := h (call :: chain) k
    rw [List.length_cons] at hInside
    rw [List.take_succ_cons, chainAfter, List.foldl_cons]
    exact Nat.le_trans hInside (by omega)

theorem Bounded.leave (h : Bounded room steps) (hOpen : Opens call steps) :
    Bounded room (steps ++ [.leave call start position]) := by
  intro chain k
  rcases Nat.lt_or_ge steps.length k with hBeyond | hInside
  · rw [List.take_of_length_le (by rw [List.length_append]; exact hBeyond), hOpen.leave]
    exact Nat.le_add_right _ _
  · rw [List.take_append_of_le_length hInside]
    exact h chain k

/-! ## Walks -/

namespace Walk

variable {α β : Type} {gain gain' : Nat} {m : Walk α} {c d : Cursor} {next : α → Cursor} {next' : β → Cursor}

/-- The walk begins at a cursor, leads forward and, if it succeeds, by at least `gain` to the cursor of its value; it
    leaves no calls open and makes no more than `room` of them inside of each other. -/
structure Safe (room gain : Nat) (m : Walk α) (c : Cursor) (next : α → Cursor) : Prop where
  ahead : ∀ a, m.outcome = .ok a → c.Ahead (next a)
  gain : ∀ a, m.outcome = .ok a → c.position + gain ≤ (next a).position
  steps : ∀ a, m.outcome = .ok a → Progresses c.position m.steps (next a).position
  balanced : ∀ a, m.outcome = .ok a → Balanced m.steps
  error : ∀ e, m.outcome = .error e → Progresses c.position m.steps (c.position + c.rest.length)
  bounded : Bounded room m.steps

theorem safe_pure {a : α} (h : c.Ahead (next a)) (hGain : c.position + gain ≤ (next a).position) :
    Safe room gain (pure a) c next where
  ahead := by rintro _ ⟨⟩; exact h
  gain := by rintro _ ⟨⟩; exact hGain
  steps := by rintro _ ⟨⟩; exact h.position_le
  balanced _ _ := balanced_nil
  error := nofun
  bounded := bounded_of_level nofun

theorem safe_here (c : Cursor) : Safe room 0 (pure c) c id := safe_pure c.ahead_refl (Nat.le_refl _)

theorem Safe.weaken {gain' : Nat} (h : Safe room gain m c next) (hGain : gain' ≤ gain) :
    Safe room gain' m c next :=
  { h with gain := fun a hOutcome => Nat.le_trans (Nat.add_le_add_left hGain _) (h.gain a hOutcome) }

theorem Safe.bind_add {f : α → Walk β} (h : Safe room gain m c next)
    (hNext : ∀ a, m.outcome = .ok a → Safe room gain' (f a) (next a) next') :
    Safe room (gain + gain') (m >>= f) c next' := by
  cases hOutcome : m.outcome with
  | error e =>
    rw [bind_of_error hOutcome]
    exact ⟨nofun, nofun, nofun, nofun, fun _ _ => h.error e hOutcome, h.bounded⟩
  | ok a =>
    have hAhead := h.ahead a hOutcome
    have hRest := hNext a hOutcome
    have hSteps := h.steps a hOutcome
    have hLevel := h.balanced a hOutcome
    rw [bind_of_ok hOutcome]
    refine ⟨fun b hb => hAhead.trans (hRest.ahead b hb), fun b hb => ?_, fun b hb => hSteps.append (hRest.steps b hb),
      fun b hb => hLevel.append (hRest.balanced b hb), fun e he => ?_, h.bounded.append hLevel hRest.bounded⟩
    · have hHere := h.gain a hOutcome
      have hThere := hRest.gain b hb
      omega
    · have hError := hRest.error e he
      rw [hAhead.end_eq] at hError
      exact hSteps.append hError

theorem Safe.bind {f : α → Walk β} (h : Safe room gain m c next)
    (hNext : ∀ a, m.outcome = .ok a → Safe room 0 (f a) (next a) next') : Safe room gain (m >>= f) c next' :=
  h.bind_add hNext

theorem Safe.bind_gain {f : α → Walk β} (h : Safe room 0 m c next)
    (hNext : ∀ a, m.outcome = .ok a → Safe room gain (f a) (next a) next') : Safe room gain (m >>= f) c next' := by
  have hBind := h.bind_add hNext
  rwa [Nat.zero_add] at hBind

theorem Safe.after (h : Safe room gain m d next) (hAhead : c.Ahead d) : Safe room gain m c next := by
  have hThere : Safe room 0 (pure () : Walk Unit) c fun _ => d := safe_pure hAhead hAhead.position_le
  exact hThere.bind_gain fun _ _ => h

theorem Safe.from (h : Safe room 0 m d next) (hAhead : c.Ahead d) (hGain : c.position + gain ≤ d.position) :
    Safe room gain m c next := by
  have hThere : Safe room gain (pure () : Walk Unit) c fun _ => d := safe_pure hAhead hGain
  exact hThere.bind fun _ _ => h

/-- Readings that emit no more than one instruction. -/
theorem safe_ofReading {r : Reading α} (h : r.Onward c next) (hCode : r.code.length ≤ 1)
    (hGain : ∀ a, r.outcome = .ok a → c.position + gain ≤ (next a).position) :
    Safe room gain (ofReading r) c next := by
  have hSteps {stop : Nat} (hSpans : Spans c.position r.code stop) :
      Progresses c.position (r.code.map .act) stop := by
    cases hList : r.code with
    | nil => exact hSpans.le
    | cons i more =>
      rw [hList, List.length_cons] at hCode
      obtain rfl : more = [] := List.length_eq_zero_iff.mp (by omega)
      obtain ⟨hStart, hStop⟩ := hSpans.reached i (by rw [hList]; exact List.mem_cons_self)
      exact .step hStart trivial hStop
  have hLevel : ∀ step ∈ r.code.map Step.act, step.Level := by
    intro step hMember chain
    obtain ⟨i, -, rfl⟩ := List.mem_map.mp hMember
    rfl
  refine ⟨fun a ha => h.ahead ha, hGain, fun a ha => hSteps (h.spans ha), fun _ _ => balanced_of_level hLevel,
    fun e he => ?_, bounded_of_level hLevel⟩
  obtain ⟨hSpans, -, hReached⟩ := h.spans_error he
  exact hSteps ⟨Nat.le_trans hSpans.le hReached, fun i hi =>
    ⟨(hSpans.reached i hi).1, Nat.le_trans (hSpans.reached i hi).2 hReached⟩, hSpans.position⟩

theorem safe_fail {cause : Cause} {position : Nat} (h : position ≤ c.position) :
    Safe room gain (ofReading (.fail ⟨cause, position, c.position⟩ : Reading α)) c next :=
  safe_ofReading (Reading.onward_fail h) (Nat.zero_le 1) nofun

theorem safe_refuse (cause : Cause) : Safe room gain (ofReading (c.fail cause : Reading α)) c next :=
  safe_fail (Nat.le_refl _)

theorem safe_emit (action : Action) : Safe room 0 (ofReading (c.emit action)) c fun _ => c :=
  safe_ofReading (Reading.onward_note action) (Nat.le_refl 1) fun _ _ => Nat.le_refl _

theorem safe_turn {loop : Loop} {start : Nat} (h : start < c.position) :
    Safe room 0 (mark (.turn loop start c.position)) c fun _ => c where
  ahead _ _ := c.ahead_refl
  gain _ _ := Nat.le_refl _
  steps _ _ := .step (Nat.le_refl _) h (Nat.le_refl _)
  balanced _ _ := fun _ => rfl
  error := nofun
  bounded := bounded_of_level (List.forall_mem_singleton.mpr fun _ => rfl)

end Walk

open Walk

section Within

variable {call : Call} {walk : Walker} {c : Cursor}

theorem within_of_error {e : Complaint} (h : (walk c).outcome = .error e) :
    within call walk c = ⟨.enter call c.position :: (walk c).steps, .error e⟩ := by
  rw [within, bind_of_ok rfl, bind_of_error h]
  rfl

theorem within_of_ok {c' : Cursor} (h : (walk c).outcome = .ok c') :
    within call walk c =
      ⟨.enter call c.position :: (walk c).steps ++ [.leave call c.position c'.position], .ok c'⟩ := by
  rw [within, bind_of_ok rfl, bind_of_ok h]
  rfl

/-- Within a call one more call is open. -/
theorem safe_within (h : Safe room 1 (walk c) c id) : Safe (room + 1) 1 (within call walk c) c id := by
  have hBounded : Bounded (room + 1) (.enter call c.position :: (walk c).steps) := h.bounded.enter
  cases hOutcome : (walk c).outcome with
  | error e =>
    rw [within_of_error hOutcome]
    refine ⟨by rintro _ ⟨⟩, by rintro _ ⟨⟩, by rintro _ ⟨⟩, by rintro _ ⟨⟩, fun _ _ => ?_, hBounded⟩
    exact ⟨Nat.le_refl _, trivial, h.error e hOutcome⟩
  | ok c' =>
    have hAhead := h.ahead c' hOutcome
    have hGain := h.gain c' hOutcome
    have hOpen : Opens call (.enter call c.position :: (walk c).steps) := (h.balanced c' hOutcome).enter
    rw [within_of_ok hOutcome]
    refine ⟨?_, ?_, ?_, fun _ _ => hOpen.leave, by rintro _ ⟨⟩, hBounded.leave hOpen⟩
    · rintro _ ⟨⟩
      exact hAhead
    · rintro _ ⟨⟩
      exact hGain
    · rintro _ ⟨⟩
      have hSteps : Progresses c.position (.enter call c.position :: (walk c).steps) c'.position :=
        ⟨Nat.le_refl _, trivial, h.steps c' hOutcome⟩
      exact hSteps.append (.step (Nat.le_refl _) hGain (Nat.le_refl _))

end Within

/-! ## Loops -/

section Loops

variable {σ : Type} {overflow : Cause} {loop : Loop} {cursor : σ → Cursor} {turn? : σ → Option (Walk σ)}

/-- A loop is safe if each of its turns moves the cursor. -/
theorem safe_repeats (hTurn : ∀ s walk, turn? s = some walk → Safe room 1 walk (cursor s) cursor) (bound : Nat)
    (s : σ) : Safe room 0 (repeats overflow loop cursor turn? bound s) (cursor s) cursor := by
  induction bound generalizing s with
  | zero =>
    rw [repeats]
    split
    · exact safe_pure (cursor s).ahead_refl (Nat.le_refl _)
    · exact safe_refuse overflow
  | succ bound ih =>
    rw [repeats]
    split
    · exact safe_pure (cursor s).ahead_refl (Nat.le_refl _)
    · rename_i walk hSome
      have hWalk := hTurn s walk hSome
      refine (hWalk.weaken (Nat.zero_le 1)).bind fun s' hOutcome => ?_
      exact (safe_turn (hWalk.gain s' hOutcome)).bind fun _ _ => ih s'

end Loops

variable {overflow deep : Cause} {inside : Walker}

theorem safe_blanks (c : Cursor) : Safe room 0 (blanks overflow c) c id := by
  refine safe_repeats (fun c walk hTurn => ?_) _ c
  unfold blankTurn? at hTurn
  split at hTurn
  · rename_i next rest hRest
    split at hTurn
    · cases hTurn
      exact safe_pure (Cursor.ahead_of_rest hRest) (Nat.le_refl _)
    · cases hTurn
  · cases hTurn

theorem safe_signs (c : Cursor) : Safe room 0 (signs overflow c) c Prod.snd := by
  have hTurn (s : Bool × Cursor) (walk : Walk (Bool × Cursor)) (h : signTurn? overflow s = some walk) :
      Safe room 1 walk s.2 Prod.snd := by
    unfold signTurn? at h
    split at h
    · rename_i rest hRest
      cases h
      have hBlanks : Safe room 1 (blanks overflow (s.2.advance 1)) s.2 id :=
        (safe_blanks _).from (Cursor.ahead_of_rest hRest) (Nat.le_refl _)
      exact hBlanks.bind fun c _ => safe_pure (Cursor.ahead_refl _) (Nat.le_refl _)
    · cases h
  exact (safe_blanks c).bind fun c' _ => safe_repeats hTurn _ (false, c')

theorem safe_suffixWalk (negated : Bool) (c : Cursor) : Safe room 0 (suffixWalk overflow negated c) c id := by
  refine (safe_blanks c).bind fun c' _ => safe_repeats (fun c walk hTurn => ?_) _ c'
  have hBehind {rest : List Char} {sign : Char} (hRest : c.rest = sign :: rest) (action : Action) :
      Safe room 1 (do ofReading ((c.advance 1).emit action); blanks overflow (c.advance 1)) c id :=
    ((safe_emit action).bind fun _ _ => safe_blanks _).from (Cursor.ahead_of_rest hRest) (Nat.le_refl _)
  unfold suffixTurn? at hTurn
  split at hTurn
  · rename_i rest hRest
    cases hTurn
    exact hBehind hRest _
  · rename_i rest hRest
    cases hTurn
    exact hBehind hRest _
  · cases hTurn

theorem safe_chainWalk {loop : Loop} {operator? : List Char → Option (Operator × Nat)} {operand : Walker}
    (hStanding : Standing operator?) (hOperand : ∀ c, Safe room 1 (operand c) c id) (c : Cursor) :
    Safe room 1 (chainWalk overflow loop operator? operand c) c id := by
  refine (hOperand c).bind fun c' _ => safe_repeats (fun c walk hTurn => ?_) _ c'
  obtain ⟨⟨op, width⟩, hFound, rfl⟩ := Option.map_eq_some_iff.mp hTurn
  have hRight := (hOperand (c.advance width)).after (Cursor.ahead_advance (hStanding _ _ _ hFound).2)
  exact hRight.bind fun c' _ => (safe_emit _).bind fun _ _ => safe_here c'

theorem safe_argumentTurn {s : Nat × Cursor} {walk : Walk (Nat × Cursor)}
    (hInside : ∀ c, Safe room 1 (inside c) c id) (hTurn : argumentTurn? inside s = some walk) :
    Safe room 1 walk s.2 Prod.snd := by
  unfold argumentTurn? at hTurn
  split at hTurn
  · rename_i rest hRest
    cases hTurn
    have hNext := (hInside (s.2.advance 1)).after (Cursor.ahead_of_rest hRest)
    exact hNext.bind fun c _ => safe_pure (Cursor.ahead_refl _) (Nat.le_refl _)
  · cases hTurn

/-! ## Calls -/

/-- Groups are called at a bracket, names at a letter, and arguments behind their name. -/
def Call.Ready (c : Cursor) : Call → Prop
  | .group _ => c.rest ≠ []
  | .arguments _ start => start ≤ c.position
  | .name => c.rest.takeWhile Char.isAlpha ≠ []
  | _ => True

theorem safe_endWalk (c : Cursor) : Safe room 0 (endWalk c) c id := by
  rw [endWalk]
  split
  · exact safe_here c
  · exact safe_refuse _

theorem safe_negation (negated : Bool) (c : Cursor) : Safe room 0 (ofReading (negation negated c)) c id := by
  have hOnward := forward_negation negated c
  refine safe_ofReading hOnward ?_ fun a ha => (hOnward.ahead ha).position_le
  cases negated with
  | false => exact Nat.zero_le 1
  | true => exact Nat.le_refl 1

theorem safe_groupEnd (b : Bracket) (c : Cursor) : Safe room 0 (ofReading (groupEnd b c)) c id := by
  have hOnward := forward_groupEnd b c
  refine safe_ofReading hOnward ?_ fun a ha => (hOnward.ahead ha).position_le
  rw [groupEnd]
  split
  · split
    · exact Nat.zero_le 1
    · exact Nat.zero_le 1
  · exact Nat.zero_le 1

theorem safe_callEnd (f : Builtin) {start : Nat} (count : Nat) {c : Cursor} (hStart : start ≤ c.position) :
    Safe room 0 (ofReading (callEnd f start count c)) c id := by
  have hOnward := onward_callEnd f count hStart
  refine safe_ofReading hOnward ?_ fun a ha => (hOnward.ahead ha).position_le
  rw [callEnd]
  split
  · dsimp only
    split
    · exact Nat.le_refl 1
    · exact Nat.zero_le 1
  · exact Nat.zero_le 1

theorem safe_numeral (c : Cursor) : Safe room 1 (ofReading (numeral c)) c id := by
  cases hScan : Numeral.scan? c.rest with
  | none =>
    rw [numeral, hScan]
    exact safe_refuse .lonePoint
  | some found =>
    obtain ⟨n, rest⟩ := found
    have hOnward := onward_numeral hScan
    have hLength : n.text.length ≤ c.rest.length := by
      rw [Numeral.eq_of_scan? hScan, List.length_append]
      exact Nat.le_add_right _ _
    have hRead : Safe room 0 (ofReading (numeral c)) (c.advance n.text.length) id := by
      refine safe_ofReading hOnward ?_ fun a ha => (hOnward.ahead ha).position_le
      rw [numeral, hScan]
      exact Nat.le_refl 1
    refine hRead.from (Cursor.ahead_advance hLength) (Nat.add_le_add_left ?_ c.position)
    exact Numeral.length_pos_of_proper (Numeral.proper_of_scan? hScan)

/-- The calls that are made inside of a call are safe. -/
def SafeCalls (room : Nat) (walk : Call → Nat → Walker) : Prop :=
  ∀ call levels c, call.Ready c → Safe room 1 (walk call levels c) c id

section Bodies

variable {walk : Call → Nat → Walker} {levels : Nat} {c : Cursor}

theorem safe_power (hWalk : SafeCalls room walk) : Safe room 1 (body overflow deep walk .power levels c) c id := by
  have hDown (c : Cursor) : Safe room 1 (furtherDown deep (walk .power) levels c) c id := by
    cases levels with
    | zero => exact safe_refuse deep
    | succ levels => exact hWalk .power levels c trivial
  have hExponent (c : Cursor) : Safe room 0 (exponentWalk (furtherDown deep (walk .power) levels) c) c id := by
    unfold exponentWalk
    split
    · rename_i rest hRest
      refine (((hDown _).after (Cursor.ahead_of_rest hRest)).weaken (Nat.zero_le 1)).bind fun c' _ => ?_
      exact (safe_emit _).bind fun _ _ => safe_here c'
    · exact safe_here c
  exact (hWalk .factor levels c trivial).bind fun c' _ => hExponent c'

theorem safe_factor (hWalk : SafeCalls room walk) :
    Safe room 1 (body overflow deep walk .factor levels c) c id := by
  have hOperand (negated : Bool) (c : Cursor) : Safe room 1 (do
      let c ← walk .primary levels c
      let c ← suffixWalk overflow negated c
      ofReading (negation negated c)) c id :=
    (hWalk .primary levels c trivial).bind fun c₁ _ => (safe_suffixWalk negated c₁).bind fun c₂ _ =>
      safe_negation negated c₂
  exact (safe_signs c).bind_gain fun s _ => hOperand s.1 s.2

theorem safe_primary (hWalk : SafeCalls room walk) :
    Safe room 1 (body overflow deep walk .primary levels c) c id := by
  rw [body]
  dsimp only
  split
  · exact safe_refuse _
  · rename_i first rest hRest
    split
    · rename_i hAlpha
      exact hWalk .name levels c (by simp [Call.Ready, hRest, hAlpha])
    · split
      · exact safe_numeral c
      · split
        · exact hWalk (.group _) levels c (by simp [Call.Ready, hRest])
        · exact safe_refuse _

theorem safe_name (hWalk : SafeCalls room walk) (hLetter : c.rest.takeWhile Char.isAlpha ≠ []) :
    Safe room 1 (body overflow deep walk .name levels c) c id := by
  have hEmit (word : String) {after : Cursor} (hStart : c.position ≤ after.position) :
      Safe room 0 (do ofReading (.emit ⟨.constant word, c.position, after.position⟩); pure after) after id :=
    (safe_ofReading (Reading.onward_emit hStart) (Nat.le_refl 1) fun _ _ => Nat.le_refl _).bind fun _ _ =>
      safe_here after
  have hLetters := c.ahead_run Char.isAlpha
  have hGain : c.position + 1 ≤ (c.advance (c.rest.takeWhile Char.isAlpha).length).position :=
    Nat.add_le_add_left (List.length_pos_iff.mpr hLetter) c.position
  have hBlanks (c : Cursor) : Safe room 0 (blanks overflow c) c id := safe_blanks c
  rw [body]
  refine Safe.from ((hBlanks _).bind fun after hAfter => ?_) hLetters hGain
  have hStart : c.position ≤ after.position := (hLetters.trans ((hBlanks _).ahead after hAfter)).position_le
  dsimp only [id_eq]
  split
  · rename_i rest hOpen
    have hBehind : after.Ahead (after.advance 1) := Cursor.ahead_of_rest hOpen
    split
    · exact safe_fail hStart
    · rename_i f _
      have hArguments := hWalk (.arguments f c.position) levels (after.advance 1)
        (Nat.le_trans hStart hBehind.position_le)
      exact (hArguments.after hBehind).weaken (Nat.zero_le 1)
  · exact hEmit _ hStart

theorem safe_arguments (hWalk : SafeCalls room walk) (f : Builtin) {start : Nat} (hStart : start ≤ c.position) :
    Safe room 1 (body overflow deep walk (.arguments f start) levels c) c id := by
  have hInside (c : Cursor) : Safe room 1 (walk .expression levels c) c id := hWalk .expression levels c trivial
  have hTurns (c : Cursor) : Safe room 0
      (repeats overflow .arguments Prod.snd (argumentTurn? (walk .expression levels)) c.rest.length (1, c)) c
      Prod.snd :=
    safe_repeats (fun s inner => safe_argumentTurn hInside) c.rest.length (1, c)
  refine (hInside c).bind fun c' hFirst => (hTurns c').bind fun s hMore => safe_callEnd f s.1 ?_
  have hAhead := ((hInside c).ahead c' hFirst).trans ((hTurns c').ahead s hMore)
  exact Nat.le_trans hStart hAhead.position_le

theorem safe_group (hWalk : SafeCalls room walk) (b : Bracket) (hSome : c.rest ≠ []) :
    Safe room 1 (body overflow deep walk (.group b) levels c) c id := by
  obtain ⟨opener, rest, hRest⟩ := List.exists_cons_of_ne_nil hSome
  have hInside := (hWalk .expression levels (c.advance 1) trivial).after (Cursor.ahead_of_rest hRest)
  exact hInside.bind fun c' _ => safe_groupEnd b c'

/-- What a call does is safe if the calls inside of it are. -/
theorem safe_body (hWalk : SafeCalls room walk) {call : Call} (hReady : call.Ready c) :
    Safe room 1 (body overflow deep walk call levels c) c id := by
  cases call with
  | parse => exact (hWalk .expression levels c trivial).bind fun c' _ => safe_endWalk c'
  | expression =>
    cases levels with
    | zero => exact safe_refuse deep
    | succ levels => exact safe_chainWalk standing_sumOperator? (fun c => hWalk .product levels c trivial) c
  | product => exact safe_chainWalk standing_productOperator? (fun c => hWalk .power levels c trivial) c
  | power => exact safe_power hWalk
  | factor => exact safe_factor hWalk
  | primary => exact safe_primary hWalk
  | name => exact safe_name hWalk hReady
  | arguments f start => exact safe_arguments hWalk f hReady
  | group b => exact safe_group hWalk b hReady

end Bodies

/-- With as many places as there are, no more calls are open than these. -/
theorem safe_visit (overflow deep : Cause) (stack : Nat) {call : Call} {levels : Nat} {c : Cursor}
    (hReady : call.Ready c) : Safe stack 1 (visit overflow deep stack call levels c) c id := by
  induction stack generalizing call levels c with
  | zero => exact safe_refuse overflow
  | succ stack ih => exact safe_within (safe_body (fun _ _ _ => ih) hReady)

end Reckon.Expression
