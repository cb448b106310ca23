import Reckon.Expression.Reader
import Reckon.Proofs.Numeral.Longest

/-! # Reading moves forward

The cursor never goes back and never passes the end of the text. All that a reading emits or complains
about was noticed between the cursor where it begins and the cursor where it ends, and is reported there
or further to the left.
-/
namespace Reckon.Expression
set_option autoImplicit false
open Text (isBlank)

/-! ## Cursors ahead -/

namespace Cursor

/-- The second cursor stands in the same text, and not to the left of the first one. -/
def Ahead (c c' : Cursor) : Prop := ∃ n ≤ c.rest.length, c' = c.advance n

@[simp] theorem position_advance (c : Cursor) (n : Nat) : (c.advance n).position = c.position + n := rfl

@[simp] theorem rest_advance (c : Cursor) (n : Nat) : (c.advance n).rest = c.rest.drop n := rfl

theorem advance_advance (c : Cursor) (m n : Nat) : (c.advance m).advance n = c.advance (m + n) := by
  simp [advance, Nat.add_assoc]

theorem ahead_refl (c : Cursor) : c.Ahead c := ⟨0, Nat.zero_le _, rfl⟩

theorem ahead_advance {c : Cursor} {n : Nat} (h : n ≤ c.rest.length) : c.Ahead (c.advance n) := ⟨n, h, rfl⟩

theorem Ahead.trans {c d e : Cursor} (h : c.Ahead d) (h' : d.Ahead e) : c.Ahead e := by
  obtain ⟨m, hm, rfl⟩ := h
  obtain ⟨n, hn, rfl⟩ := h'
  rw [rest_advance, List.length_drop] at hn
  exact ⟨m + n, by omega, advance_advance c m n⟩

theorem Ahead.position_le {c d : Cursor} (h : c.Ahead d) : c.position ≤ d.position := by
  obtain ⟨n, -, rfl⟩ := h
  exact Nat.le_add_right _ _

theorem Ahead.end_eq {c d : Cursor} (h : c.Ahead d) :
    d.position + d.rest.length = c.position + c.rest.length := by
  obtain ⟨n, hn, rfl⟩ := h
  simp only [position_advance, rest_advance, List.length_drop]
  omega

theorem Ahead.length_le {c d : Cursor} (h : c.Ahead d) : d.rest.length ≤ c.rest.length := by
  have hPosition := h.position_le
  have hEnd := h.end_eq
  omega

theorem Ahead.rest_eq {text : List Char} {c : Cursor} (h : Ahead ⟨0, text⟩ c) :
    c.rest = text.drop c.position := by
  obtain ⟨n, -, rfl⟩ := h
  rw [rest_advance, position_advance, Nat.zero_add]

theorem Ahead.take_append {text : List Char} {c : Cursor} (h : Ahead ⟨0, text⟩ c) :
    text.take c.position ++ c.rest = text := by
  obtain ⟨n, -, rfl⟩ := h
  simp [advance]

theorem ahead_cons (position : Nat) (next : Char) (rest : List Char) :
    Ahead ⟨position, next :: rest⟩ ⟨position + 1, rest⟩ := ⟨1, by simp, rfl⟩

theorem ahead_run (c : Cursor) (p : Char → Bool) : c.Ahead (c.advance (c.rest.takeWhile p).length) :=
  ahead_advance (List.takeWhile_sublist p).length_le

theorem skipBlanks_eq_advance (c : Cursor) :
    c.skipBlanks = c.advance (c.rest.takeWhile isBlank).length := by
  simp only [skipBlanks, advance, dropWhile_eq_drop]

theorem ahead_skipBlanks (c : Cursor) : c.Ahead c.skipBlanks := by
  rw [skipBlanks_eq_advance]
  exact c.ahead_run isBlank

theorem ahead_of_rest {c : Cursor} {next : Char} {rest : List Char} (h : c.rest = next :: rest) :
    c.Ahead (c.advance 1) := ahead_advance (by simp [h])

end Cursor

/-! ## Readings -/

/-- The code was emitted on the way from one offset to another. -/
structure Spans (start : Nat) (code : List Instruction) (stop : Nat) : Prop where
  le : start ≤ stop
  reached : ∀ i ∈ code, start ≤ i.reached ∧ i.reached ≤ stop
  position : ∀ i ∈ code, i.position ≤ i.reached

theorem spans_nil {start stop : Nat} (h : start ≤ stop) : Spans start [] stop :=
  ⟨h, by simp, by simp⟩

theorem Spans.append {start middle stop : Nat} {code more : List Instruction}
    (h : Spans start code middle) (h' : Spans middle more stop) : Spans start (code ++ more) stop := by
  refine ⟨Nat.le_trans h.le h'.le, ?_, ?_⟩
  · intro i hi
    rcases List.mem_append.mp hi with hi | hi
    · exact ⟨(h.reached i hi).1, Nat.le_trans (h.reached i hi).2 h'.le⟩
    · exact ⟨Nat.le_trans h.le (h'.reached i hi).1, (h'.reached i hi).2⟩
  · intro i hi
    rcases List.mem_append.mp hi with hi | hi
    · exact h.position i hi
    · exact h'.position i hi

/-- The reading begins at a cursor and ends ahead of it: at the cursor that goes with its value, or
    where it complains. -/
def Reading.Onward {α : Type} (m : Reading α) (c : Cursor) (next : α → Cursor) : Prop :=
  match m.outcome with
  | .ok a => c.Ahead (next a) ∧ Spans c.position m.code (next a).position
  | .error e => Spans c.position m.code e.reached ∧ e.position ≤ e.reached ∧
      e.reached ≤ c.position + c.rest.length

namespace Reading

variable {α β : Type} {c d : Cursor} {next : α → Cursor} {next' : β → Cursor}

theorem onward_pure {a : α} (h : c.Ahead (next a)) : (pure a : Reading α).Onward c next :=
  ⟨h, spans_nil h.position_le⟩

theorem onward_here (c : Cursor) : (pure c : Reading Cursor).Onward c id := onward_pure c.ahead_refl

theorem onward_fail {cause : Cause} {position : Nat} (h : position ≤ c.position) :
    (fail ⟨cause, position, c.position⟩ : Reading α).Onward c next :=
  ⟨spans_nil (Nat.le_refl _), h, Nat.le_add_right _ _⟩

theorem onward_refuse (cause : Cause) : (c.fail cause : Reading α).Onward c next :=
  onward_fail (Nat.le_refl _)

theorem onward_emit {action : Action} {position : Nat} (h : position ≤ c.position) :
    (emit ⟨action, position, c.position⟩).Onward c fun _ => c := by
  refine ⟨c.ahead_refl, Nat.le_refl _, ?_, ?_⟩
  · simp [emit]
  · simpa [emit] using h

theorem onward_note (action : Action) : (c.emit action).Onward c fun _ => c :=
  onward_emit (Nat.le_refl _)

theorem Onward.bind {m : Reading α} {f : α → Reading β} (h : m.Onward c next)
    (hNext : ∀ a, c.Ahead (next a) → (f a).Onward (next a) next') : (m >>= f).Onward c next' := by
  unfold Onward at h
  cases hOutcome : m.outcome with
  | error e =>
    rw [hOutcome] at h
    rw [bind_of_error hOutcome]
    exact h
  | ok a =>
    rw [hOutcome] at h
    obtain ⟨hAhead, hSpans⟩ := h
    have hRest := hNext a hAhead
    have hEnd := hAhead.end_eq
    rw [bind_of_ok hOutcome]
    unfold Onward at hRest ⊢
    cases hResult : (f a).outcome with
    | error e =>
      rw [hResult] at hRest
      obtain ⟨hSpans', hPosition, hReached⟩ := hRest
      exact ⟨hSpans.append hSpans', hPosition, by omega⟩
    | ok b =>
      rw [hResult] at hRest
      exact ⟨hAhead.trans hRest.1, hSpans.append hRest.2⟩

theorem Onward.from {m : Reading α} (h : m.Onward d next) (hAhead : c.Ahead d) : m.Onward c next := by
  have hThere : (pure () : Reading Unit).Onward c fun _ => d := onward_pure hAhead
  have hRead := hThere.bind fun _ _ => h
  rwa [pure_bind] at hRead

theorem Onward.ahead {m : Reading α} {a : α} (h : m.Onward c next) (hOutcome : m.outcome = .ok a) :
    c.Ahead (next a) := by
  rw [Onward, hOutcome] at h
  exact h.1

theorem Onward.spans {m : Reading α} {a : α} (h : m.Onward c next) (hOutcome : m.outcome = .ok a) :
    Spans c.position m.code (next a).position := by
  rw [Onward, hOutcome] at h
  exact h.2

theorem Onward.spans_error {m : Reading α} {e : Complaint} (h : m.Onward c next)
    (hOutcome : m.outcome = .error e) :
    Spans c.position m.code e.reached ∧ e.position ≤ e.reached ∧
      e.reached ≤ c.position + c.rest.length := by
  rwa [Onward, hOutcome] at h

end Reading

/-! ## Readers -/

open Reading

def Forward (reader : Reader) : Prop := ∀ c, (reader c).Onward c id

theorem forward_refuse (cause : Cause) : Forward (refuse cause) := fun _ => onward_refuse cause

theorem ahead_minusSigns (negated : Bool) (position : Nat) (rest : List Char) :
    Cursor.Ahead ⟨position, rest⟩ (minusSigns negated position rest).2 := by
  induction rest generalizing negated position with
  | nil => exact Cursor.ahead_refl _
  | cons next rest ih =>
    have hNext := Cursor.ahead_cons position next rest
    rw [minusSigns]
    split
    · exact hNext.trans (ih _ _)
    · split
      · exact hNext.trans (ih _ _)
      · exact Cursor.ahead_refl _

theorem onward_suffixes (negated : Bool) (position : Nat) (rest : List Char) :
    (suffixes negated position rest).Onward ⟨position, rest⟩ id := by
  induction rest generalizing position with
  | nil => exact onward_here _
  | cons next rest ih =>
    have hNext := Cursor.ahead_cons position next rest
    rw [suffixes]
    split
    · exact (ih _).from hNext
    · split
      · exact ((onward_note _).bind fun _ _ => ih _).from hNext
      · split
        · exact ((onward_note _).bind fun _ _ => ih _).from hNext
        · exact onward_here _

theorem onward_numeral {c : Cursor} {n : Numeral} {rest : List Char}
    (h : Numeral.scan? c.rest = some (n, rest)) :
    (numeral c).Onward (c.advance n.text.length) id := by
  rw [numeral, h]
  exact (onward_note _).bind fun _ _ => onward_here _

theorem forward_numeral : Forward numeral := by
  intro c
  cases hScan : Numeral.scan? c.rest with
  | none =>
    rw [numeral, hScan]
    exact onward_refuse _
  | some found =>
    obtain ⟨n, rest⟩ := found
    have hLength : n.text.length ≤ c.rest.length := by
      rw [Numeral.eq_of_scan? hScan, List.length_append]
      exact Nat.le_add_right _ _
    exact (onward_numeral hScan).from (Cursor.ahead_advance hLength)

variable {inside : Reader}

theorem onward_moreArguments (hInside : Forward inside) (bound count : Nat) (c : Cursor) :
    (moreArguments inside bound count c).Onward c Prod.snd := by
  induction bound generalizing count c with
  | zero => exact onward_pure c.ahead_refl
  | succ bound ih =>
    rw [moreArguments]
    split
    · rename_i rest hComma
      exact ((hInside _).bind fun _ _ => ih _ _).from (Cursor.ahead_of_rest hComma)
    · exact onward_pure c.ahead_refl

/-- What is read behind the arguments of a call. -/
def callEnd (f : Builtin) (start count : Nat) : Reader := fun c =>
  match c.rest with
  | ')' :: _ =>
    let after := c.advance 1
    if count = f.arity then do
      after.emit (.call f)
      pure after
    else .fail ⟨.arityMismatch f count, start, after.position⟩
  | _ => c.fail (.openArguments f)

theorem call_eq_callEnd (inside : Reader) (f : Builtin) (start : Nat) (c : Cursor) :
    call inside f start c = (inside c >>= fun c => moreArguments inside c.rest.length 1 c >>=
      fun (count, c) => callEnd f start count c) := rfl

theorem onward_callEnd (f : Builtin) {start : Nat} (count : Nat) {c : Cursor} (hStart : start ≤ c.position) :
    (callEnd f start count c).Onward c id := by
  rw [callEnd]
  split
  · rename_i rest hClose
    have hAfter : c.Ahead (c.advance 1) := Cursor.ahead_of_rest hClose
    split
    · have hRead := (onward_note (c := c.advance 1) (.call f)).bind fun _ _ => onward_here _
      exact hRead.from hAfter
    · exact (onward_fail (Nat.le_trans hStart hAfter.position_le)).from hAfter
  · exact onward_refuse _

theorem callEnd_of_head {f : Builtin} {start count : Nat} {c : Cursor} (h : c.rest.head? ≠ some ')') :
    callEnd f start count c = c.fail (.openArguments f) := by
  rw [callEnd]
  split
  · rename_i hClose
    exact absurd (congrArg List.head? hClose) h
  · rfl

theorem onward_call (hInside : Forward inside) (f : Builtin) {start : Nat} {c : Cursor}
    (hStart : start ≤ c.position) : (call inside f start c).Onward c id := by
  rw [call_eq_callEnd]
  refine (hInside c).bind fun c₁ hFirst => ?_
  refine (onward_moreArguments hInside _ _ c₁).bind fun ⟨count, c₂⟩ hMore => ?_
  exact onward_callEnd f count (Nat.le_trans hStart (hFirst.trans hMore).position_le)

/-- Behind the letters at the cursor and the blanks that follow them. -/
def Cursor.wordEnd (c : Cursor) : Cursor :=
  (c.advance (c.rest.takeWhile Char.isAlpha).length).skipBlanks

theorem Cursor.ahead_wordEnd (c : Cursor) : c.Ahead c.wordEnd :=
  (c.ahead_run Char.isAlpha).trans (Cursor.ahead_skipBlanks _)

/-- What is read behind a word: the arguments of a call, or nothing. -/
def wordAt (inside : Reader) (word : String) (start : Nat) : Reader := fun after =>
  match after.rest with
  | '(' :: _ =>
    match Builtin.ofName? word with
    | none => .fail ⟨.unknownFunction word, start, after.position⟩
    | some f => call inside f start (after.advance 1)
  | _ => do
    .emit ⟨.constant word, start, after.position⟩
    pure after

theorem name_eq_wordAt (inside : Reader) (c : Cursor) :
    name inside c =
      wordAt inside (String.ofList (c.rest.takeWhile Char.isAlpha)) c.position c.wordEnd := rfl

theorem wordAt_of_head {word : String} {start : Nat} {after : Cursor} (h : after.rest.head? ≠ some '(') :
    wordAt inside word start after =
      (Reading.emit ⟨.constant word, start, after.position⟩ >>= fun _ => pure after) := by
  rw [wordAt]
  split
  · rename_i hOpen
    exact absurd (congrArg List.head? hOpen) h
  · rfl

theorem onward_wordAt (hInside : Forward inside) (word : String) {start : Nat} {after : Cursor}
    (hStart : start ≤ after.position) : (wordAt inside word start after).Onward after id := by
  rw [wordAt]
  split
  · rename_i rest hOpen
    split
    · exact onward_fail hStart
    · have hOpened : after.Ahead (after.advance 1) := Cursor.ahead_of_rest hOpen
      exact (onward_call hInside _ (Nat.le_trans hStart hOpened.position_le)).from hOpened
  · exact (onward_emit hStart).bind fun _ _ => onward_here _

theorem onward_name (hInside : Forward inside) (c : Cursor) : (name inside c).Onward c.wordEnd id :=
  onward_wordAt hInside _ c.ahead_wordEnd.position_le

/-- What is read behind the expression in a bracket. -/
def groupEnd (b : Bracket) : Reader := fun c =>
  match c.rest with
  | closer :: _ => if closer = b.closer then pure (c.advance 1) else c.fail (.openBracket b)
  | [] => c.fail (.openBracket b)

theorem group_eq_groupEnd (inside : Reader) (b : Bracket) (c : Cursor) :
    group inside b c = inside (c.advance 1) >>= groupEnd b := rfl

theorem forward_groupEnd (b : Bracket) : Forward (groupEnd b) := by
  intro c
  rw [groupEnd]
  split
  · rename_i closer rest hClose
    split
    · exact onward_pure (Cursor.ahead_of_rest hClose)
    · exact onward_refuse _
  · exact onward_refuse _

theorem onward_group (hInside : Forward inside) (b : Bracket) {c : Cursor} (hOpen : c.rest ≠ []) :
    (group inside b c).Onward c id := by
  obtain ⟨opener, rest, hRest⟩ := List.exists_cons_of_ne_nil hOpen
  have hRead : Onward (inside (c.advance 1)) c id := (hInside _).from (Cursor.ahead_of_rest hRest)
  rw [group_eq_groupEnd]
  exact hRead.bind fun _ _ => forward_groupEnd b _

theorem forward_primary (hInside : Forward inside) : Forward (primary inside) := by
  intro c
  rw [primary]
  split
  · exact onward_refuse _
  · rename_i first rest hRest
    split
    · exact (onward_name hInside c).from c.ahead_wordEnd
    · split
      · exact forward_numeral c
      · split
        · exact onward_group hInside _ (by simp [hRest])
        · exact onward_refuse _

def negation (negated : Bool) : Reader := fun c => do
  if negated then c.emit .negate
  pure c

theorem forward_negation (negated : Bool) : Forward (negation negated) := by
  intro c
  cases negated with
  | false => exact onward_here _
  | true => exact (onward_note _).bind fun _ _ => onward_here _

/-- A factor behind its minus signs. -/
def operand (inside : Reader) (negated : Bool) : Reader := fun c => do
  let c ← primary inside c
  let c ← suffixes negated c.position c.rest
  negation negated c

theorem factor_eq_operand (inside : Reader) (c : Cursor) :
    factor inside c = operand inside (minusSigns false c.position c.rest).1
      (minusSigns false c.position c.rest).2 := rfl

theorem forward_operand (hInside : Forward inside) (negated : Bool) : Forward (operand inside negated) := by
  intro c
  rw [operand]
  exact (forward_primary hInside c).bind fun c₂ _ =>
    (onward_suffixes negated c₂.position c₂.rest).bind fun _ _ => forward_negation negated _

theorem forward_factor (hInside : Forward inside) : Forward (factor inside) := by
  intro c
  rw [factor_eq_operand]
  exact (forward_operand hInside _ _).from (ahead_minusSigns _ _ _)

/-- What is read behind the base of a power. -/
def powerEnd (exponent : Reader) : Reader := fun c =>
  match c.rest with
  | '^' :: _ => do
    let c ← exponent (c.advance 1)
    c.emit (.binary .pow)
    pure c
  | _ => pure c

theorem powerOf_eq_powerEnd (inside exponent : Reader) (c : Cursor) :
    powerOf inside exponent c = factor inside c >>= powerEnd exponent := rfl

theorem powerEnd_of_head {exponent : Reader} {c : Cursor} (h : c.rest.head? ≠ some '^') :
    powerEnd exponent c = pure c := by
  rw [powerEnd]
  split
  · rename_i hSign
    exact absurd (congrArg List.head? hSign) h
  · rfl

theorem forward_powerEnd {exponent : Reader} (hExponent : Forward exponent) :
    Forward (powerEnd exponent) := by
  intro c
  rw [powerEnd]
  split
  · rename_i rest hSign
    have hRead : Onward (exponent (c.advance 1)) c id :=
      (hExponent _).from (Cursor.ahead_of_rest hSign)
    exact hRead.bind fun _ _ => (onward_note _).bind fun _ _ => onward_here _
  · exact onward_here _

theorem forward_powerOf {exponent : Reader} (hInside : Forward inside) (hExponent : Forward exponent) :
    Forward (powerOf inside exponent) :=
  fun c => (forward_factor hInside c).bind fun _ _ => forward_powerEnd hExponent _

/-- An operator that is found stands in the text. -/
def Standing (operator? : List Char → Option (Operator × Nat)) : Prop :=
  ∀ text op width, operator? text = some (op, width) → 0 < width ∧ width ≤ text.length

theorem standing_productOperator? : Standing productOperator? := by
  intro text op width h
  rw [productOperator?.eq_def] at h
  split at h <;> cases h <;> simp

theorem standing_sumOperator? : Standing sumOperator? := by
  intro text op width h
  rw [sumOperator?.eq_def] at h
  split at h <;> cases h <;> simp

theorem Standing.nil {operator? : List Char → Option (Operator × Nat)} (h : Standing operator?) :
    operator? [] = none := by
  refine Option.eq_none_iff_forall_ne_some.mpr fun ⟨op, width⟩ hFound => ?_
  obtain ⟨hWidth, hLength⟩ := h _ _ _ hFound
  exact Nat.not_lt.mpr hLength hWidth

section Chains

variable {operator? : List Char → Option (Operator × Nat)} {reader : Reader}

theorem links_of_none {bound : Nat} {c : Cursor} (h : operator? c.rest = none) :
    links operator? reader bound c = pure c := by
  cases bound with
  | zero => rfl
  | succ bound => simp only [links, h]

theorem forward_links (hStanding : Standing operator?) (hReader : Forward reader) (bound : Nat) :
    Forward (links operator? reader bound) := by
  induction bound with
  | zero => exact fun c => onward_here _
  | succ bound ih =>
    intro c
    rw [links]
    split
    · exact onward_here _
    · rename_i op width hFound
      have hRead : Onward (reader (c.advance width)) c id :=
        (hReader _).from (Cursor.ahead_advance (hStanding _ _ _ hFound).2)
      exact hRead.bind fun _ _ => (onward_note _).bind fun _ _ => ih _

theorem forward_chain (hStanding : Standing operator?) (hReader : Forward reader) :
    Forward (chain operator? reader) :=
  fun c => (hReader c).bind fun _ _ => forward_links hStanding hReader _ _

end Chains

theorem forward_sumsOf {power : Reader} (hPower : Forward power) : Forward (sumsOf power) :=
  forward_chain standing_sumOperator? (forward_chain standing_productOperator? hPower)

theorem forward_power (deep : Cause) (levels : Nat) : Forward (power deep levels) := by
  induction levels with
  | zero => exact forward_powerOf (forward_refuse deep) (forward_refuse deep)
  | succ levels ih => exact forward_powerOf (forward_sumsOf ih) ih

theorem forward_expression (deep : Cause) (levels : Nat) : Forward (expression deep levels) := by
  cases levels with
  | zero => exact forward_refuse deep
  | succ levels => exact forward_sumsOf (forward_power deep levels)

/-! ## Levels of nesting -/

/-- A power that takes up one of `room` levels, as the exponent of another power does. -/
def powerWithin (deep : Cause) : Nat → Reader
  | 0 => refuse deep
  | room + 1 => power deep room

theorem expression_eq_sumsOf (deep : Cause) (room : Nat) :
    expression deep room = sumsOf (powerWithin deep room) := by
  cases room with
  | zero => rfl
  | succ room => rfl

theorem powerWithin_succ (deep : Cause) (room : Nat) :
    powerWithin deep (room + 1) = powerOf (expression deep room) (powerWithin deep room) := by
  cases room with
  | zero => rfl
  | succ room => rfl

theorem forward_powerWithin (deep : Cause) (room : Nat) : Forward (powerWithin deep room) := by
  cases room with
  | zero => exact forward_refuse deep
  | succ room => exact forward_power deep room

/-! ## The whole text -/

/-- At the end of a text nothing more may stand. -/
def textEnd : Reader := fun c =>
  match c.rest with
  | [] => pure c
  | next :: _ => c.fail (.trailing next)

theorem forward_textEnd : Forward textEnd := by
  intro c
  rw [textEnd]
  split
  · exact onward_here _
  · exact onward_refuse _

/-- An expression that takes the rest of the text and may open `levels` levels. -/
def readWithin (deep : Cause) (levels : Nat) : Reader := fun c => expression deep levels c >>= textEnd

theorem forward_readWithin (deep : Cause) (levels : Nat) : Forward (readWithin deep levels) :=
  fun c => (forward_expression deep levels c).bind fun _ _ => forward_textEnd _

theorem read_eq_readWithin [Interpreter] (limit : Int) (text : List Char) :
    read limit text = readWithin (tooDeep limit) (levels limit) ⟨0, text⟩ >>= fun _ => pure () := by
  rw [readWithin, bind_assoc]
  refine congrArg (expression (tooDeep limit) (levels limit) ⟨0, text⟩ >>= ·) (funext fun c => ?_)
  rw [textEnd]
  cases c.rest with
  | nil => rfl
  | cons next rest => rfl

end Reckon.Expression
