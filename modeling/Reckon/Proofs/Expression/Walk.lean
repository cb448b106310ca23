import Reckon.Proofs.Expression.Completeness
import Reckon.Proofs.Expression.Progress

/-! # Reading as a walk through the text

The grammar as calls that make calls: each call in progress takes one place on a stack, and the recursion is on the
places that are left. Loops are bounded by the text, and a loop that would be cut short fails like a call without a
place. A walk lists what happens on the way. Where the stack has seven places for each level of nesting and two more,
neither of this ever happens, and the walk reads what is read.
-/
namespace Reckon.Expression
set_option autoImplicit false
open Text (isBlank)

inductive Call
  | parse | expression | product | power | factor | primary | name
  | arguments (f : Builtin) (start : Nat)
  | group (b : Bracket)
  deriving DecidableEq, Repr

inductive Loop
  | blanks | signs | suffixes | products | sums | arguments
  deriving DecidableEq, Repr

/-- What happens on a walk, with the offset of the cursor when it has happened. A call that returns and a turn of a
    loop also know where they began. -/
inductive Step
  | enter (call : Call) (position : Nat)
  | leave (call : Call) (start position : Nat)
  | turn (loop : Loop) (start position : Nat)
  | act (instruction : Instruction)
  deriving DecidableEq, Repr

def Step.instruction? : Step → Option Instruction
  | act i => some i
  | _ => none

/-- The steps of a walk, and where it ends. -/
structure Walk (α : Type) where
  steps : List Step
  outcome : Except Complaint α

abbrev Walker := Cursor → Walk Cursor

namespace Walk

variable {α β : Type}

def bind (m : Walk α) (f : α → Walk β) : Walk β :=
  match m.outcome with
  | .ok a => ⟨m.steps ++ (f a).steps, (f a).outcome⟩
  | .error complaint => ⟨m.steps, .error complaint⟩

instance : Monad Walk where
  pure a := ⟨[], .ok a⟩
  bind := bind

theorem bind_of_ok {m : Walk α} {a : α} (h : m.outcome = .ok a) (f : α → Walk β) :
    m >>= f = ⟨m.steps ++ (f a).steps, (f a).outcome⟩ := by
  change bind m f = _
  rw [bind, h]

theorem bind_of_error {m : Walk α} {e : Complaint} (h : m.outcome = .error e) (f : α → Walk β) :
    m >>= f = ⟨m.steps, .error e⟩ := by
  change bind m f = _
  rw [bind, h]

def mark (step : Step) : Walk Unit := ⟨[step], .ok ()⟩

def ofReading (m : Reading α) : Walk α := ⟨m.code.map .act, m.outcome⟩

/-- What is read on a walk. -/
def reading (m : Walk α) : Reading α := ⟨m.steps.filterMap Step.instruction?, m.outcome⟩

@[simp] theorem reading_pure (a : α) : (pure a : Walk α).reading = pure a := rfl

@[simp] theorem reading_ofReading (m : Reading α) : (ofReading m).reading = m := by
  have hCode : (m.code.map Step.act).filterMap Step.instruction? = m.code := by
    rw [List.filterMap_map]
    exact List.filterMap_some
  rw [ofReading, reading, hCode]

@[simp] theorem reading_bind (m : Walk α) (f : α → Walk β) :
    (m >>= f).reading = m.reading >>= fun a => (f a).reading := by
  cases hOutcome : m.outcome with
  | error e =>
    have hReading : m.reading.outcome = .error e := hOutcome
    rw [bind_of_error hOutcome, Reading.bind_of_error hReading]
    rfl
  | ok a =>
    have hReading : m.reading.outcome = .ok a := hOutcome
    rw [bind_of_ok hOutcome, Reading.bind_of_ok hReading]
    simp [reading]

@[simp] theorem reading_mark_enter (call : Call) (position : Nat) :
    (mark (.enter call position)).reading = pure () := rfl

@[simp] theorem reading_mark_leave (call : Call) (start position : Nat) :
    (mark (.leave call start position)).reading = pure () := rfl

@[simp] theorem reading_mark_turn (loop : Loop) (start position : Nat) :
    (mark (.turn loop start position)).reading = pure () := rfl

end Walk

open Walk

/-- A walk within a call. -/
def within (call : Call) (walk : Walker) : Walker := fun c => do
  mark (.enter call c.position)
  let c' ← walk c
  mark (.leave call c.position c'.position)
  pure c'

theorem reading_within (call : Call) (walk : Walker) (c : Cursor) :
    (within call walk c).reading = (walk c).reading := by
  simp [within]

/-! ## Loops -/

section Loops

variable {σ : Type}

/-- The turns of a loop, as long as there are any; `bound` of them are allowed. -/
def repeats (overflow : Cause) (loop : Loop) (cursor : σ → Cursor) (turn? : σ → Option (Walk σ)) :
    Nat → σ → Walk σ
  | 0, s =>
    match turn? s with
    | none => pure s
    | some _ => ofReading ((cursor s).fail overflow)
  | bound + 1, s =>
    match turn? s with
    | none => pure s
    | some walk => do
      let s' ← walk
      mark (.turn loop (cursor s).position (cursor s').position)
      repeats overflow loop cursor turn? bound s'

variable {overflow : Cause} {loop : Loop} {cursor : σ → Cursor} {turn? : σ → Option (Walk σ)} {bound : Nat}
  {s : σ}

theorem repeats_of_none (h : turn? s = none) : repeats overflow loop cursor turn? bound s = pure s := by
  cases bound with
  | zero => rw [repeats, h]
  | succ bound => rw [repeats, h]

theorem reading_repeats_of_some {walk : Walk σ} (h : turn? s = some walk) :
    (repeats overflow loop cursor turn? (bound + 1) s).reading =
      walk.reading >>= fun s' => (repeats overflow loop cursor turn? bound s').reading := by
  rw [repeats, h]
  simp

end Loops

def blankTurn? (c : Cursor) : Option (Walk Cursor) :=
  match c.rest with
  | next :: _ => if isBlank next then some (pure (c.advance 1)) else none
  | [] => none

def blanks (overflow : Cause) : Walker := fun c => repeats overflow .blanks id blankTurn? c.rest.length c

def signTurn? (overflow : Cause) (s : Bool × Cursor) : Option (Walk (Bool × Cursor)) :=
  match s.2.rest with
  | '-' :: _ => some do
    let c ← blanks overflow (s.2.advance 1)
    pure (!s.1, c)
  | _ => none

def signs (overflow : Cause) (c : Cursor) : Walk (Bool × Cursor) := do
  let c ← blanks overflow c
  repeats overflow .signs Prod.snd (signTurn? overflow) c.rest.length (false, c)

def suffixTurn? (overflow : Cause) (negated : Bool) (c : Cursor) : Option (Walk Cursor) :=
  let behind (action : Action) : Walk Cursor := do
    ofReading ((c.advance 1).emit action)
    blanks overflow (c.advance 1)
  match c.rest with
  | '!' :: _ => some (behind (.factorial negated))
  | '%' :: _ => some (behind .percent)
  | _ => none

def suffixWalk (overflow : Cause) (negated : Bool) : Walker := fun c => do
  let c ← blanks overflow c
  repeats overflow .suffixes id (suffixTurn? overflow negated) c.rest.length c

def linkTurn? (operator? : List Char → Option (Operator × Nat)) (operand : Walker) (c : Cursor) :
    Option (Walk Cursor) :=
  (operator? c.rest).map fun (op, width) => do
    let c ← operand (c.advance width)
    ofReading (c.emit (.binary op))
    pure c

def chainWalk (overflow : Cause) (loop : Loop) (operator? : List Char → Option (Operator × Nat)) (operand : Walker) :
    Walker := fun c => do
  let c ← operand c
  repeats overflow loop id (linkTurn? operator? operand) c.rest.length c

def argumentTurn? (inside : Walker) (s : Nat × Cursor) : Option (Walk (Nat × Cursor)) :=
  match s.2.rest with
  | ',' :: _ => some do
    let c ← inside (s.2.advance 1)
    pure (s.1 + 1, c)
  | _ => none

/-! ## Calls -/

/-- One level further down, if there is one. -/
def furtherDown (deep : Cause) (walk : Nat → Walker) : Nat → Walker
  | 0 => fun c => ofReading (c.fail deep)
  | room + 1 => walk room

def exponentWalk (exponent : Walker) : Walker := fun c =>
  match c.rest with
  | '^' :: _ => do
    let c ← exponent (c.advance 1)
    ofReading (c.emit (.binary .pow))
    pure c
  | _ => pure c

def endWalk : Walker := fun c =>
  match c.rest with
  | [] => pure c
  | next :: _ => ofReading (c.fail (.trailing next))

/-- What a call does, making other calls by `visit`; inside of it `room` levels may be opened. -/
def body (overflow deep : Cause) (visit : Call → Nat → Walker) : Call → Nat → Walker
  | .parse, room => fun c => do
    let c ← visit .expression room c
    endWalk c
  | .expression, room => furtherDown deep (fun room => chainWalk overflow .sums sumOperator? (visit .product room)) room
  | .product, room => chainWalk overflow .products productOperator? (visit .power room)
  | .power, room => fun c => do
    let c ← visit .factor room c
    exponentWalk (furtherDown deep (visit .power) room) c
  | .factor, room => fun c => do
    let (negated, c) ← signs overflow c
    let c ← visit .primary room c
    let c ← suffixWalk overflow negated c
    ofReading (negation negated c)
  | .primary, room => fun c =>
    match c.rest with
    | [] => ofReading (c.fail .endOfInput)
    | first :: _ =>
      if first.isAlpha then visit .name room c
      else if first.isDigit || first = '.' then ofReading (numeral c)
      else match Bracket.ofOpener? first with
        | some b => visit (.group b) room c
        | none => ofReading (c.fail (.unexpected first))
  | .name, room => fun c => do
    let letters := c.rest.takeWhile Char.isAlpha
    let word := String.ofList letters
    let after ← blanks overflow (c.advance letters.length)
    match after.rest with
    | '(' :: _ =>
      match Builtin.ofName? word with
      | none => ofReading (.fail ⟨.unknownFunction word, c.position, after.position⟩)
      | some f => visit (.arguments f c.position) room (after.advance 1)
    | _ =>
      ofReading (.emit ⟨.constant word, c.position, after.position⟩)
      pure after
  | .arguments f start, room => fun c => do
    let c ← visit .expression room c
    let (count, c) ←
      repeats overflow .arguments Prod.snd (argumentTurn? (visit .expression room)) c.rest.length (1, c)
    ofReading (callEnd f start count c)
  | .group b, room => fun c => do
    let c ← visit .expression room (c.advance 1)
    ofReading (groupEnd b c)

/-- A call for which there are `stack` places. Without a place it fails. -/
def visit (overflow deep : Cause) : Nat → Call → Nat → Walker
  | 0, _, _ => fun c => ofReading (c.fail overflow)
  | stack + 1, call, room => within call (body overflow deep (visit overflow deep stack) call room)

/-! ## Loops read what is read -/

variable {overflow deep : Cause} {bound : Nat} {c : Cursor}

theorem Reading.bind_congr {α β : Type} {m : Reading α} {f g : α → Reading β}
    (h : ∀ a, m.outcome = .ok a → f a = g a) : m >>= f = m >>= g := by
  cases hOutcome : m.outcome with
  | error e => rw [bind_of_error hOutcome, bind_of_error hOutcome]
  | ok a => rw [bind_of_ok hOutcome, bind_of_ok hOutcome, h a hOutcome]

theorem reading_blankTurns (h : c.rest.length ≤ bound) :
    (repeats overflow .blanks id blankTurn? bound c).reading = pure c.skipBlanks := by
  induction bound generalizing c with
  | zero =>
    have hEnd : c.rest = [] := List.length_eq_zero_iff.mp (Nat.le_zero.mp h)
    rw [repeats_of_none (by simp [blankTurn?, hEnd]), Cursor.skipBlanks_of_head (by simp [hEnd]), reading_pure]
  | succ bound ih =>
    obtain ⟨position, rest⟩ := c
    cases rest with
    | nil => rfl
    | cons next rest =>
      cases hBlank : isBlank next with
      | true =>
        have hTurn : blankTurn? ⟨position, next :: rest⟩ = some (pure ⟨position + 1, rest⟩) := if_pos hBlank
        rw [reading_repeats_of_some hTurn, Cursor.skipBlanks_blank hBlank, reading_pure, pure_bind]
        exact ih (Nat.le_of_succ_le_succ h)
      | false =>
        have hTurn : blankTurn? ⟨position, next :: rest⟩ = none := if_neg (by simp [hBlank])
        rw [repeats_of_none hTurn, Cursor.skipBlanks_of_head (by simpa using hBlank), reading_pure]

@[simp] theorem reading_blanks (c : Cursor) : (blanks overflow c).reading = pure c.skipBlanks :=
  reading_blankTurns (Nat.le_refl _)

theorem reading_signTurns {negated : Bool} (h : c.rest.length ≤ bound)
    (hBlank : ∀ next ∈ c.rest.head?, isBlank next = false) :
    (repeats overflow .signs Prod.snd (signTurn? overflow) bound (negated, c)).reading =
      pure (minusSigns negated c.position c.rest) := by
  induction bound generalizing negated c with
  | zero =>
    have hEnd : c.rest = [] := List.length_eq_zero_iff.mp (Nat.le_zero.mp h)
    rw [repeats_of_none (by simp [signTurn?, hEnd]), hEnd, reading_pure, minusSigns, ← hEnd]
  | succ bound ih =>
    obtain ⟨position, rest⟩ := c
    cases rest with
    | nil => rfl
    | cons next rest =>
      by_cases hMinus : next = '-'
      · subst hMinus
        have hLength := Cursor.length_skipBlanks ⟨position + 1, rest⟩
        have hBound := Nat.le_of_succ_le_succ h
        rw [reading_repeats_of_some rfl, minusSigns, if_neg (by decide), if_pos rfl, ← minusSigns_skipBlanks]
        simp only [reading_bind, reading_blanks, reading_pure, pure_bind]
        exact ih (hLength.trans hBound) (Cursor.head_skipBlanks _)
      · have hTurn : signTurn? overflow (negated, ⟨position, next :: rest⟩) = none := by
          unfold signTurn?
          split
          · rename_i hRest
            exact absurd (List.cons.inj hRest).1 hMinus
          · rfl
        rw [repeats_of_none hTurn, minusSigns, if_neg (by simp [hBlank next rfl]), if_neg hMinus, reading_pure]

theorem reading_signs (c : Cursor) : (signs overflow c).reading = pure (minusSigns false c.position c.rest) := by
  rw [← minusSigns_skipBlanks]
  simp only [signs, reading_bind, reading_blanks, pure_bind]
  exact reading_signTurns (Nat.le_refl _) c.head_skipBlanks

theorem reading_suffixTurns {negated : Bool} (h : c.rest.length ≤ bound)
    (hBlank : ∀ next ∈ c.rest.head?, isBlank next = false) :
    (repeats overflow .suffixes id (suffixTurn? overflow negated) bound c).reading =
      suffixes negated c.position c.rest := by
  induction bound generalizing c with
  | zero =>
    have hEnd : c.rest = [] := List.length_eq_zero_iff.mp (Nat.le_zero.mp h)
    rw [repeats_of_none (by simp [suffixTurn?, hEnd]), hEnd, reading_pure, suffixes, ← hEnd]
  | succ bound ih =>
    obtain ⟨position, rest⟩ := c
    cases rest with
    | nil => rfl
    | cons next rest =>
      have hLength := Cursor.length_skipBlanks ⟨position + 1, rest⟩
      have hMore : (repeats overflow .suffixes id (suffixTurn? overflow negated) bound
          (Cursor.skipBlanks ⟨position + 1, rest⟩)).reading = suffixes negated (position + 1) rest := by
        rw [ih (hLength.trans (Nat.le_of_succ_le_succ h)) (Cursor.head_skipBlanks _), suffixes_skipBlanks]
      rw [suffixes, if_neg (by simp [hBlank next rfl])]
      by_cases hFactorial : next = '!'
      · subst hFactorial
        rw [reading_repeats_of_some rfl, if_pos rfl]
        simp only [reading_bind, reading_ofReading, reading_blanks, bind_assoc, pure_bind]
        exact Reading.bind_congr fun _ _ => hMore
      · by_cases hPercent : next = '%'
        · subst hPercent
          rw [reading_repeats_of_some rfl, if_neg hFactorial, if_pos rfl]
          simp only [reading_bind, reading_ofReading, reading_blanks, bind_assoc, pure_bind]
          exact Reading.bind_congr fun _ _ => hMore
        · have hTurn : suffixTurn? overflow negated ⟨position, next :: rest⟩ = none := by
            unfold suffixTurn?
            split
            · rename_i hRest
              exact absurd (List.cons.inj hRest).1 hFactorial
            · rename_i hRest
              exact absurd (List.cons.inj hRest).1 hPercent
            · rfl
          rw [repeats_of_none hTurn, if_neg hFactorial, if_neg hPercent, reading_pure]

theorem reading_suffixWalk (negated : Bool) (c : Cursor) :
    (suffixWalk overflow negated c).reading = suffixes negated c.position c.rest := by
  rw [← suffixes_skipBlanks]
  simp only [suffixWalk, reading_bind, reading_blanks, pure_bind]
  exact reading_suffixTurns (Nat.le_refl _) c.head_skipBlanks

theorem reading_links {loop : Loop} {operator? : List Char → Option (Operator × Nat)} {operand : Walker}
    {reader : Reader} (hStanding : Standing operator?) (hForward : Forward reader)
    (hOperand : ∀ c, (operand c).reading = reader c) (h : c.rest.length ≤ bound) :
    (repeats overflow loop id (linkTurn? operator? operand) bound c).reading =
      links operator? reader bound c := by
  induction bound generalizing c with
  | zero =>
    have hEnd : c.rest = [] := List.length_eq_zero_iff.mp (Nat.le_zero.mp h)
    rw [repeats_of_none (by simp [linkTurn?, hEnd, hStanding.nil]), reading_pure, links]
  | succ bound ih =>
    cases hFound : operator? c.rest with
    | none => rw [repeats_of_none (by simp [linkTurn?, hFound]), reading_pure, links_of_none hFound]
    | some found =>
      obtain ⟨op, width⟩ := found
      obtain ⟨hWidth, hLength⟩ := hStanding _ _ _ hFound
      rw [reading_repeats_of_some (by simp only [linkTurn?, hFound]; rfl)]
      simp only [links, hFound, reading_bind, hOperand, reading_ofReading, reading_pure, bind_assoc, pure_bind]
      refine Reading.bind_congr fun c' hOutcome => Reading.bind_congr fun _ _ => ih ?_
      have hRest := ((hForward _).ahead hOutcome).length_le
      rw [id_eq, Cursor.rest_advance, List.length_drop] at hRest
      omega

theorem reading_chainWalk {loop : Loop} {operator? : List Char → Option (Operator × Nat)} {operand : Walker}
    {reader : Reader} (hStanding : Standing operator?) (hForward : Forward reader)
    (hOperand : ∀ c, (operand c).reading = reader c) (c : Cursor) :
    (chainWalk overflow loop operator? operand c).reading = chain operator? reader c := by
  simp only [chainWalk, reading_bind, hOperand, chain]
  congr
  funext c
  exact reading_links hStanding hForward hOperand (Nat.le_refl _)

theorem reading_argumentTurns {inside : Walker} {reader : Reader} (hForward : Forward reader)
    (hInside : ∀ c, (inside c).reading = reader c) {count : Nat} (h : c.rest.length ≤ bound) :
    (repeats overflow .arguments Prod.snd (argumentTurn? inside) bound (count, c)).reading =
      moreArguments reader bound count c := by
  induction bound generalizing count c with
  | zero =>
    have hEnd : c.rest = [] := List.length_eq_zero_iff.mp (Nat.le_zero.mp h)
    rw [repeats_of_none (by simp [argumentTurn?, hEnd]), reading_pure, moreArguments]
  | succ bound ih =>
    rw [moreArguments]
    split
    · rename_i rest hComma
      have hTurn : argumentTurn? inside (count, c) =
          some (inside (c.advance 1) >>= fun c => pure (count + 1, c)) := by simp [argumentTurn?, hComma]
      rw [reading_repeats_of_some hTurn]
      simp only [reading_bind, hInside, reading_pure, bind_assoc, pure_bind]
      refine Reading.bind_congr fun c' hOutcome => ih ?_
      have hRest := ((hForward _).ahead hOutcome).length_le
      rw [id_eq, Cursor.rest_advance, List.length_drop] at hRest
      rw [hComma, List.length_cons] at h hRest
      omega
    · rename_i hOther
      have hTurn : argumentTurn? inside (count, c) = none := by
        unfold argumentTurn?
        split
        · rename_i rest hComma
          exact absurd hComma (hOther rest)
        · rfl
      rw [repeats_of_none hTurn, reading_pure]

theorem reading_exponentWalk {exponent : Walker} {reader : Reader}
    (hExponent : ∀ c, (exponent c).reading = reader c)
    (c : Cursor) : (exponentWalk exponent c).reading = powerEnd reader c := by
  unfold exponentWalk
  split
  · rename_i rest hRest
    simp only [powerEnd, hRest, reading_bind, hExponent, reading_ofReading, reading_pure]
  · rename_i hOther
    have hSign : c.rest.head? ≠ some '^' := fun hHead =>
      have ⟨rest, hRest⟩ := List.head?_eq_some_iff.mp hHead
      hOther rest hRest
    rw [powerEnd_of_head hSign, reading_pure]

/-! ## Calls read what is read -/

theorem reading_endWalk (c : Cursor) : (endWalk c).reading = textEnd c := by
  rw [endWalk, textEnd]
  cases c.rest with
  | nil => exact reading_pure c
  | cons next rest => exact reading_ofReading _

/-- What a call reads. -/
def callReader (deep : Cause) (room : Nat) : Call → Reader
  | .parse => readWithin deep room
  | .expression => expression deep room
  | .product => productsOf (power deep room)
  | .power => power deep room
  | .factor => factor (expression deep room)
  | .primary => primary (expression deep room)
  | .name => name (expression deep room)
  | .arguments f start => call (expression deep room) f start
  | .group b => group (expression deep room) b

/-- So many places are needed for the call and the calls inside of it, if `room` levels may be opened. -/
def Call.places (room : Nat) : Call → Nat
  | .parse => 7 * room + 2
  | .expression => 7 * room + 1
  | .product => 7 * room + 7
  | .power => 7 * room + 6
  | .factor => 7 * room + 5
  | .primary => 7 * room + 4
  | .name => 7 * room + 3
  | .arguments _ _ | .group _ => 7 * room + 2

theorem power_eq_powerOf (deep : Cause) (room : Nat) :
    power deep room = powerOf (expression deep room) (powerWithin deep room) := powerWithin_succ deep room

section Bodies

variable {deep : Cause} {room : Nat} {walk : Call → Nat → Walker}

theorem reading_power (overflow : Cause)
    (hFactor : ∀ c, (walk .factor room c).reading = callReader deep room .factor c)
    (hDown : ∀ c, (furtherDown deep (walk .power) room c).reading = powerWithin deep room c) (c : Cursor) :
    (body overflow deep walk .power room c).reading = callReader deep room .power c := by
  simp only [body, reading_bind, hFactor, callReader, power_eq_powerOf, powerOf_eq_powerEnd]
  exact Reading.bind_congr fun c' _ => reading_exponentWalk hDown c'

theorem reading_primary (overflow : Cause)
    (hName : ∀ c, (walk .name room c).reading = callReader deep room .name c)
    (hGroup : ∀ b c, (walk (.group b) room c).reading = callReader deep room (.group b) c) (c : Cursor) :
    (body overflow deep walk .primary room c).reading = callReader deep room .primary c := by
  simp only [body, callReader, primary]
  cases hRest : c.rest with
  | nil => exact reading_ofReading _
  | cons first rest =>
    dsimp only
    split
    · exact hName c
    · split
      · exact reading_ofReading _
      · cases Bracket.ofOpener? first with
        | none => exact reading_ofReading _
        | some b => exact hGroup b c

theorem reading_name (overflow : Cause) (hArguments : ∀ f start c,
    (walk (.arguments f start) room c).reading = callReader deep room (.arguments f start) c) (c : Cursor) :
    (body overflow deep walk .name room c).reading = callReader deep room .name c := by
  simp only [body, callReader, name_eq_wordAt, reading_bind, reading_blanks, pure_bind]
  rw [← Cursor.wordEnd]
  by_cases hOpen : c.wordEnd.rest.head? = some '('
  · obtain ⟨rest, hRest⟩ := List.head?_eq_some_iff.mp hOpen
    simp only [wordAt, hRest]
    cases Builtin.ofName? (String.ofList (c.rest.takeWhile Char.isAlpha)) with
    | none => exact reading_ofReading _
    | some f => exact hArguments f c.position _
  · rw [wordAt_of_head hOpen]
    split
    · rename_i hRest
      exact absurd (by rw [hRest]; rfl) hOpen
    · simp only [reading_bind, reading_ofReading, reading_pure]

theorem reading_arguments (overflow : Cause)
    (hExpression : ∀ c, (walk .expression room c).reading = expression deep room c) (f : Builtin) (start : Nat)
    (c : Cursor) : (body overflow deep walk (.arguments f start) room c).reading =
      callReader deep room (.arguments f start) c := by
  simp only [body, callReader, call_eq_callEnd, reading_bind, hExpression]
  refine Reading.bind_congr fun c' _ => ?_
  rw [reading_argumentTurns (forward_expression deep room) hExpression (Nat.le_refl _)]
  simp only [reading_ofReading]

end Bodies

/-- With places enough a call reads what it is to read. -/
theorem reading_visit (overflow deep : Cause) {stack room : Nat} {call : Call} (h : call.places room ≤ stack)
    (c : Cursor) : (visit overflow deep stack call room c).reading = callReader deep room call c := by
  induction stack generalizing call room c with
  | zero => cases call <;> simp [Call.places] at h
  | succ stack ih =>
    have hInside {inner : Call} {room : Nat} (h : inner.places room ≤ stack) :
        ∀ c, (visit overflow deep stack inner room c).reading = callReader deep room inner c := ih h
    rw [visit, reading_within]
    cases call with
    | parse =>
      have hExpression := @hInside .expression room (Nat.le_of_succ_le_succ h)
      simp only [body, reading_bind, hExpression, callReader, reading_endWalk, readWithin]
    | expression =>
      cases room with
      | zero => exact reading_ofReading _
      | succ room =>
        have hProduct := @hInside .product room (Nat.le_of_succ_le_succ h)
        have hForward : Forward (callReader deep room .product) :=
          forward_chain standing_productOperator? (forward_power deep room)
        exact reading_chainWalk standing_sumOperator? hForward hProduct c
    | product =>
      have hPower := @hInside .power room (Nat.le_of_succ_le_succ h)
      exact reading_chainWalk standing_productOperator? (forward_power deep room) hPower c
    | power =>
      refine reading_power overflow (hInside (Nat.le_of_succ_le_succ h)) (fun c => ?_) c
      cases room with
      | zero => exact reading_ofReading _
      | succ room => exact @hInside .power room (by simp only [Call.places] at h ⊢; omega) c
    | factor =>
      have hPrimary := @hInside .primary room (Nat.le_of_succ_le_succ h)
      simp only [body, reading_bind, reading_signs, hPrimary, reading_suffixWalk, reading_ofReading, callReader,
        factor_eq_operand, pure_bind, operand]
    | primary =>
      have hGroup (b : Bracket) := @hInside (.group b) room (by simp only [Call.places] at h ⊢; omega)
      exact reading_primary overflow (hInside (Nat.le_of_succ_le_succ h)) hGroup c
    | name => exact reading_name overflow (fun _ _ => hInside (Nat.le_of_succ_le_succ h)) c
    | arguments f start => exact reading_arguments overflow (hInside (Nat.le_of_succ_le_succ h)) f start c
    | group b =>
      have hExpression := @hInside .expression room (Nat.le_of_succ_le_succ h)
      simp only [body, callReader, group_eq_groupEnd, reading_bind, hExpression, reading_ofReading]

/-- More places than are needed change nothing. -/
theorem visit_eq_of_places (overflow deep : Cause) {stack stack' room : Nat} {call : Call}
    (h : call.places room ≤ stack) (h' : call.places room ≤ stack') :
    visit overflow deep stack call room = visit overflow deep stack' call room := by
  induction stack generalizing stack' call room with
  | zero => cases call <;> simp [Call.places] at h
  | succ stack ih =>
    obtain ⟨stack', rfl⟩ : ∃ n, stack' = n + 1 :=
      ⟨stack' - 1, by cases call <;> simp only [Call.places] at h' <;> omega⟩
    have hInside {inner : Call} {levels : Nat} (hLess : inner.places levels < call.places room) :
        visit overflow deep stack inner levels = visit overflow deep stack' inner levels :=
      ih (Nat.le_of_lt_succ (Nat.lt_of_lt_of_le hLess h)) (Nat.le_of_lt_succ (Nat.lt_of_lt_of_le hLess h'))
    have hBody : body overflow deep (visit overflow deep stack) call room =
        body overflow deep (visit overflow deep stack') call room := by
      cases call with
      | parse => simp only [body, @hInside .expression room (by simp [Call.places])]
      | expression =>
        cases room with
        | zero => rfl
        | succ room => simp only [body, furtherDown, @hInside .product room (by simp [Call.places]; omega)]
      | product => simp only [body, @hInside .power room (by simp [Call.places])]
      | power =>
        cases room with
        | zero => simp only [body, furtherDown, @hInside .factor 0 (by simp [Call.places])]
        | succ room =>
          simp only [body, furtherDown, @hInside .factor (room + 1) (by simp [Call.places]),
            @hInside .power room (by simp [Call.places])]
      | factor => simp only [body, @hInside .primary room (by simp [Call.places])]
      | primary =>
        have hGroup (b : Bracket) := @hInside (.group b) room (by simp [Call.places])
        simp only [body, @hInside .name room (by simp [Call.places]), hGroup]
      | name =>
        have hArguments (f : Builtin) (start : Nat) := @hInside (.arguments f start) room (by simp [Call.places])
        simp only [body, hArguments]
      | arguments f start => simp only [body, @hInside .expression room (by simp [Call.places])]
      | group b => simp only [body, @hInside .expression room (by simp [Call.places])]
    rw [visit, visit, hBody]

end Reckon.Expression
