import Reckon.Proofs.Causes
import Reckon.Proofs.Expression.Places
import Reckon.Proofs.SyntaxFaults

/-! # What stands at the offset of a fault

A fault of syntax is reported at the character that is out of place, a name or a wrong number of arguments
where the name begins, and a failure of arithmetic behind what it was calculated from.
-/
namespace Reckon
set_option autoImplicit false
open Expression
open Text (isBlank)

namespace Expression

/-! ## Characters at an offset -/

section Cursors

variable {text : List Char} {c : Cursor}

theorem Cursor.Ahead.getElem?_eq_head? (h : Ahead ⟨0, text⟩ c) : text[c.position]? = c.rest.head? := by
  rw [h.rest_eq, List.head?_drop]

theorem Cursor.Ahead.position_of_nil (h : Ahead ⟨0, text⟩ c) (hNil : c.rest = []) :
    c.position = text.length := by
  have hEnd := h.end_eq
  simpa [hNil] using hEnd

theorem Cursor.Word.lettersAt {c' : Cursor} {word : String} (h : c.Word word c')
    (hAhead : Ahead ⟨0, text⟩ c) : word.toList = lettersAt text c.skipBlanks.position := by
  have hHere := hAhead.trans c.ahead_skipBlanks
  rw [Expression.lettersAt, ← hHere.rest_eq, takeWhile_word h]

end Cursors

/-- Where neither a blank nor a sign stands that could extend an expression. -/
def Apart (next : Char) : Prop := isBlank next = false ∧ next ∉ ['!', '%', '^', 'x', '/', '+', '-']

theorem apart_of_ended {c : Cursor} (h : Ended .expression c) {next : Char}
    (hNext : next ∈ c.skipBlanks.rest.head?) : Apart next :=
  ⟨c.head_skipBlanks next hNext, h next hNext⟩

end Expression

/-! ## Causes and offsets -/

/-- What stands at the offset at which a cause is reported. -/
def Cause.Points (text : List Char) (p : Nat) : Cause → Prop
  | endOfInput => p = text.length
  | unexpected next =>
    text[p]? = some next ∧ isBlank next = false ∧ startsPrimary next = false ∧ next ≠ '-'
  | lonePoint => text[p]? = some '.' ∧ ∀ next ∈ text[p + 1]?, next.isDigit = false
  | openBracket b => ∀ next ∈ text[p]?, Apart next ∧ next ≠ b.closer
  | openArguments _ => ∀ next ∈ text[p]?, Apart next ∧ next ≠ ')' ∧ next ≠ ','
  | trailing next => text[p]? = some next ∧ Apart next
  | unknownFunction name | unknownIdentifier name => name.toList = lettersAt text p ∧ name.toList ≠ []
  | arityMismatch f _ => f.name.toList = lettersAt text p
  | tooDeep _ | beyondReach => True
  | divisionByZero | integerDivisionByZero | noRealPart | invalidFactorial | mishap _ _ | notReal => 0 < p

theorem Cause.points_of_arithmetic {text : List Char} {p : Nat} {cause : Cause}
    (h : cause.kind.arithmetic = true) (hPlace : 0 < p) : cause.Points text p := by
  cases cause with
  | divisionByZero | integerDivisionByZero | noRealPart | invalidFactorial | mishap | notReal =>
    exact hPlace
  | _ => cases h

theorem Builtin.name_of_ofName? {word : String} {f : Builtin} (h : ofName? word = some f) :
    f.name = word := by
  simpa using List.find?_some h

namespace Expression

variable {A : Arithmetic} {text : List Char} {cause : Cause}

/-- A primary that is refused is reported at what stands there in its place, or at its name. -/
theorem Refuses.points {o : Cursor} {e : Complaint} (h : Refuses A o e)
    (hAhead : Cursor.Ahead ⟨0, text⟩ o) : e.cause.Points text e.position := by
  have hHere := hAhead.trans o.ahead_skipBlanks
  cases h with
  | endOfInput hNil => exact hHere.position_of_nil hNil
  | unexpected hRest hStart hMinus =>
    refine ⟨?_, o.head_skipBlanks _ (by rw [hRest]; rfl), hStart, hMinus⟩
    rw [hHere.getElem?_eq_head?, hRest]
    rfl
  | @lonePoint rest hRest hDigit =>
    have hBehind := hHere.trans (Cursor.ahead_of_rest hRest)
    refine ⟨?_, ?_⟩
    · rw [hHere.getElem?_eq_head?, hRest]
      rfl
    · have hNext : text[o.skipBlanks.position + 1]? = rest.head? := by
        rw [← Cursor.position_advance, hBehind.getElem?_eq_head?, Cursor.rest_advance, hRest]
        rfl
      rw [hNext]
      exact hDigit
  | unknownFunction hWord => exact ⟨hWord.lettersAt hAhead, hWord.nonempty⟩
  | @openBracket c₁ c₂ b _ _ hOpen hInner _ hEnded hClose =>
    have hThere := ((hAhead.trans hOpen.ahead).trans hInner.ahead).trans c₂.ahead_skipBlanks
    intro next hNext
    rw [hThere.getElem?_eq_head?] at hNext
    refine ⟨apart_of_ended hEnded hNext, ?_⟩
    rintro rfl
    exact hClose hNext
  | @openArguments c₁ c₂ c₃ c₄ _ _ _ _ _ hWord _ hOpen hFirst hMore _ hEnded hComma hClose =>
    have hThere := ((((hAhead.trans hWord.token.ahead).trans hOpen.ahead).trans hFirst.ahead).trans
      hMore.ahead).trans c₄.ahead_skipBlanks
    intro next hNext
    rw [hThere.getElem?_eq_head?] at hNext
    refine ⟨apart_of_ended hEnded hNext, ?_, ?_⟩
    · rintro rfl
      exact hClose hNext
    · rintro rfl
      exact hComma hNext
  | arityMismatch hWord hFunction =>
    change (Builtin.name _).toList = _
    rw [Builtin.name_of_ofName? hFunction]
    exact hWord.lettersAt hAhead

theorem Instruction.Placed.points {i : Instruction} {stack : Stack} (h : i.Placed text)
    (hFails : i.action.apply A stack = .error (.cause cause)) : cause.Points text i.position := by
  unfold Placed at h
  rcases Action.cause_of_apply hFails with hArithmetic | ⟨word, hAction, -, rfl⟩
  · split at h
    · rename_i word hAction
      rw [hAction, Action.apply] at hFails
      split at hFails
      · cases hFails
      · cases hFails
        cases hArithmetic
    · exact Cause.points_of_arithmetic hArithmetic h
  · rw [hAction] at h
    exact h

/-- A cause that does not lie in the text comes from an instruction. -/
theorem exists_instruction_of_value [Interpreter] {limit : Int} {position reached : Nat}
    (h : value A limit text = .error ⟨.cause cause, position, reached⟩) (hText : cause.ofText = false) :
    ∃ i ∈ (read limit text).code, i.position = position ∧
      ∃ stack, i.action.apply A stack = .error (.cause cause) := by
  rw [value_eq_execute, map_eq_error_iff, execute_eq_error_iff] at h
  rcases h with hRun | ⟨stack, e, -, hOutcome, hStop⟩
  · obtain ⟨before, i, after, stack, failure, hCode, -, hFails, hStop⟩ := run_eq_error_iff.mp hRun
    cases hStop
    refine ⟨i, ?_, rfl, stack, hFails⟩
    rw [hCode]
    exact List.mem_append_right _ List.mem_cons_self
  · cases hStop
    rw [(placed_read limit text).complaint e hOutcome] at hText
    cases hText

theorem points_of_value [Interpreter] {limit : Int} {position reached : Nat}
    (h : value A limit text = .error ⟨.cause cause, position, reached⟩) : cause.Points text position := by
  cases hText : cause.ofText with
  | false =>
    obtain ⟨i, hMem, rfl, stack, hFails⟩ := exists_instruction_of_value h hText
    exact ((placed_read limit text).code i hMem).points hFails
  | true =>
    rcases value_stops h with hOperates | ⟨o, -, hStop⟩ | ⟨k, o, e, -, hAwaits, hRefuses, hStop⟩ |
      ⟨t, c', x, next, rest, hDerives, -, -, hEnded, hRest, hStop⟩
    · rw [hOperates.ofText_eq_false] at hText
      cases hText
    · cases hStop
      unfold tooDeep
      split <;> exact trivial
    · cases hStop
      exact hRefuses.points hAwaits.ahead
    · cases hStop
      have hAhead := hDerives.ahead.trans c'.ahead_skipBlanks
      have hNext : c'.skipBlanks.rest.head? = some next := by rw [hRest]; rfl
      exact ⟨hAhead.getElem?_eq_head?.trans hNext, apart_of_ended hEnded hNext⟩

end Expression

/-! ## Faults and offsets -/

/-- The message shows the character in quotes. -/
def Fault.Quotes (fault : Fault) (c : Char) : Prop :=
  ∃ before after, fault.message = before ++ Cause.quotedChar c ++ after

/-- What the kind and the message of a fault say of the text at its offset. -/
def Fault.PointsAt (fault : Fault) (text : List Char) (p : Nat) : Prop :=
  match fault.kind with
  | .unexpectedCharacter =>
    (p = text.length ↔ fault.message = "unexpected end of input") ∧
    ∀ next ∈ text[p]?, fault.Quotes next ∧ isBlank next = false ∧ next.isAlpha = false ∧
      next.isDigit = false ∧ (∀ b : Bracket, next ≠ b.opener) ∧ next ≠ '-' ∧
      (next = '.' → ∀ digit ∈ text[p + 1]?, digit.isDigit = false)
  | .unmatchedDelimiter =>
    (∃ b : Bracket, fault.message =
        "expected '" ++ b.closer.toString ++ "' to match '" ++ b.opener.toString ++ "'" ∧
      ∀ next ∈ text[p]?, Apart next ∧ next ≠ b.closer) ∨
    ∃ f : Builtin, fault.message = "expected ')' to close the arguments of " ++ f.name ++ "()" ∧
      ∀ next ∈ text[p]?, Apart next ∧ next ≠ ')' ∧ next ≠ ','
  | .trailingInput => ∃ next, text[p]? = some next ∧ fault.Quotes next ∧ Apart next
  | .unknownFunction => ∃ name : String, fault.message = "unknown function '" ++ name ++ "'" ∧
      name.toList = lettersAt text p ∧ name.toList ≠ []
  | .unknownIdentifier => ∃ name : String, fault.message = "unknown identifier '" ++ name ++ "'" ∧
      name.toList = lettersAt text p ∧ name.toList ≠ []
  | .arityMismatch => ∃ (f : Builtin) (given : Nat), fault.message =
        f.name ++ "() takes " ++ toString f.arity ++ " argument(s), got " ++ toString given ∧
      f.name.toList = lettersAt text p
  | .divisionByZero | .integerDivisionByZero | .invalidFactorial | .domainError | .overflow => 0 < p
  | .tooDeep => True

theorem Cause.message_unexpected_ne (next : Char) :
    (Cause.unexpected next).message ≠ Cause.endOfInput.message := by
  intro h
  change "unexpected character " ++ quotedChar next = "unexpected end of input" at h
  have hLetters := congrArg (List.take 12) (congrArg String.toList h)
  rw [String.toList_append, List.take_append_of_le_length (by decide +kernel)] at hLetters
  exact absurd hLetters (by decide +kernel)

theorem Cause.message_lonePoint_ne : lonePoint.message ≠ endOfInput.message := by
  decide +kernel

theorem Cause.pointsAt {text : List Char} {p : Nat} {cause : Cause} (h : cause.Points text p) :
    (cause.fault p).PointsAt text p := by
  cases cause with
  | divisionByZero | integerDivisionByZero | noRealPart | invalidFactorial | notReal => exact h
  | mishap during what => cases what <;> exact h
  | unknownFunction name | unknownIdentifier name => exact ⟨name, rfl, h⟩
  | arityMismatch f given => exact ⟨f, given, rfl, h⟩
  | openBracket b => exact .inl ⟨b, rfl, h⟩
  | openArguments f => exact .inr ⟨f, rfl, h⟩
  | endOfInput =>
    refine ⟨⟨fun _ => rfl, fun _ => h⟩, fun next hNext => ?_⟩
    rw [Points] at h
    rw [h, List.getElem?_length] at hNext
    cases hNext
  | unexpected next =>
    obtain ⟨hNext, hBlank, hStart, hMinus⟩ := h
    simp only [startsPrimary, Bool.or_eq_false_iff, Option.isSome_eq_false_iff, Option.isNone_iff_eq_none,
      beq_eq_false_iff_ne] at hStart
    obtain ⟨⟨⟨hAlpha, hDigit⟩, hPoint⟩, hBracket⟩ := hStart
    have hOpener (b : Bracket) : next ≠ b.opener := by
      intro hOpen
      rw [Bracket.ofOpener?_eq_some_iff.mpr hOpen] at hBracket
      cases hBracket
    refine ⟨⟨fun hLength => ?_, fun hMessage => absurd hMessage (message_unexpected_ne next)⟩, ?_⟩
    · rw [hLength, List.getElem?_length] at hNext
      cases hNext
    · intro other hOther
      rw [hNext] at hOther
      cases hOther
      have hQuotes : ((Cause.unexpected next).fault p).Quotes next :=
        ⟨"unexpected character ", "", (String.append_empty).symm⟩
      exact ⟨hQuotes, hBlank, hAlpha, hDigit, hOpener, hMinus, fun h => absurd h hPoint⟩
  | lonePoint =>
    obtain ⟨hPoint, hDigit⟩ := h
    refine ⟨⟨fun hLength => ?_, fun hMessage => absurd hMessage message_lonePoint_ne⟩, ?_⟩
    · rw [hLength, List.getElem?_length] at hPoint
      cases hPoint
    · intro next hNext
      rw [hPoint] at hNext
      cases hNext
      have hMessage : lonePoint.message = "" ++ quotedChar '.' ++ " is not a number" := by decide +kernel
      have hQuotes : (Cause.lonePoint.fault p).Quotes '.' := ⟨_, _, hMessage⟩
      refine ⟨hQuotes, by decide, by decide, by decide, ?_, by decide, fun _ => hDigit⟩
      intro b
      cases b <;> decide
  | trailing next => exact ⟨next, h.1, ⟨"unexpected ", " after a complete expression", rfl⟩, h.2⟩
  | tooDeep | beyondReach => trivial

/-- A fault is reported inside of the text or at its end. A character out of place stands at
    the offset and is quoted, and it is none that could stand there: no blank, no beginning of an operand
    where one is missing, and nothing that extends an expression where that should have ended. Names and
    calls are reported at the letters that are the name. Failures of arithmetic are reported behind at
    least one character. -/
theorem position_of_fault [Interpreter] (settings : Settings) (text : String) (fault : Fault)
    (h : evaluate settings text = .ok ⟨text, .error fault⟩) :
    ∃ p : Nat, fault.position = p ∧ p ≤ text.toList.length ∧ fault.PointsAt text.toList p := by
  obtain ⟨cause, p, reached, rfl, hValue⟩ := evaluate_fault_iff.mp h
  obtain ⟨hPlace, hReached⟩ := bounds_of_value hValue
  exact ⟨p, rfl, Nat.le_trans hPlace hReached, Cause.pointsAt (points_of_value hValue)⟩

/-- Where the round bracket should be closed a square one stands, and a call is reported at its name. -/
theorem position_of_fault_bracket :
    evaluate {} "(2+3 ]" = .ok ⟨"(2+3 ]", .error ((Cause.openBracket .round).fault 5)⟩ ∧
      ((Cause.openBracket .round).fault 5).PointsAt "(2+3 ]".toList 5 ∧
      evaluate {} "2xsqrt(3,4)" =
        .ok ⟨"2xsqrt(3,4)", .error ((Cause.arityMismatch (.unary .sqrt) 2).fault 2)⟩ ∧
      ((Cause.arityMismatch (.unary .sqrt) 2).fault 2).PointsAt "2xsqrt(3,4)".toList 2 := by
  have hBracket : evaluate {} "(2+3 ]" = .ok ⟨"(2+3 ]", .error ((Cause.openBracket .round).fault 5)⟩ := by
    decide +kernel
  have hArity : evaluate {} "2xsqrt(3,4)" =
      .ok ⟨"2xsqrt(3,4)", .error ((Cause.arityMismatch (.unary .sqrt) 2).fault 2)⟩ := by
    decide +kernel
  obtain ⟨p, hPlace, -, hPoints⟩ := position_of_fault {} "(2+3 ]" _ hBracket
  obtain ⟨q, hPlace', -, hPoints'⟩ := position_of_fault {} "2xsqrt(3,4)" _ hArity
  obtain rfl : 5 = p := Int.ofNat.inj hPlace
  obtain rfl : 2 = q := Int.ofNat.inj hPlace'
  exact ⟨hBracket, hPoints, hArity, hPoints'⟩

end Reckon
