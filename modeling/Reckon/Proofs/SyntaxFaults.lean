import Reckon.Proofs.Expression.Completion
import Reckon.Proofs.Operations

/-! # Where a text stops being the beginning of an expression

A fault of syntax is reported at the first offset at which no expression goes on as the text does: the
text before it can be completed, and no expression begins with the text up to it and three characters
more. If something is left behind a complete expression, the text before it has a value.
-/
namespace Reckon
set_option autoImplicit false
open Expression

/-! ## Kinds of causes -/

/-- The kinds of faults that are read off the text alone. -/
def FaultKind.syntactic : FaultKind → Bool
  | .unexpectedCharacter | .unmatchedDelimiter | .trailingInput | .tooDeep => true
  | _ => false

theorem Cause.ofText_of_syntactic {cause : Cause} (h : cause.kind.syntactic = true) :
    cause.ofText = true := by
  cases cause with
  | mishap during what =>
    cases what with
    | zeroDivision | outOfRange | outOfDomain => cases h
  | divisionByZero | integerDivisionByZero | noRealPart | invalidFactorial | notReal
  | unknownIdentifier => cases h
  | unknownFunction | arityMismatch | openBracket | openArguments | endOfInput | unexpected | lonePoint
  | trailing | tooDeep | beyondReach => rfl

namespace Expression

variable {A : Arithmetic} {limit : Int} {text : List Char} {cause : Cause} {position reached : Nat}

theorem kind_tooDeep [Interpreter] (limit : Int) : (tooDeep limit).kind = .tooDeep := by
  unfold tooDeep
  split <;> rfl

theorem Operates.kind (h : Operates A (.cause cause)) : cause.kind.syntactic = false := by
  rw [Bool.eq_false_iff]
  intro hKind
  have hText := Cause.ofText_of_syntactic hKind
  rw [h.ofText_eq_false] at hText
  cases hText

theorem Tree.kind_of_eval {t : Tree} (h : t.eval A = .error ⟨.cause cause, position, reached⟩) :
    cause.kind.syntactic = false := by
  rcases Tree.cause_of_eval h with hText | hKind | hKind
  · rw [Bool.eq_false_iff]
    intro hKind
    rw [Cause.ofText_of_syntactic hKind] at hText
    cases hText
  · rw [hKind]
    rfl
  · rw [hKind]
    rfl

/-- What is refused for its syntax is no expression, however it goes on behind three characters more. -/
theorem not_parses_of_value [Interpreter] (h : value A limit text = .error ⟨.cause cause, position, reached⟩)
    (hKind : cause.kind.syntactic = true) (hDeep : cause.kind ≠ .tooDeep) {text' : List Char}
    (hAgree : text'.take (reached + 3) = text.take (reached + 3)) (t : Tree) : ¬ Parses text' t := by
  intro hParses
  have hSame := value_eq_error_of_agree h hAgree
  rcases value_of_parses_or A limit hParses with hTree | ⟨p, hTooDeep⟩
  · rw [hTree] at hSame
    rw [Tree.kind_of_eval hSame] at hKind
    cases hKind
  · rw [hTooDeep] at hSame
    cases hSame
    exact hDeep (kind_tooDeep limit)

theorem completion_of_value [Interpreter] (h : value A limit text = .error ⟨.cause cause, position, reached⟩)
    (hKind : cause.kind = .unexpectedCharacter ∨ cause.kind = .unmatchedDelimiter) :
    reached = position ∧ ∃ s t, Parses (text.take position ++ s) t ∧ t.named A.mode = true := by
  rcases value_stops h with hOperates | ⟨o, -, hStop⟩ | ⟨k, o, e, -, hAwaits, hRefuses, hStop⟩ |
    ⟨t, c', x, next, rest, -, -, -, -, -, hStop⟩
  · have hSyntactic := Operates.kind hOperates
    rcases hKind with hKind | hKind <;> (rw [hKind] at hSyntactic; cases hSyntactic)
  · cases hStop
    rw [kind_tooDeep] at hKind
    rcases hKind with hKind | hKind <;> cases hKind
  · cases hStop
    exact exists_completion hAwaits hRefuses hKind
  · cases hStop
    rcases hKind with hKind | hKind <;> cases hKind

/-- Cut off behind the blanks that follow it, an expression is a whole text. -/
theorem Derives.parses_take {t : Tree} {c : Cursor} (h : Derives .expression ⟨0, text⟩ t c) :
    Parses (text.take c.skipBlanks.position) t := by
  have hReplaces : Replaces c.skipBlanks.rest [] := ⟨nofun, .inr nofun, c.head_skipBlanks⟩
  have hSuffix := c.ahead_skipBlanks.suffix
  have hBlanks : (c.replace c.skipBlanks.rest []).skipBlanks.rest = [] := by
    rw [(Cursor.skipBlanks_replace hReplaces hSuffix).1]
    exact congrArg Cursor.rest (Cursor.replace_append c.skipBlanks.position [])
  have hPrefix := h.replace hReplaces hSuffix (Cursor.past_of_skipBlanks hBlanks)
  rw [replace_start (h.ahead.trans c.ahead_skipBlanks), List.append_nil] at hPrefix
  exact ⟨_, hPrefix, hBlanks⟩

theorem value_of_trailing [Interpreter] (h : value A limit text = .error ⟨.cause cause, position, reached⟩)
    (hKind : cause.kind = .trailingInput) :
    position < text.length ∧ ∃ x, value A limit (text.take position) = .ok x := by
  rcases value_stops h with hOperates | ⟨o, -, hStop⟩ | ⟨k, o, e, -, hAwaits, hRefuses, hStop⟩ |
    ⟨t, c', x, next, rest, hDerives, hValue, hNesting, -, hRest, hStop⟩
  · have hSyntactic := Operates.kind hOperates
    rw [hKind] at hSyntactic
    cases hSyntactic
  · cases hStop
    rw [kind_tooDeep] at hKind
    cases hKind
  · cases hStop
    cases hRefuses <;> cases hKind
  · cases hStop
    have hEnd : c'.skipBlanks.position + c'.skipBlanks.rest.length = 0 + text.length :=
      (hDerives.ahead.trans c'.ahead_skipBlanks).end_eq
    rw [hRest, List.length_cons] at hEnd
    refine ⟨by omega, x, ?_⟩
    rw [value_of_parses hDerives.parses_take hNesting]
    exact hValue

end Expression

/-! ## Faults of syntax -/

/-- Up to the offset of a missing operand or bracket the text is the beginning of an expression, and with
    three characters more it is not; up to the offset of trailing input it has a value. -/
theorem evaluate_syntax_fault [Interpreter] (settings : Settings) (text : String) (fault : Fault)
    (h : evaluate settings text = .ok ⟨text, .error fault⟩) :
    (fault.kind = .unexpectedCharacter ∨ fault.kind = .unmatchedDelimiter →
      ∃ p : Nat, fault.position = p ∧
        (∃ s t, Parses (text.toList.take p ++ s) t ∧ t.named settings.mode = true) ∧
        ∀ text' t, text'.take (p + 3) = text.toList.take (p + 3) → ¬ Parses text' t) ∧
    (fault.kind = .trailingInput → ∃ p : Nat, fault.position = p ∧
      p < text.toList.length ∧ ∃ x, evaluate settings (String.ofList (text.toList.take p)) =
        .ok ⟨String.ofList (text.toList.take p), .ok x⟩) := by
  obtain ⟨cause, position, reached, rfl, hValue⟩ := evaluate_fault_iff.mp h
  constructor
  · intro hKind
    have hSyntactic : cause.kind.syntactic = true ∧ cause.kind ≠ .tooDeep := by
      rcases hKind with hKind | hKind <;> (change cause.kind = _ at hKind; rw [hKind]; decide)
    obtain ⟨rfl, hCompletion⟩ := completion_of_value hValue hKind
    refine ⟨reached, rfl, hCompletion, fun text' t hAgree => ?_⟩
    exact not_parses_of_value hValue hSyntactic.1 hSyntactic.2 hAgree t
  · intro hKind
    obtain ⟨hLess, x, hPrefix⟩ := value_of_trailing hValue hKind
    refine ⟨position, rfl, hLess, x, evaluate_value_iff.mpr ?_⟩
    rwa [String.toList_ofList]

theorem evaluate_syntax_fault_star :
    evaluate {} "(2+*345" = .ok ⟨"(2+*345", .error ((Cause.unexpected '*').fault 3)⟩ ∧
      (∃ s t, Parses ("(2+".toList ++ s) t ∧ t.named .complex = true) ∧
      (∀ t, ¬ Parses "(2+*34)".toList t) ∧
      evaluate {} "2-1 3" = .ok ⟨"2-1 3", .error ((Cause.trailing '3').fault 4)⟩ ∧
      ∃ x, evaluate {} "2-1 " = .ok ⟨"2-1 ", .ok x⟩ := by
  have hStar : evaluate {} "(2+*345" = .ok ⟨"(2+*345", .error ((Cause.unexpected '*').fault 3)⟩ := by
    decide +kernel
  have hTrailing : evaluate {} "2-1 3" = .ok ⟨"2-1 3", .error ((Cause.trailing '3').fault 4)⟩ := by
    decide +kernel
  obtain ⟨p, hPosition, hCompletion, hNone⟩ := (evaluate_syntax_fault {} "(2+*345" _ hStar).1 (.inl rfl)
  obtain ⟨q, hPosition', -, hPrefix⟩ := (evaluate_syntax_fault {} "2-1 3" _ hTrailing).2 rfl
  obtain rfl : 3 = p := Int.ofNat.inj hPosition
  obtain rfl : 4 = q := Int.ofNat.inj hPosition'
  exact ⟨hStar, hCompletion, fun t => hNone _ t (by decide), hTrailing, hPrefix⟩

end Reckon
