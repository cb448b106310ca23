import Reckon.Proofs.Alike
import Reckon.Proofs.Expression.Shift
import Reckon.Proofs.Numeral.Ending

/-! # What stands in brackets

An expression in brackets counts for its value alone. Whatever stands around the brackets, another expression
with the same value can be put there.
-/
namespace Reckon
set_option autoImplicit false
open Expression
open Text (isBlank)

namespace Expression

/-! ## A text in brackets -/

section Inside

variable {A : Arithmetic} {limit : Int} {text after : List Char} {x : Number}

/-- A text with a value is read before a closing bracket, unless there are not levels enough. -/
theorem execute_inside [Interpreter] (h : value A limit text = .ok x) (b : Bracket) (deep : Cause) (k room : Nat)
    (stack : Stack) : execute A (expression deep room ⟨k, text ++ b.closer :: after⟩) stack =
        .ok (⟨k + text.length, b.closer :: after⟩, x :: stack) ∨
      ∃ stop, execute A (expression deep room ⟨k, text ++ b.closer :: after⟩) stack = .error stop ∧
        stop.failure = .cause deep := by
  obtain ⟨t, hParses, -, hValue⟩ := value_eq_ok_iff.mp h
  obtain ⟨c, hInner, hClose⟩ := hParses.inside (endMark_closer b) k after
  have hMoved : (t.shift k).eval A = .ok x := by
    have hMeaning := Tree.meaning_shift A k t
    rw [Tree.meaning, Tree.meaning, hValue] at hMeaning
    exact mapError_eq_ok_iff.mp hMeaning
  have hHere : c.skipBlanks = ⟨k + text.length, b.closer :: after⟩ := by
    obtain ⟨hRest, hPosition⟩ := hClose
    rw [List.length_singleton, Nat.add_right_cancel_iff] at hPosition
    rw [hPosition, ← List.singleton_append, ← hRest]
  have hEnded : Ended .expression c := .of_head hClose.1 (by cases b <;> decide)
  rcases tame_expression deep room _ _ c x hInner hMoved hEnded stack with hOk | ⟨p, -, hStop⟩
  · rw [hHere] at hOk
    exact .inl hOk
  · exact .inr ⟨_, hStop, rfl⟩

end Inside

/-! ## Two texts that differ in brackets -/

section Beside

variable {b : Bracket} {start : Nat} {inner inner' after : List Char}

/-- Cursors before the opening brackets, and behind the closing ones. -/
inductive Beside (b : Bracket) (start : Nat) (inner inner' after : List Char) : Cursor → Cursor → Prop
  | before {p : Nat} (l : List Char) (h : p + l.length = start) : Beside b start inner inner' after
      ⟨p, l ++ b.opener :: (inner ++ b.closer :: after)⟩
      ⟨p, l ++ b.opener :: (inner' ++ b.closer :: after)⟩
  | behind (k : Nat) (rest : List Char) : Beside b start inner inner' after
      ⟨start + 1 + inner.length + 1 + k, rest⟩ ⟨start + 1 + inner'.length + 1 + k, rest⟩

/-- Offsets up to the opening bracket stay as they are, and those from the closing bracket on move with it. -/
def Moves (start length length' : Nat) (p q : Nat) : Prop :=
  p ≤ start ∧ q = p ∨ start + 1 + length ≤ p ∧ q + length = p + length'

def beside (b : Bracket) (start : Nat) (inner inner' after : List Char) (deep : Cause) : Pairing where
  near := Beside b start inner inner' after
  place := Moves start inner.length inner'.length
  excused stop := stop.failure = .cause deep

namespace Beside

variable {c d : Cursor}

theorem moves (h : Beside b start inner inner' after c d) :
    Moves start inner.length inner'.length c.position d.position := by
  cases h with
  | before l h => exact .inl ⟨Nat.le.intro h, rfl⟩
  | behind k rest =>
    right
    constructor <;> dsimp only <;> omega

theorem head? (h : Beside b start inner inner' after c d) : d.rest.head? = c.rest.head? := by
  cases h with
  | before l h => cases l <;> rfl
  | behind k rest => rfl

theorem advance_before {p n : Nat} {l : List Char} (h : p + l.length = start) (hn : n ≤ l.length) :
    Beside b start inner inner' after
      (Cursor.advance ⟨p, l ++ b.opener :: (inner ++ b.closer :: after)⟩ n)
      (Cursor.advance ⟨p, l ++ b.opener :: (inner' ++ b.closer :: after)⟩ n) := by
  rw [Cursor.advance, Cursor.advance, List.drop_append_of_le_length hn, List.drop_append_of_le_length hn]
  refine .before (l.drop n) ?_
  rw [List.length_drop, ← h]
  dsimp only
  omega

theorem advance_behind (k n : Nat) (rest : List Char) : Beside b start inner inner' after
    (Cursor.advance ⟨start + 1 + inner.length + 1 + k, rest⟩ n)
    (Cursor.advance ⟨start + 1 + inner'.length + 1 + k, rest⟩ n) := by
  rw [Cursor.advance, Cursor.advance, Nat.add_assoc _ k, Nat.add_assoc _ k]
  exact .behind (k + n) (rest.drop n)

/-- Characters other than the opening bracket are passed on both sides. -/
theorem run (h : Beside b start inner inner' after c d) {p : Char → Bool} (hOpener : p b.opener = false) :
    d.rest.takeWhile p = c.rest.takeWhile p ∧ Beside b start inner inner' after
      (c.advance (c.rest.takeWhile p).length) (d.advance (c.rest.takeWhile p).length) := by
  cases h with
  | before l h =>
    have hTake (inner : List Char) :
        (l ++ b.opener :: (inner ++ b.closer :: after)).takeWhile p = l.takeWhile p := by
      refine (Cursor.takeWhile_append_of_head l ?_).1
      rintro next ⟨⟩
      exact hOpener
    dsimp only
    rw [hTake, hTake]
    exact ⟨rfl, advance_before h (List.takeWhile_sublist p).length_le⟩
  | behind k rest => exact ⟨rfl, advance_behind k _ rest⟩

theorem advance (h : Beside b start inner inner' after c d) {next : Char} (hNext : c.rest.head? = some next)
    (hOpener : next ≠ b.opener) : Beside b start inner inner' after (c.advance 1) (d.advance 1) := by
  cases h with
  | before l h =>
    cases l with
    | nil =>
      cases hNext
      exact absurd rfl hOpener
    | cons next l => exact advance_before h (by simp)
  | behind k rest => exact advance_behind k 1 rest

/-- The same numeral stands on both sides, or none. -/
theorem scan (h : Beside b start inner inner' after c d) :
    Numeral.scan? c.rest = none ∧ Numeral.scan? d.rest = none ∨
      ∃ n rest rest', Numeral.scan? c.rest = some (n, rest) ∧ Numeral.scan? d.rest = some (n, rest') ∧
        Beside b start inner inner' after (c.advance n.text.length) (d.advance n.text.length) := by
  cases h with
  | before l h =>
    have hHead (inner : List Char) : ∀ next ∈ (b.opener :: (inner ++ b.closer :: after)).head?,
        Numeral.writes next = false := by
      rintro next ⟨⟩
      cases b <;> decide
    dsimp only
    rw [Numeral.scan?_append (hHead inner), Numeral.scan?_append (hHead inner')]
    cases hScan : Numeral.scan? l with
    | none => exact .inl ⟨rfl, rfl⟩
    | some found =>
      refine .inr ⟨found.1, _, _, rfl, rfl, advance_before h ?_⟩
      rw [Numeral.eq_of_scan? hScan, List.length_append]
      exact Nat.le_add_right _ _
  | behind k rest =>
    cases hScan : Numeral.scan? rest with
    | none => exact .inl ⟨rfl, rfl⟩
    | some found => exact .inr ⟨found.1, _, _, rfl, rfl, advance_behind k _ rest⟩

end Beside

section Lawful

variable {A : Arithmetic} {limit limit' : Int} {x : Number}

/-- Brackets around texts that have the same value. -/
theorem lawful_beside [Interpreter] (h : value A limit inner = .ok x) (h' : value A limit' inner' = .ok x)
    (b : Bracket)
    (start : Nat) (after : List Char) (deep : Cause) (levels : Nat) (text : List Char) :
    (beside b start inner inner' after deep).Lawful A deep levels text where
  place h := h.moves
  skipBlanks {c d} h := by
    have hRun := h.run (p := isBlank) (by cases b <;> decide)
    rw [Cursor.skipBlanks_eq_advance, Cursor.skipBlanks_eq_advance, hRun.1]
    exact hRun.2
  head? h := h.1.head?
  advance h hNext hOpener := by
    refine h.1.advance hNext fun hEq => ?_
    rw [Bracket.ofOpener?_eq_some_iff.mpr hEq] at hOpener
    cases hOpener
  slash _ _ _ _ h hSlash := by
    rw [(h.1.advance hSlash (by cases b <;> decide)).head?]
  letters _ h := h.1.run (by cases b <;> decide)
  scan _ h := h.1.scan
  bracket {c d b'} h hNext := by
    obtain ⟨hNear, -, -⟩ := h
    cases hNear with
    | behind k rest => exact .inl (Beside.advance_behind k 1 rest)
    | before l hStart =>
      cases l with
      | cons next l => exact .inl (Beside.advance_before hStart (by simp))
      | nil =>
        obtain rfl : b = b' := by
          have hSame := Option.some.inj hNext
          revert hSame
          cases b <;> cases b' <;> decide
        obtain rfl : _ = start := hStart
        refine .inr ⟨⟨_ + 1 + inner.length, b.closer :: after⟩, ⟨_ + 1 + inner'.length, b.closer :: after⟩, x,
          rfl, rfl, Beside.behind 0 after, fun room stack => ⟨?_, ?_⟩⟩
        · exact execute_inside h b deep _ room stack
        · exact execute_inside h' b deep _ room stack

end Lawful
end Beside

end Expression

/-! ## Evaluation -/

/-- The text between brackets, with more text before and behind them. -/
def Bracket.around (b : Bracket) (before inner after : String) : String :=
  before ++ String.ofList [b.opener] ++ inner ++ String.ofList [b.closer] ++ after

theorem Bracket.toList_around (b : Bracket) (before inner after : String) :
    (b.around before inner after).toList =
      before.toList ++ b.opener :: (inner.toList ++ b.closer :: after.toList) := by
  simp [around]

/-- Texts with the same value can stand for each other between brackets, whatever is around them. -/
theorem evaluate_around [Interpreter] (settings : Settings) (limit limit' : Int) (b : Bracket)
    (before inner inner' after : String) (x : Number)
    (h : evaluate { settings with maxDepth := limit } inner = .ok ⟨inner, .ok x⟩)
    (h' : evaluate { settings with maxDepth := limit' } inner' = .ok ⟨inner', .ok x⟩)
    (hDeep : ¬ DeepFault (evaluate settings (b.around before inner after)))
    (hDeep' : ¬ DeepFault (evaluate settings (b.around before inner' after))) :
    Alike (Moves before.length inner.length inner'.length)
      (evaluate settings (b.around before inner after)) (evaluate settings (b.around before inner' after)) := by
  have hValue : value settings.arithmetic limit inner.toList = .ok x := evaluate_value_iff.mp h
  have hValue' : value settings.arithmetic limit' inner'.toList = .ok x := evaluate_value_iff.mp h'
  have hLawful := lawful_beside hValue hValue' b before.length after.toList (tooDeep settings.maxDepth)
    (levels settings.maxDepth) (b.around before inner after).toList
  have hNear : Beside b before.length inner.toList inner'.toList after.toList
      ⟨0, (b.around before inner after).toList⟩ ⟨0, (b.around before inner' after).toList⟩ := by
    rw [Bracket.toList_around, Bracket.toList_around]
    exact .before before.toList ((Nat.zero_add _).trans before.length_toList)
  have hMatches := hLawful.matches_readWithin hNear []
  rcases alike_of_matches hMatches with hAlike | ⟨stop, hExcused, hStop⟩
  · exact hAlike
  · obtain ⟨failure, position, reached⟩ := stop
    obtain rfl : failure = .cause (tooDeep settings.maxDepth) := hExcused
    rcases hStop with hStop | hStop
    · exact absurd ⟨_, _, hStop, kind_tooDeep settings.maxDepth⟩ hDeep
    · exact absurd ⟨_, _, hStop, kind_tooDeep settings.maxDepth⟩ hDeep'

/-- Behind the argument of a call a bracket too many is reported one character further if the argument is one
    character longer. -/
theorem evaluate_around_root :
    evaluate { mode := .real } "sqrt(4x4))" = .ok ⟨"sqrt(4x4))", .error ((Cause.trailing ')').fault 9)⟩ ∧
      Alike (Moves 4 3 4) (evaluate { mode := .real } "sqrt(4x4))")
        (evaluate { mode := .real } "sqrt(10+6))") := by
  have hShort : evaluate { mode := .real } "4x4" = .ok ⟨"4x4", .ok (.real 16)⟩ := by decide +kernel
  have hLong : evaluate { mode := .real } "10+6" = .ok ⟨"10+6", .ok (.real 16)⟩ := by decide +kernel
  have hFault : evaluate { mode := .real } "sqrt(4x4))" =
      .ok ⟨"sqrt(4x4))", .error ((Cause.trailing ')').fault 9)⟩ := by decide +kernel
  have hFault' : evaluate { mode := .real } "sqrt(10+6))" =
      .ok ⟨"sqrt(10+6))", .error ((Cause.trailing ')').fault 10)⟩ := by decide +kernel
  refine ⟨hFault, evaluate_around { mode := .real } 100 100 .round "sqrt" "4x4" "10+6" ")" (.real 16) hShort
    hLong ?_ ?_⟩
  · change ¬ DeepFault (evaluate { mode := .real } "sqrt(4x4))")
    rw [hFault]
    exact not_deepFault (by decide)
  · change ¬ DeepFault (evaluate { mode := .real } "sqrt(10+6))")
    rw [hFault']
    exact not_deepFault (by decide)

end Reckon
