import Reckon.Proofs.Alike
import Reckon.Proofs.Expression.Exchange

/-! # Minus signs in front of an operand

Of the minus signs in front of an operand it matters only whether their number is odd. So a run of them can be
replaced by another one wherever the run of the text comes to an operand, also if the text has a fault further
on, and also in front of a factorial, which is not taken under a pending sign.
-/
namespace Reckon
set_option autoImplicit false
open Expression
open Text (isBlank)

namespace Expression

/-! ## Runs of signs -/

/-- Minus signs, and blanks between and around them. -/
def MinusRun (run : List Char) : Prop := ∀ c ∈ run, c = '-' ∨ isBlank c = true

theorem minusSigns_append {run : List Char} (hRun : MinusRun run) (negated : Bool) (p : Nat)
    (after : List Char) : minusSigns negated p (run ++ after) =
      minusSigns (negated ^^ decide (run.count '-' % 2 = 1)) (p + run.length) after := by
  induction run generalizing negated p with
  | nil =>
    rw [List.nil_append, List.count_nil, decide_eq_false (by decide), Bool.xor_false]
    rfl
  | cons next run ih =>
    have hNext := hRun next List.mem_cons_self
    have hMore : MinusRun run := fun c hMember => hRun c (List.mem_cons_of_mem next hMember)
    rw [List.cons_append, minusSigns, List.length_cons, Nat.add_comm run.length, ← Nat.add_assoc]
    rcases hNext with rfl | hBlank
    · have hFlip : decide ((run.count '-' + 1) % 2 = 1) = !decide (run.count '-' % 2 = 1) := by
        rw [← decide_not, decide_eq_decide]
        omega
      rw [if_neg (by decide), if_pos rfl, ih hMore, List.count_cons_self, hFlip, Bool.not_xor, Bool.xor_not]
    · have hOther : next ≠ '-' := by
        rintro rfl
        exact absurd hBlank (by decide)
      rw [if_pos hBlank, ih hMore, List.count_cons_of_ne hOther]

section Runs

variable {A : Arithmetic} {levels room p : Nat} {text run run' after : List Char}

/-- A factor is read alike behind either run. -/
theorem agrees_factor (hVisits : Visits A levels text .factor room ⟨p, run ++ after⟩) (hRun : MinusRun run)
    (hRun' : MinusRun run') (hParity : run.count '-' % 2 = run'.count '-' % 2) (deep : Cause) :
    Agrees A deep .factor room ⟨p, run ++ after⟩ ⟨p, run' ++ after⟩ := by
  intro stack
  cases hVisits with
  | @base room _ hPower =>
    have hLawful := lawful_sameRest A deep levels text
    have hInside := simulates_expression_sameRest A deep levels text room
    have hSigns : (minusSigns false p (run ++ after)).1 = (minusSigns false p (run' ++ after)).1 ∧
        sameRest.Firm (minusSigns false p (run ++ after)).2 (minusSigns false p (run' ++ after)).2 := by
      rw [minusSigns_append hRun, minusSigns_append hRun', hParity]
      have hNear : sameRest.near ⟨p + run.length, after⟩ ⟨p + run'.length, after⟩ := rfl
      exact hLawful.firm_minusSigns _ hNear
    exact hLawful.matches_factor hInside (.base hPower) hSigns.1 hSigns.2 stack

theorem MinusRun.head_ne_slash (hRun : MinusRun run) (hSome : run ≠ []) (after : List Char) :
    (run ++ after).head? ≠ some '/' := by
  obtain ⟨next, more, rfl⟩ := List.exists_cons_of_ne_nil hSome
  rintro ⟨⟩
  exact absurd (hRun '/' List.mem_cons_self) (by decide)

end Runs
end Expression

/-! ## Evaluation -/

/-- Texts whose expressions are read alike are evaluated alike. -/
theorem alike_of_agrees [Interpreter] {settings : Settings} {text text' : String}
    (h : Agrees settings.arithmetic (tooDeep settings.maxDepth) .expression (levels settings.maxDepth)
      ⟨0, text.toList⟩ ⟨0, text'.toList⟩) :
    Alike (fun _ _ => True) (evaluate settings text) (evaluate settings text') := by
  have hExpression := h []
  rw [readerOf_expression] at hExpression
  have hMatches := hExpression.bind (f := textEnd) (g := textEnd) (S := fun _ _ => True)
    fun c d stack hFirm _ _ => (lawful_sameRest settings.arithmetic (tooDeep settings.maxDepth) 0 []).matches_textEnd
      hFirm stack
  rcases alike_of_matches (E := sameRest) hMatches with hAlike | ⟨stop, hExcused, -⟩
  · exact hAlike
  · exact hExcused.elim

theorem evaluate_run [Interpreter] (settings : Settings) (before run run' after : String) (room : Nat)
    (hVisits : Visits settings.arithmetic (levels settings.maxDepth) (before ++ run ++ after).toList .factor room
      ⟨before.length, (run ++ after).toList⟩)
    (hRun : MinusRun run.toList) (hRun' : MinusRun run'.toList)
    (hParity : run.toList.count '-' % 2 = run'.toList.count '-' % 2) (hEmpty : run' = "" → run = "") :
    Alike (fun _ _ => True) (evaluate settings (before ++ run ++ after))
      (evaluate settings (before ++ run' ++ after)) := by
  by_cases hSome : run' = ""
  · -- Then both runs are empty, and there is one text.
    rw [hSome, hEmpty hSome]
    exact alike_self (fun _ => trivial) settings _
  · apply alike_of_agrees
    have hSlash := hRun'.head_ne_slash (fun hNil => hSome (String.toList_eq_nil_iff.mp hNil)) after.toList
    have hTail (run : String) : (run ++ after).toList = run.toList ++ after.toList := String.toList_append
    have hStart (run : String) : (⟨0, (before ++ run ++ after).toList⟩ : Cursor) =
        ⟨0, before.toList ++ (run.toList ++ after.toList)⟩ := by
      rw [String.append_assoc, String.toList_append, hTail]
    rw [hTail run] at hVisits
    have hAgrees := agrees_factor hVisits hRun hRun' hParity (tooDeep settings.maxDepth)
    have hReplaced : Cursor.replace (run.toList ++ after.toList) (run'.toList ++ after.toList)
        ⟨before.length, run.toList ++ after.toList⟩ = ⟨before.length, run'.toList ++ after.toList⟩ :=
      Cursor.replace_append before.length []
    rw [← hReplaced] at hAgrees
    have hWhole := hVisits.exchange hSlash (List.suffix_refl _) hAgrees
    rwa [hStart, Cursor.replace_append, ← hStart, ← hStart] at hWhole

theorem evaluate_two_signs [Interpreter] (settings : Settings) (text : String) :
    Alike (fun _ _ => True) (evaluate settings text) (evaluate settings ("--" ++ text)) := by
  cases hLevels : levels settings.maxDepth with
  | zero =>
    apply alike_of_agrees
    rw [hLevels]
    exact fun stack => Pairing.matches_fail trivial stack
  | succ room =>
    have hVisits : Visits settings.arithmetic (levels settings.maxDepth) ("" ++ "" ++ text).toList .factor
        (room + 1) ⟨"".length, ("" ++ text).toList⟩ := by
      rw [hLevels, String.empty_append]
      exact .base (.single (.summand .start))
    have hSigns : MinusRun "--".toList := by simp [MinusRun]
    have hAlike := evaluate_run settings "" "" "--" text (room + 1) hVisits nofun hSigns (by decide) nofun
    rwa [String.empty_append, String.empty_append, String.empty_append] at hAlike

/-- Wherever the run comes to a factor, the signs in front of it can be replaced by others if both numbers are
    even or both are odd; no more of the outcome changes than the offset of its fault. Where there are signs or
    blanks some have to be left, or a sign of division before them could get another one behind it. -/
theorem evaluate_minus_signs [Interpreter] (settings : Settings) :
    (∀ (before run run' after : String) (room : Nat),
      Visits settings.arithmetic (levels settings.maxDepth) (before ++ run ++ after).toList .factor room
        ⟨before.length, (run ++ after).toList⟩ →
      MinusRun run.toList → MinusRun run'.toList → run.toList.count '-' % 2 = run'.toList.count '-' % 2 →
      (run' = "" → run = "") →
        Alike (fun _ _ => True) (evaluate settings (before ++ run ++ after))
          (evaluate settings (before ++ run' ++ after))) ∧
      ∀ text : String, Alike (fun _ _ => True) (evaluate settings text) (evaluate settings ("--" ++ text)) :=
  ⟨evaluate_run settings, evaluate_two_signs settings⟩

/-- The operand is the exponent of a power, and its factorial is refused under either odd number of signs. -/
theorem evaluate_minus_signs_exponent :
    evaluate {} "2^-3!" = .ok ⟨"2^-3!", .error (Cause.invalidFactorial.fault 5)⟩ ∧
      Alike (fun _ _ => True) (evaluate {} "2^-3!") (evaluate {} "2^- - -3!") ∧
      Alike (fun _ _ => True) (evaluate {} "2^-3!") (evaluate {} "--2^-3!") := by
  have hScan : Numeral.scan? "2^-3!".toList = some (⟨['2'], none, none⟩, "^-3!".toList) := by decide
  have hBase : Derives .factor ⟨0, "2^-3!".toList⟩ (.literal (Numeral.mk ['2'] none none).value 1)
      ⟨1, "^-3!".toList⟩ := by
    have hLiteral := @Derives.literal ⟨0, "2^-3!".toList⟩ ⟨1, "^-3!".toList⟩ _
      (Numeral.scan?_eq_some_iff.mp hScan).1 ⟨rfl, rfl⟩
    exact .factor (.none _) (.operand false hLiteral)
  have hTwo : (Tree.literal (Numeral.mk ['2'] none none).value 1).eval ({} : Settings).arithmetic =
      .ok (.complex ⟨2, 0⟩) := by decide +kernel
  have hVisits : Visits ({} : Settings).arithmetic (levels ({} : Settings).maxDepth) "2^-3!".toList .factor 99
      ⟨2, "-3!".toList⟩ :=
    .base (.exponent (.single (.summand .start)) hBase (by decide) hTwo ⟨rfl, rfl⟩)
  exact ⟨by decide +kernel, (evaluate_minus_signs {}).1 "2^" "-" "- - -" "3!" 99 hVisits (by simp [MinusRun])
    (by simp [MinusRun, isBlank]) (by decide) nofun, (evaluate_minus_signs {}).2 "2^-3!"⟩

end Reckon
