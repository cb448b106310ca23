import Reckon.Proofs.Blanks
import Reckon.Proofs.Page.Display

/-! # What a session prints

A session is a map over its lines: what is printed for a line depends on that line alone, and no line is heard
after the one that says to quit.
-/
namespace Reckon.Session
set_option autoImplicit false
open Text (isBlank columns)

/-- A line without the blanks around it. -/
def stripped (line : List Char) : List Char := Text.strip isBlank line

def wordOf (line : List Char) : String := String.ofList (Text.lower (stripped line))

def quits (line : List Char) : Bool := quitWords.contains (wordOf line)

/-- Nothing is printed for an empty line and for the words of a session. -/
def silent (line : List Char) : Bool :=
  (stripped line).isEmpty || clearWords.contains (wordOf line) || quits line

/-- The lines that are read: up to the first one that says to quit. -/
def heard : List (List Char) → List (List Char)
  | [] => []
  | line :: lines => if quits line then [line] else line :: heard lines

/-- What is printed for a line: one line with the outcome of the text in it. -/
def reply [Interpreter] (settings : Settings) (line : List Char) : String :=
  if silent line then ""
  else match evaluate settings (String.ofList (stripped line)) with
    | .ok o => o.display settings.epsilon ++ "\n"
    | .error _ => ""

def noteOf [Interpreter] (settings : Settings) (line : List Char) : Option String :=
  if silent line then none
  else match evaluate settings (String.ofList (stripped line)) with
    | .ok o => o.note?
    | .error _ => none

/-- If there is something to evaluate in the line it has an outcome, and that fits the terminal. -/
def Answers [Interpreter] (settings : Settings) (line : List Char) : Prop :=
  silent line = false → ∃ o, evaluate settings (String.ofList (stripped line)) = .ok o ∧
    columns (o.display settings.epsilon).toList ≤ terminalWidth

variable {settings : Settings} {line : List Char} {lines : List (List Char)}

/-! ## One turn -/

theorem not_clear_of_quits (h : quits line = true) :
    ((stripped line).isEmpty || clearWords.contains (wordOf line)) = false := by
  have hApart : ∀ word ∈ quitWords, clearWords.contains word = false := by decide
  have hMem := List.contains_iff_mem.mp h
  rw [hApart _ hMem, Bool.or_false, ← Bool.not_eq_true, List.isEmpty_iff]
  intro hEmpty
  rw [wordOf, hEmpty] at hMem
  exact absurd hMem (by decide)

theorem turn_eq [Interpreter] (settings : Settings) (line : List Char) :
    turn settings line =
      if (stripped line).isEmpty || clearWords.contains (wordOf line) then {}
      else if quits line then { ending := some .farewell }
      else match evaluate settings (String.ofList (stripped line)) with
        | .ok o => { output := shown (o.display settings.epsilon), note := o.note? }
        | .error i => { ending := some (.interruption i) } := rfl

theorem turn_of_answers [Interpreter] (h : Answers settings line) :
    turn settings line =
      ⟨reply settings line, noteOf settings line, if quits line then some .farewell else none⟩ := by
  rw [turn_eq]
  cases hQuits : quits line with
  | true =>
    have hSilent : silent line = true := by rw [silent, hQuits, Bool.or_true]
    rw [not_clear_of_quits hQuits, reply, noteOf, hSilent]
    rfl
  | false =>
    cases hSilent : silent line with
    | true =>
      have hClear := hSilent
      rw [silent, hQuits, Bool.or_false] at hClear
      rw [hClear, reply, noteOf, hSilent]
      rfl
    | false =>
      have hClear := hSilent
      rw [silent, hQuits, Bool.or_false] at hClear
      obtain ⟨o, hOutcome, hFits⟩ := h hSilent
      rw [hClear, reply, noteOf, hSilent, hOutcome]
      dsimp only
      rw [shown_of_plain (plain_display hOutcome) hFits]
      rfl

/-- The reply to a line that is not silent is one line. -/
theorem reply_eq_line [Interpreter] (h : Answers settings line) (hSilent : silent line = false) :
    ∃ text, '\n' ∉ text.toList ∧ reply settings line = text ++ "\n" := by
  obtain ⟨o, hOutcome, -⟩ := h hSilent
  refine ⟨o.display settings.epsilon, fun hMem => ?_, ?_⟩
  · exact absurd ((plain_display hOutcome).visible '\n' hMem) (by decide)
  · rw [reply, hSilent, hOutcome]
    rfl

/-! ## A whole session -/

/-- For every line that is heard there are a prompt and its reply, and one more prompt where the lines end
    without a word to quit. -/
theorem run_of_answers [Interpreter] (h : ∀ line ∈ heard lines, Answers settings line) :
    run settings lines =
      ⟨String.join ((heard lines).map fun line => prompt ++ reply settings line) ++
          (if lines.any quits then "" else prompt),
        (heard lines).flatMap fun line => (noteOf settings line).toList,
        if lines.any quits then some .farewell else none⟩ := by
  induction lines with
  | nil => rfl
  | cons line lines ih =>
    rw [heard] at h ⊢
    rw [run]
    cases hQuits : quits line with
    | true =>
      rw [hQuits, if_pos rfl] at h
      have hTurn := turn_of_answers (h line List.mem_cons_self)
      rw [hQuits, if_pos rfl] at hTurn
      rw [hTurn, if_pos rfl, List.any_cons, hQuits, Bool.true_or, if_pos rfl]
      simp
    | false =>
      rw [hQuits, if_neg Bool.false_ne_true] at h
      have hTurn := turn_of_answers (h line List.mem_cons_self)
      rw [hQuits, if_neg Bool.false_ne_true] at hTurn
      rw [hTurn, if_neg Bool.false_ne_true, List.any_cons, hQuits]
      dsimp only
      rw [ih fun other hMem => h other (List.mem_cons_of_mem line hMem)]
      simp [String.append_assoc]

/-! ## The same line by itself -/

/-- Outcomes that are alike are shown alike. -/
theorem display_of_alike {place : Nat → Nat → Prop} {o : Outcome} {result : Except Interruption Outcome}
    (h : Alike place result (.ok o)) (epsilon : Float) :
    ∃ o', result = .ok o' ∧ o'.display epsilon = o.display epsilon := by
  cases h with
  | value x => exact ⟨_, rfl, rfl⟩
  | fault kind message h => exact ⟨_, rfl, rfl⟩

/-- The blanks around the text of a line do not matter. -/
theorem reply_eq_shown [Interpreter] (h : Answers settings line) (hSilent : silent line = false) :
    ∃ o, evaluate settings (String.ofList line) = .ok o ∧
      shown (o.display settings.epsilon) = reply settings line := by
  obtain ⟨o, hOutcome, hFits⟩ := h hSilent
  have hAlike := evaluate_strip settings (String.ofList line)
  rw [String.toList_ofList, ← stripped, hOutcome] at hAlike
  obtain ⟨o', hWhole, hDisplay⟩ := display_of_alike hAlike settings.epsilon
  refine ⟨o', hWhole, ?_⟩
  rw [hDisplay, shown_of_plain (plain_display hOutcome) hFits, reply, hSilent, hOutcome]
  rfl

end Reckon.Session
