import Reckon.CommandLine.Run
import Reckon.Proofs.Json.RoundTrip
import Reckon.Proofs.Totality

/-! # What is printed as records says what came of the evaluations

The records of some texts are one JSON document. It is read as an array with one record for each text, in the
order of the texts, and each record gives back the text and the fault or the number, down to the last bit.
-/
namespace Reckon
set_option autoImplicit false

/-! ## Looking into records -/

namespace Json.Value

def complex? (value : Value) : Option Complex := do
  let re ← (← value.member? "real").float?
  let im ← (← value.member? "imag").float?
  return ⟨re, im⟩

def fault? (value : Value) : Option Fault := do
  let kind ← FaultKind.ofName? (← (← value.member? "kind").text?)
  let message ← (← value.member? "message").text?
  let position ← (← value.member? "position").integer?
  return ⟨kind, message, position⟩

/-- The record gives the text, the verdict, and either the number or the fault. -/
structure Describes (record : Value) (text : String) (result : Except Fault Complex) : Prop where
  expression : record.member? "expression" = some (.text text)
  verdict : record.member? "verdict" = some (.text (if result.isOk then "ok" else "error"))
  value : ∀ z, result = .ok z → (record.member? "value").bind complex? = some z ∧ record.member? "error" = none
  error : ∀ f, result = .error f → (record.member? "error").bind fault? = some f ∧ record.member? "value" = none

end Json.Value

/-! ## One record -/

open Json (Value)

theorem Json.finite_ofFloat (x : Float) : (Json.ofFloat x).Finite := by
  rw [Json.ofFloat]
  split
  · rename_i hFinite
    exact .float hFinite
  · exact .text _

/-- A number is read back exactly, with the sign of a zero and also if it is not finite. -/
theorem Json.float?_ofFloat (x : Float) : (Json.ofFloat x).meaning.float? = some x := by
  rw [Json.ofFloat]
  split
  · rename_i hFinite
    exact float?_numeral hFinite
  · rename_i hFinite
    exact float?_word (Bool.not_eq_true _ ▸ hFinite)

theorem Number.finite_record (a : Number) : a.record.Finite :=
  .object (by simp [Json.finite_ofFloat])

theorem Number.complex?_record (a : Number) : a.record.meaning.complex? = some a.toComplex := by
  simp [Number.record, Json.meaning, Json.memberMeanings, Value.complex?, Value.member?, Json.float?_ofFloat,
    Number.re, Number.im]

theorem Json.integer?_integer (n : Int) : (Json.integer n).meaning.integer? = some n := by
  have hSign : (if decide (n < 0) then -(n.natAbs : Int) else (n.natAbs : Int)) = n := by
    simp only [decide_eq_true_eq]
    split <;> omega
  exact congrArg some hSign

theorem Fault.finite_record (f : Fault) : f.record.Finite := by
  refine .object ?_
  simp only [List.forall_mem_cons, List.not_mem_nil, false_implies, implies_true, and_true]
  exact ⟨.text _, .text _, .integer _⟩

theorem Fault.fault?_record (f : Fault) : f.record.meaning.fault? = some f := by
  have hPosition := Json.integer?_integer f.position
  rw [Json.meaning] at hPosition
  simp [Fault.record, Json.meaning, Json.memberMeanings, Value.fault?, Value.member?, Value.text?,
    FaultKind.ofName?_name, hPosition]

namespace Outcome

theorem finite_record (o : Outcome) : o.record.Finite := by
  refine .object ?_
  simp only [List.forall_mem_cons, List.not_mem_nil, false_implies, implies_true, and_true]
  refine ⟨.text _, .text _, ?_⟩
  cases o.result with
  | ok a => exact a.finite_record
  | error f => exact f.finite_record

theorem describes_record (o : Outcome) : o.record.meaning.Describes o.text (o.result.map Number.toComplex) := by
  obtain ⟨text, result⟩ := o
  cases result with
  | ok a =>
    refine ⟨rfl, rfl, ?_, nofun⟩
    rintro z ⟨⟩
    exact ⟨a.complex?_record, rfl⟩
  | error f =>
    refine ⟨rfl, rfl, nofun, ?_⟩
    rintro _ ⟨⟩
    exact ⟨f.fault?_record, rfl⟩

end Outcome

/-! ## All records -/

theorem Outcome.verdict_record (o : Outcome) :
    o.record.meaning.member? "verdict" = some (.text "ok") ↔ o.ok = true := by
  have hOk : (o.result.map Number.toComplex).isOk = o.ok := by
    obtain ⟨text, result⟩ := o
    cases result <;> rfl
  rw [o.describes_record.verdict, hOk]
  cases o.ok <;> simp

namespace CommandLine

variable {s : Settings} {texts : List String}

/-- The texts are evaluated in order, and none may be without an outcome. -/
theorem outcomes_eq_iff [Interpreter] {os : List Outcome} : outcomes s texts = (os, none) ↔
    List.Forall₂ (fun text o => evaluate s text = .ok o) texts os := by
  induction texts generalizing os with
  | nil => simp [outcomes, eq_comm]
  | cons text texts ih =>
    rw [outcomes, List.forall₂_cons_left_iff]
    cases evaluate s text with
    | error i => simp
    | ok o =>
      simp only [← ih, Prod.ext_iff]
      constructor
      · rintro ⟨rfl, hNone⟩
        exact ⟨o, _, rfl, ⟨rfl, hNone⟩, rfl⟩
      · rintro ⟨_, _, hSame, ⟨rfl, hNone⟩, rfl⟩
        cases hSame
        exact ⟨rfl, hNone⟩

theorem exists_outcomes [Interpreter] (h : ∀ text ∈ texts, ∃ o, evaluate s text = .ok o) :
    ∃ os, List.Forall₂ (fun text o => evaluate s text = .ok o) texts os := by
  induction texts with
  | nil => exact ⟨[], .nil⟩
  | cons text texts ih =>
    obtain ⟨⟨o, hOutcome⟩, hLater⟩ := List.forall_mem_cons.mp h
    obtain ⟨os, hEach⟩ := ih hLater
    exact ⟨o :: os, .cons hOutcome hEach⟩

/-- The answer is not cut short, and its output is the ASCII text of a document whose numbers are finite. It is
    read as an array with a record for each text, in order, that describes what came of it, and the exit code
    tells whether all verdicts are good. -/
structure PrintsRecords [Interpreter] (s : Settings) (texts : List String) (a : Answer) : Prop where
  complete : a.abort = none
  finite : ∃ document : Json, document.Finite ∧ a.output = document.print ++ "\n"
  ascii : a.output.toList.all Json.isAscii = true
  records : ∃ records, Json.read? a.output.toList = some (.array records) ∧
    List.Forall₂ (fun text record => ∃ o, evaluate s text = .ok o ∧
      record.Describes text (o.result.map Number.toComplex)) texts records ∧
    (a.exitCode = 0 ↔ ∀ record ∈ records, record.member? "verdict" = some (.text "ok")) ∧
    (a.exitCode = 0 ∨ a.exitCode = 1)

theorem evaluateAll_of_outcomes [Interpreter] {os : List Outcome} (h : outcomes s texts = (os, none)) :
    evaluateAll texts true s =
      { exitCode := if os.all Outcome.ok then 0 else 1
        output := (Json.array (os.map Outcome.record)).print ++ "\n"
        notes := os.flatMap fun o => o.note?.toList } := by
  rw [evaluateAll, h]
  rfl

theorem printsRecords_evaluateAll [Interpreter] (h : ∀ text ∈ texts, ∃ o, evaluate s text = .ok o) :
    PrintsRecords s texts (evaluateAll texts true s) := by
  obtain ⟨os, hEach⟩ := exists_outcomes h
  have hFinite : (Json.array (os.map Outcome.record)).Finite := by
    refine .array fun item hMember => ?_
    obtain ⟨o, -, rfl⟩ := List.mem_map.mp hMember
    exact o.finite_record
  have hMeaning : (Json.array (os.map Outcome.record)).meaning =
      .array (os.map fun o => o.record.meaning) := by
    rw [Json.meaning, Json.meanings_eq_map, List.map_map]
    rfl
  rw [evaluateAll_of_outcomes (outcomes_eq_iff.mpr hEach)]
  refine ⟨rfl, ⟨_, hFinite, rfl⟩, Json.ascii_print hFinite, os.map fun o => o.record.meaning,
    (Json.read?_print hFinite).trans (congrArg some hMeaning), ?_, ?_, ?_⟩
  · refine List.forall₂_map_right_iff.mpr (hEach.imp fun text o hOutcome => ⟨o, hOutcome, ?_⟩)
    exact text_of_evaluate hOutcome ▸ o.describes_record
  · dsimp only
    rw [List.forall_mem_map]
    simp only [Outcome.verdict_record]
    rw [← List.all_eq_true]
    split <;> simp [*]
  · dsimp only
    split
    · exact .inl rfl
    · exact .inr rfl

/-- The log that a command writes beside its output leaves the records alone. -/
theorem PrintsRecords.withSettings [Interpreter] {env : Environment} {p : Preferences} {act : Settings → Answer}
    {warnings : List String} (h : PrintsRecords s texts (act s)) (hSettings : settings env p = .ok (s, warnings)) :
    PrintsRecords s texts (withSettings env p act) := by
  rw [CommandLine.withSettings, hSettings]
  exact ⟨h.complete, h.finite, h.ascii, h.records⟩

/-- Records are printed under all settings that give every text an outcome, and so by every command that the
    environment and the preferences give these settings. -/
theorem prints_records [Interpreter] (s : Settings) (texts : List String)
    (h : ∀ text ∈ texts, ∃ o, evaluate s text = .ok o) :
    PrintsRecords s texts (evaluateAll texts true s) ∧
      ∀ env input p warnings, settings env p = .ok (s, warnings) →
        PrintsRecords s texts (answer env input (.evaluate texts true p)) := by
  have hAll := printsRecords_evaluateAll h
  exact ⟨hAll, fun _ _ _ _ hSettings => hAll.withSettings hSettings⟩

/-- A negative zero, an infinity and a fault at a character beyond the first plane. -/
theorem prints_records_negative_zero :
    (∀ text ∈ ["0/-5", "1e400", "😀"], ∃ o, evaluate { mode := .real } text = .ok o) ∧
      settings (fun _ => none) ⟨some "real", none, false⟩ = .ok ({ mode := .real }, []) ∧
      PrintsRecords { mode := .real } ["0/-5", "1e400", "😀"]
        (answer (fun _ => none) "" (.evaluate ["0/-5", "1e400", "😀"] true ⟨some "real", none, false⟩)) := by
  have hZero : evaluate { mode := .real } "0/-5" = .ok ⟨"0/-5", .ok (.real (-0.0))⟩ := by decide +kernel
  have hInfinite : evaluate { mode := .real } "1e400" = .ok ⟨"1e400", .ok (.real Binary64.infinity)⟩ := by
    decide +kernel
  have hFault : evaluate { mode := .real } "😀" = .ok ⟨"😀", .error ((Cause.unexpected '😀').fault 0)⟩ := by
    decide +kernel
  have hEach : ∀ text ∈ ["0/-5", "1e400", "😀"], ∃ o, evaluate { mode := .real } text = .ok o := by
    simp only [List.forall_mem_cons, List.not_mem_nil, false_implies, implies_true, and_true]
    exact ⟨⟨_, hZero⟩, ⟨_, hInfinite⟩, ⟨_, hFault⟩⟩
  have hSettings : settings (fun _ => none) ⟨some "real", none, false⟩ = .ok ({ mode := .real }, []) := by
    rfl
  exact ⟨hEach, hSettings, (prints_records _ _ hEach).2 _ "" _ _ hSettings⟩

end CommandLine
end Reckon
