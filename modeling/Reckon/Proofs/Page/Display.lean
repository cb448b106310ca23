import Reckon.Proofs.Causes
import Reckon.Proofs.Page.Line
import Reckon.Proofs.Expression.Vocabulary

/-! # Results are plain lines

What is shown of an outcome holds no controls and does not end in a blank, whatever stood in the text: numbers
are written in digits and letters, and a message quotes what cannot be printed.
-/
namespace Reckon
set_option autoImplicit false
open Text (isBlank isPrintable)

namespace Page

/-! ## Characters that leave ink -/

def isSolid (c : Char) : Bool := 33 ≤ c.toNat && c.toNat ≤ 126

def Solid (text : List Char) : Prop := ∀ c ∈ text, isSolid c = true

variable {text more : List Char} {c : Char}

theorem isBlank_of_isSolid (h : isSolid c = true) : isBlank c = false := by
  simp only [isSolid, Bool.and_eq_true, decide_eq_true_eq] at h
  simp only [isBlank, Bool.or_eq_false_iff, Bool.and_eq_false_iff, decide_eq_false_iff_not, beq_eq_false_iff_ne]
  omega

theorem isSolid_of_isDigit (h : c.isDigit = true) : isSolid c = true := by
  simp only [Char.isDigit, Bool.and_eq_true, decide_eq_true_eq, ge_iff_le, UInt32.le_iff_toNat_le] at h
  change 48 ≤ c.toNat ∧ c.toNat ≤ 57 at h
  simp only [isSolid, Bool.and_eq_true, decide_eq_true_eq]
  omega

theorem isSolid_of_isAlpha (h : c.isAlpha = true) : isSolid c = true := by
  simp only [Char.isAlpha, Char.isUpper, Char.isLower, Bool.or_eq_true, Bool.and_eq_true, decide_eq_true_eq,
    ge_iff_le, UInt32.le_iff_toNat_le] at h
  change (65 ≤ c.toNat ∧ c.toNat ≤ 90) ∨ (97 ≤ c.toNat ∧ c.toNat ≤ 122) at h
  simp only [isSolid, Bool.and_eq_true, decide_eq_true_eq]
  omega

theorem solid_of_all (h : text.all isSolid = true) : Solid text := List.all_eq_true.mp h

theorem Solid.cons (hFirst : isSolid c = true) (h : Solid text) : Solid (c :: text) :=
  List.forall_mem_cons.mpr ⟨hFirst, h⟩

theorem Solid.visible (h : Solid text) : Visible text := by
  intro c hMem
  have hSolid := h c hMem
  simp only [isSolid, Bool.and_eq_true, decide_eq_true_eq] at hSolid
  omega

theorem Solid.plain (h : Solid text) : Plain text :=
  ⟨h.visible, fun c hLast => isBlank_of_isSolid (h c (List.mem_of_getLast? hLast))⟩

theorem solid_toDigits (n : Nat) : Solid (Nat.toDigits 10 n) :=
  fun _ hMem => isSolid_of_isDigit (Nat.isDigit_of_mem_toDigits (by decide) (by decide) hMem)

theorem Visible.append (h : Visible text) (hMore : Visible more) : Visible (text ++ more) :=
  List.forall_mem_append.mpr ⟨h, hMore⟩

theorem Visible.cons (hFirst : 32 ≤ c.toNat) (h : Visible text) : Visible (c :: text) :=
  List.forall_mem_cons.mpr ⟨hFirst, h⟩

/-- A plain text that is not empty, so that it can stand behind any visible one. -/
structure Ending (text : List Char) : Prop extends Plain text where
  nonempty : text ≠ []

theorem Ending.after (h : Ending more) (hText : Visible text) : Ending (text ++ more) := by
  refine ⟨⟨hText.append h.visible, fun c hLast => h.last c ?_⟩, List.append_ne_nil_of_right_ne_nil _ h.nonempty⟩
  rwa [List.getLast?_append_of_ne_nil _ h.nonempty] at hLast

theorem Solid.ending (h : Solid text) (hSome : text ≠ []) : Ending text := ⟨h.plain, hSome⟩

theorem visible_of_all (h : text.all (32 ≤ ·.toNat) = true) : Visible text :=
  fun c hMem => of_decide_eq_true (List.all_eq_true.mp h c hMem)

/-- A text that is known letter by letter ends in its last one. -/
theorem ending_of_all (h : text.all (32 ≤ ·.toNat) = true) (hLast : text.getLast?.any isSolid = true) :
    Ending text := by
  cases hText : text.getLast? with
  | none =>
    rw [hText] at hLast
    cases hLast
  | some c =>
    rw [hText] at hLast
    refine ⟨⟨visible_of_all h, fun d hMem => ?_⟩, ?_⟩
    · cases hText.symm.trans hMem
      exact isBlank_of_isSolid hLast
    · rintro rfl
      cases hText

end Page

open Page

/-! ## Numbers -/

/-- The characters that numbers are shown with. -/
def isFigure (c : Char) : Bool := c.isDigit || ".e+-infa".toList.contains c

theorem isSolid_of_isFigure {c : Char} (h : isFigure c = true) : isSolid c = true := by
  have hMarks : Solid ".e+-infa".toList := solid_of_all rfl
  rcases (Bool.or_eq_true _ _).mp h with hDigit | hMark
  · exact isSolid_of_isDigit hDigit
  · exact hMarks c (List.contains_iff_mem.mp hMark)

def Figures (text : List Char) : Prop := ∀ c ∈ text, isFigure c = true

section Figures

variable {text more : List Char} {c : Char}

theorem figures_of_all (h : text.all isFigure = true) : Figures text := List.all_eq_true.mp h

theorem Figures.append (h : Figures text) (hMore : Figures more) : Figures (text ++ more) :=
  List.forall_mem_append.mpr ⟨h, hMore⟩

theorem Figures.cons (hFirst : isFigure c = true) (h : Figures text) : Figures (c :: text) :=
  List.forall_mem_cons.mpr ⟨hFirst, h⟩

theorem figures_toDigits (n : Nat) : Figures (Nat.toDigits 10 n) := fun _ hMem => by
  have hDigit := Nat.isDigit_of_mem_toDigits (by decide) (by decide) hMem
  rw [isFigure, hDigit, Bool.true_or]

end Figures

namespace Decimal

variable {digits : List Char}

theorem figures_significant (d : Decimal) : Figures d.significant := by
  unfold significant
  split
  · exact figures_of_all rfl
  · intro c hMem
    have hStripped := List.mem_reverse.mp hMem
    exact figures_toDigits d.coefficient c (List.mem_reverse.mp ((List.dropWhile_sublist _).subset hStripped))

theorem figures_exponentText (power : Int) : Figures (exponentText power) := by
  have hDigits := figures_toDigits power.natAbs
  unfold exponentText
  refine Figures.cons ?_ ?_
  · split <;> rfl
  · split
    · exact hDigits.cons rfl
    · exact hDigits

theorem figures_withExponent (h : Figures digits) (power : Int) : Figures (withExponent digits power) := by
  unfold withExponent
  refine Figures.append ?_ ((figures_exponentText power).cons rfl)
  split
  · exact h
  · exact h
  · rename_i d more _
    have hMore : Figures more := fun c hMem => h c (List.mem_cons_of_mem d hMem)
    exact (hMore.cons rfl).cons (h d List.mem_cons_self)

theorem figures_zeros (count : Nat) : Figures (List.replicate count '0') := by
  intro c hMem
  rw [List.eq_of_mem_replicate hMem]
  rfl

theorem figures_positional (h : Figures digits) (decade : Int) : Figures (positional digits decade []) := by
  unfold positional
  split
  · exact (((figures_zeros _).append h).cons rfl).cons rfl
  · split
    · exact (h.append (figures_zeros _)).append nofun
    · have hFront : Figures (digits.take decade.toNat) := fun c hMem => h c (List.mem_of_mem_take hMem)
      have hBack : Figures (digits.drop decade.toNat) := fun c hMem => h c (List.mem_of_mem_drop hMem)
      exact hFront.append (hBack.cons rfl)

theorem figures_general (x : Float) : Figures (general x).toList := by
  have hMagnitude : Figures (adaptive 6 [] (rounded 6 x)) := by
    unfold adaptive
    split
    · exact figures_positional (figures_significant _) _
    · exact figures_withExponent (figures_significant _) _
  have hInfinity : Figures ['i', 'n', 'f'] := figures_of_all rfl
  have hZero : Figures ['0'] := figures_of_all rfl
  unfold general signed
  split
  · exact figures_of_all rfl
  · dsimp only
    rw [String.toList_ofList]
    split
    · refine Figures.cons rfl ?_
      split
      · exact hInfinity
      · split
        · exact hZero
        · exact hMagnitude
    · split
      · exact hInfinity
      · split
        · exact hZero
        · exact hMagnitude

end Decimal

theorem Number.figures_display (epsilon : Float) (a : Number) : Figures (a.display epsilon).toList := by
  cases a with
  | real x => exact Decimal.figures_general x
  | complex z =>
    rw [display]
    split
    · exact Decimal.figures_general z.re
    · have hSign : Figures (if z.im < 0 then "-" else "+").toList := by
        split <;> exact figures_of_all rfl
      have hUnit : Figures "i".toList := figures_of_all rfl
      rw [String.toList_append, String.toList_append, String.toList_append]
      exact (((Decimal.figures_general z.re).append hSign).append (Decimal.figures_general z.im.abs)).append hUnit

theorem Number.solid_display (epsilon : Float) (a : Number) : Solid (a.display epsilon).toList :=
  fun c hMem => isSolid_of_isFigure (a.figures_display epsilon c hMem)

/-! ## Quoted characters -/

namespace Page

variable {c : Char}

theorem visible_of_isPrintable (h : isPrintable c = true) : 32 ≤ c.toNat := by
  by_contra hControl
  have hFirst : (0x0, 0x1f) ∈ Text.unprintable := by
    unfold Text.unprintable
    exact List.mem_cons_self
  have hWithin : Text.within Text.unprintable c = true := by
    refine List.any_eq_true.mpr ⟨(0x0, 0x1f), hFirst, ?_⟩
    simp only [Bool.and_eq_true, decide_eq_true_eq]
    omega
  rw [isPrintable, hWithin] at h
  cases h

theorem forall_hexadecimal {p : Char → Prop} (h : ∀ d < 16, p d.digitChar) (width n : Nat) :
    ∀ c ∈ Text.hexadecimal width n, p c := by
  have hDigits : ∀ c ∈ Nat.toDigits 16 n, p c := by
    induction n using Nat.strongRecOn with
    | ind n ih =>
      by_cases hSmall : n < 16
      · rw [Nat.toDigits_of_lt_base hSmall]
        exact List.forall_mem_singleton.mpr (h n hSmall)
      · rw [Nat.toDigits_of_base_le (by decide) (by omega)]
        refine List.forall_mem_append.mpr ⟨ih (n / 16) (by omega), List.forall_mem_singleton.mpr ?_⟩
        exact h _ (Nat.mod_lt _ (by decide))
  have hZeros : ∀ c ∈ List.replicate (width - (Nat.toDigits 16 n).length) '0', p c := by
    intro c hMem
    rw [List.eq_of_mem_replicate hMem]
    exact h 0 (by decide)
  exact List.forall_mem_append.mpr ⟨hZeros, hDigits⟩

theorem visible_hexadecimal (width n : Nat) : Visible (Text.hexadecimal width n) :=
  forall_hexadecimal (by decide) width n

/-- In quotes a character stands behind a backslash, as it is, or as its code behind a letter. -/
theorem escaped_cases (mark c : Char) :
    (∃ d ∈ [mark, '\\', 'n', 'r', 't'], Text.escaped mark c = ['\\', d]) ∨
    (isPrintable c = true ∧ c ≠ '\\' ∧ Text.escaped mark c = [c]) ∨
    ∃ letter ∈ ['x', 'u', 'U'], ∃ width,
      Text.escaped mark c = '\\' :: letter :: Text.hexadecimal width c.toNat := by
  unfold Text.escaped
  split
  · rename_i hEscaped
    rw [Bool.or_eq_true, beq_iff_eq, beq_iff_eq] at hEscaped
    exact .inl ⟨c, by rcases hEscaped with rfl | rfl <;> simp, rfl⟩
  · rename_i hEscaped
    have hSlash : c ≠ '\\' := fun hSlash => hEscaped (by simp [hSlash])
    split
    · exact .inl ⟨'n', by simp, rfl⟩
    split
    · exact .inl ⟨'r', by simp, rfl⟩
    split
    · exact .inl ⟨'t', by simp, rfl⟩
    split
    · rename_i hPrintable
      exact .inr (.inl ⟨hPrintable, hSlash, rfl⟩)
    split
    · exact .inr (.inr ⟨'x', by simp, 2, rfl⟩)
    split
    · exact .inr (.inr ⟨'u', by simp, 4, rfl⟩)
    · exact .inr (.inr ⟨'U', by simp, 8, rfl⟩)

/-- What cannot be printed is escaped. -/
theorem visible_escaped (mark : Char) (c : Char) (hMark : 32 ≤ mark.toNat) :
    Visible (Text.escaped mark c) := by
  have hSlash {text : List Char} (h : Visible text) : Visible ('\\' :: text) := Visible.cons (by decide) h
  rcases escaped_cases mark c with ⟨d, hMember, hEscaped⟩ | ⟨hPrintable, -, hEscaped⟩ |
    ⟨letter, hMember, width, hEscaped⟩
  · rw [hEscaped]
    have hLetters : Visible ['\\', 'n', 'r', 't'] := visible_of_all rfl
    exact hSlash (Visible.cons ((hLetters.cons hMark) d hMember) nofun)
  · rw [hEscaped]
    exact Visible.cons (visible_of_isPrintable hPrintable) nofun
  · rw [hEscaped]
    have hLetters : Visible ['x', 'u', 'U'] := visible_of_all rfl
    exact hSlash (Visible.cons (hLetters letter hMember) (visible_hexadecimal width c.toNat))

theorem ending_quoted (text : List Char) : Ending (Text.quoted text) := by
  have hMark : isSolid (Text.quoteMark text) = true := by
    unfold Text.quoteMark
    split <;> rfl
  have hLast : Ending [Text.quoteMark text] := Solid.ending (Solid.cons hMark nofun) (List.cons_ne_nil _ _)
  have hVisible := hLast.visible _ List.mem_cons_self
  have hEscaped : Visible (text.flatMap (Text.escaped (Text.quoteMark text))) := by
    intro c hMem
    obtain ⟨d, -, hThere⟩ := List.mem_flatMap.mp hMem
    exact visible_escaped _ d hVisible c hThere
  exact hLast.after (hEscaped.cons hVisible)

end Page

/-! ## Faults -/

theorem Builtin.visible_name (f : Builtin) : Visible f.name.toList := by
  cases f with
  | root => exact (solid_of_all rfl).visible
  | unary f => cases f <;> exact (solid_of_all rfl).visible

theorem Calculation.visible_name (during : Calculation) : Visible during.name.toList := by
  cases during with
  | function f => exact Builtin.visible_name (.unary f)
  | division | integerDivision | power | factorial => exact visible_of_all rfl

theorem ending_toString (n : Nat) : Ending (toString n).toList := by
  rw [Nat.toString_eq_repr, Nat.repr_eq_ofList_toDigits, String.toList_ofList]
  exact (solid_toDigits n).ending Nat.toDigits_ne_nil

theorem visible_toString (limit : Int) : Visible (toString limit).toList := by
  cases limit with
  | ofNat n => exact (ending_toString n).visible
  | negSucc n =>
    change Visible ("-" ++ (n + 1).repr).toList
    rw [String.toList_append, ← Nat.toString_eq_repr]
    exact Visible.append (visible_of_all rfl) (ending_toString (n + 1)).visible

namespace Cause

theorem visible_word {name : String} (h : ∀ l ∈ name.toList, l.isAlpha = true) : Visible name.toList :=
  Solid.visible fun l hMem => isSolid_of_isAlpha (h l hMem)

theorem ending_quotedChar (c : Char) : Ending (quotedChar c).toList := by
  rw [quotedChar, String.toList_ofList]
  exact ending_quoted [c]

theorem ending_message {cause : Cause} (h : cause.Spelled) : Ending cause.message.toList := by
  cases cause with
  | mishap during m =>
    have hNamed {text : String} (hText : Ending text.toList) : Ending (during.name ++ text).toList := by
      rw [String.toList_append]
      exact hText.after during.visible_name
    cases m with
    | zeroDivision | outOfRange | outOfDomain => exact hNamed (ending_of_all rfl rfl)
  | unknownFunction name =>
    change Ending ("unknown function '" ++ name ++ "'").toList
    rw [String.toList_append, String.toList_append]
    exact Ending.after (ending_of_all rfl rfl) (Visible.append (visible_of_all rfl) (visible_word h))
  | unknownIdentifier name =>
    change Ending ("unknown identifier '" ++ name ++ "'").toList
    rw [String.toList_append, String.toList_append]
    exact Ending.after (ending_of_all rfl rfl) (Visible.append (visible_of_all rfl) (visible_word h))
  | arityMismatch f given =>
    change Ending (f.name ++ "() takes " ++ toString f.arity ++ " argument(s), got " ++ toString given).toList
    rw [String.toList_append, String.toList_append, String.toList_append, String.toList_append]
    refine (ending_toString given).after ?_
    exact Visible.append (Visible.append (Visible.append f.visible_name (visible_of_all rfl))
      (ending_toString f.arity).visible) (visible_of_all rfl)
  | openBracket b => cases b <;> exact ending_of_all rfl rfl
  | openArguments f =>
    change Ending ("expected ')' to close the arguments of " ++ f.name ++ "()").toList
    rw [String.toList_append, String.toList_append]
    exact Ending.after (ending_of_all rfl rfl) (Visible.append (visible_of_all rfl) f.visible_name)
  | unexpected c =>
    change Ending ("unexpected character " ++ quotedChar c).toList
    rw [String.toList_append]
    exact (ending_quotedChar c).after (visible_of_all rfl)
  | trailing c =>
    change Ending ("unexpected " ++ quotedChar c ++ " after a complete expression").toList
    rw [String.toList_append, String.toList_append]
    exact Ending.after (ending_of_all rfl rfl)
      (Visible.append (visible_of_all rfl) (ending_quotedChar c).visible)
  | tooDeep limit =>
    change Ending ("expression nested deeper than " ++ toString limit ++ " levels").toList
    rw [String.toList_append, String.toList_append]
    exact Ending.after (ending_of_all rfl rfl) (Visible.append (visible_of_all rfl) (visible_toString limit))
  | divisionByZero | integerDivisionByZero | noRealPart | invalidFactorial | notReal | endOfInput | lonePoint
  | beyondReach => exact ending_of_all rfl rfl

end Cause

theorem Cause.plain_describe {cause : Cause} (h : cause.Spelled) (position : Nat) :
    Plain ("Error: " ++ (cause.fault position).describe).toList := by
  have hKind : Visible cause.kind.name.toList := by
    cases cause.kind <;> exact visible_of_all rfl
  have hColon : Visible ": ".toList := visible_of_all rfl
  have hError : Visible "Error: ".toList := visible_of_all rfl
  change Plain ("Error: " ++ (cause.kind.name ++ ": " ++ cause.message)).toList
  rw [String.toList_append, String.toList_append, String.toList_append]
  exact (((ending_message h).after (hKind.append hColon)).after hError).toPlain

/-- Whatever the text was, its outcome is shown as a plain line. -/
theorem plain_display [Interpreter] {settings : Settings} {text : String} {o : Outcome}
    (h : evaluate settings text = .ok o) : Plain (o.display settings.epsilon).toList := by
  unfold evaluate at h
  split at h
  · rename_i value _
    cases h
    exact (Number.solid_display settings.epsilon value).plain
  · rename_i cause position reached hValue
    cases h
    exact Cause.plain_describe (Expression.spelled_of_value hValue) position
  · cases h

end Reckon
