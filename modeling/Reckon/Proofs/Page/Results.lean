import Reckon.Proofs.Expression.Characters
import Reckon.Proofs.Page.Display
import Reckon.Proofs.Page.Markup
import Reckon.Proofs.Recognition

/-! # Tables of results show texts as they are

Each outcome has a row, and its cells read as the text, the result or the message, and the verdict, whatever brackets
stand in them. Messages quote at most one character of a text, and hold too few colons for a code.
-/
namespace Reckon
set_option autoImplicit false
open Page Report
open Text (isBlank)

/-! ## Messages -/

namespace Page

/-- No backslash of the text is taken for one of markup, and there are not many colons. -/
structure Calm (colons : Nat) (text : List Char) : Prop where
  guarded : guarded text = true
  colons : text.count ':' ≤ colons

variable {text more : List Char} {m n : Nat}

theorem Calm.append (h : Calm m text) (hMore : Calm n more) : Calm (m + n) (text ++ more) := by
  refine ⟨guarded_append h.guarded hMore.guarded, ?_⟩
  rw [List.count_append]
  exact Nat.add_le_add h.colons hMore.colons

theorem calm_of_forall (h : ∀ c ∈ text, c ≠ '\\' ∧ c ≠ ':') : Calm 0 text := by
  refine ⟨guarded_of_not_mem fun hSlash => (h _ hSlash).1 rfl, ?_⟩
  rw [List.count_eq_zero.mpr fun hColon => (h _ hColon).2 rfl]

theorem calm_word {name : String} (h : ∀ l ∈ name.toList, l.isAlpha = true) : Calm 0 name.toList := by
  refine calm_of_forall fun l hMember => ⟨?_, ?_⟩
  · rintro rfl
    cases h _ hMember
  · rintro rfl
    cases h _ hMember

theorem calm_figures (h : Figures text) : Calm 0 text := by
  refine calm_of_forall fun c hMember => ⟨?_, ?_⟩
  · rintro rfl
    cases h _ hMember
  · rintro rfl
    cases h _ hMember

theorem figures_natToString (n : Nat) : Figures (toString n).toList := by
  rw [Nat.toString_eq_repr, Nat.repr_eq_ofList_toDigits, String.toList_ofList]
  exact figures_toDigits n

theorem figures_toString (limit : Int) : Figures (toString limit).toList := by
  cases limit with
  | ofNat n => exact figures_natToString n
  | negSucc n =>
    change Figures ("-" ++ (n + 1).repr).toList
    rw [String.toList_append, ← Nat.toString_eq_repr]
    exact Figures.append (figures_of_all rfl) (figures_natToString (n + 1))

theorem calm_hexadecimal (width n : Nat) : Calm 0 (Text.hexadecimal width n) :=
  calm_of_forall (forall_hexadecimal (by decide) width n)

/-- A backslash stands only before the quote, itself and letters. -/
theorem calm_escaped {mark : Char} (hMark : mark = '"' ∨ mark = '\'') (c : Char) :
    Calm 1 (Text.escaped mark c ++ [mark]) := by
  have hPair {d : Char} (hBracket : d ≠ '[') (hColon : d ≠ ':') : Calm 1 (['\\', d] ++ [mark]) := by
    rcases hMark with rfl | rfl
    · exact ⟨by simp [guarded, hBracket], by simp [hColon]⟩
    · exact ⟨by simp [guarded, hBracket], by simp [hColon]⟩
  have hLast : Calm 0 [mark] := by rcases hMark with rfl | rfl <;> exact ⟨rfl, by decide⟩
  have hCode {letter : Char} (hBracket : letter ≠ '[') (hSlash : letter ≠ '\\') (width n : Nat) :
      Calm 1 ('\\' :: letter :: Text.hexadecimal width n ++ [mark]) := by
    have hFront : Calm 1 ['\\', letter] :=
      ⟨by simp [guarded, hBracket, hSlash], by simpa using List.count_le_length (l := [letter])⟩
    exact (hFront.append (calm_hexadecimal width n)).append hLast
  rcases escaped_cases mark c with ⟨d, hMember, hEscaped⟩ | ⟨-, hSlash, hEscaped⟩ |
    ⟨letter, hMember, width, hEscaped⟩
  · rw [hEscaped]
    simp only [List.mem_cons, List.not_mem_nil, or_false] at hMember
    rcases hMember with rfl | rfl | rfl | rfl | rfl
    · rcases hMark with rfl | rfl <;> exact hPair (by decide) (by decide)
    all_goals exact hPair (by decide) (by decide)
  · rw [hEscaped]
    have hHere : Calm 1 [c] := ⟨guarded_of_not_mem (by simpa using hSlash.symm), List.count_le_length⟩
    exact hHere.append hLast
  · rw [hEscaped]
    simp only [List.mem_cons, List.not_mem_nil, or_false] at hMember
    rcases hMember with rfl | rfl | rfl <;> exact hCode (by decide) (by decide) _ _

theorem calm_quotedChar (c : Char) : Calm 1 (Cause.quotedChar c).toList := by
  have hMark : Text.quoteMark [c] = '"' ∨ Text.quoteMark [c] = '\'' := by
    unfold Text.quoteMark
    split
    · exact .inl rfl
    · exact .inr rfl
  have hFirst : Calm 0 [Text.quoteMark [c]] := by rcases hMark with h | h <;> rw [h] <;> exact ⟨rfl, by decide⟩
  rw [Cause.quotedChar, String.toList_ofList, Text.quoted, List.flatMap_singleton]
  exact hFirst.append (calm_escaped hMark c)

end Page

theorem Builtin.calm_name (f : Builtin) : Calm 0 f.name.toList := by
  cases f with
  | root => exact ⟨rfl, by decide⟩
  | unary f => cases f <;> exact ⟨rfl, by decide⟩

theorem Calculation.calm_name (during : Calculation) : Calm 0 during.name.toList := by
  cases during with
  | function f => exact Builtin.calm_name (.unary f)
  | division | integerDivision | power | factorial => exact ⟨rfl, by decide⟩

theorem Cause.calm_message {cause : Cause} (h : cause.Spelled) : Calm 1 cause.message.toList := by
  cases cause with
  | mishap during m =>
    have hNamed {text : String} (hText : Calm 1 text.toList) : Calm 1 (during.name ++ text).toList := by
      rw [String.toList_append]
      exact during.calm_name.append hText
    cases m with
    | zeroDivision | outOfRange | outOfDomain => exact hNamed ⟨rfl, by decide⟩
  | unknownFunction name =>
    have hFront : Calm 0 "unknown function '".toList := ⟨rfl, by decide⟩
    have hBack : Calm 1 "'".toList := ⟨rfl, by decide⟩
    change Calm 1 ("unknown function '" ++ name ++ "'").toList
    rw [String.toList_append, String.toList_append]
    exact (hFront.append (calm_word h)).append hBack
  | unknownIdentifier name =>
    have hFront : Calm 0 "unknown identifier '".toList := ⟨rfl, by decide⟩
    have hBack : Calm 1 "'".toList := ⟨rfl, by decide⟩
    change Calm 1 ("unknown identifier '" ++ name ++ "'").toList
    rw [String.toList_append, String.toList_append]
    exact (hFront.append (calm_word h)).append hBack
  | arityMismatch f given =>
    have hTakes : Calm 0 "() takes ".toList := ⟨rfl, by decide⟩
    have hGot : Calm 1 " argument(s), got ".toList := ⟨rfl, by decide⟩
    change Calm 1 (f.name ++ "() takes " ++ toString f.arity ++ " argument(s), got " ++ toString given).toList
    rw [String.toList_append, String.toList_append, String.toList_append, String.toList_append]
    have hArity := (f.calm_name.append hTakes).append (calm_figures (figures_natToString f.arity))
    exact (hArity.append hGot).append (calm_figures (figures_natToString given))
  | openBracket b => cases b <;> exact ⟨rfl, by decide⟩
  | openArguments f =>
    have hFront : Calm 0 "expected ')' to close the arguments of ".toList := ⟨rfl, by decide⟩
    have hBack : Calm 1 "()".toList := ⟨rfl, by decide⟩
    change Calm 1 ("expected ')' to close the arguments of " ++ f.name ++ "()").toList
    rw [String.toList_append, String.toList_append]
    exact (hFront.append f.calm_name).append hBack
  | unexpected c =>
    have hFront : Calm 0 "unexpected character ".toList := ⟨rfl, by decide⟩
    change Calm 1 ("unexpected character " ++ quotedChar c).toList
    rw [String.toList_append]
    exact hFront.append (calm_quotedChar c)
  | trailing c =>
    have hFront : Calm 0 "unexpected ".toList := ⟨rfl, by decide⟩
    have hBack : Calm 0 " after a complete expression".toList := ⟨rfl, by decide⟩
    change Calm 1 ("unexpected " ++ quotedChar c ++ " after a complete expression").toList
    rw [String.toList_append, String.toList_append]
    exact (hFront.append (calm_quotedChar c)).append hBack
  | tooDeep limit =>
    have hFront : Calm 0 "expression nested deeper than ".toList := ⟨rfl, by decide⟩
    have hBack : Calm 1 " levels".toList := ⟨rfl, by decide⟩
    change Calm 1 ("expression nested deeper than " ++ toString limit ++ " levels").toList
    rw [String.toList_append, String.toList_append]
    exact (hFront.append (calm_figures (figures_toString limit))).append hBack
  | divisionByZero | integerDivisionByZero | noRealPart | invalidFactorial | notReal | endOfInput | lonePoint
  | beyondReach => exact ⟨rfl, by decide⟩

/-! ## Cells -/

namespace Page

variable {emoji : Emoji} {text : List Char} {n : Nat}

/-- The markup reads as the text, on the page and in the cell, and these tags of it are styles. -/
structure Reads (emoji : Emoji) (markup text : List Char) (tags : List (List Char)) : Prop where
  cell : cell markup = text
  shown : emoji.shown markup = .ok text
  styles : styles markup = tags

theorem reads_escape (h : guarded text = true) (hLeaves : emoji.Leaves text) (hVisible : Visible text) :
    Reads emoji (escape text) text [] := by
  have hText := plainText_escape h
  refine ⟨?_, Emoji.shown_eq hText hLeaves hVisible, styles_escape h⟩
  rw [Report.cell, hText]

theorem reads_styled {style text : String} (hTags : Tags style) (h : Calm 1 text.toList)
    (hVisible : Visible text.toList) :
    Reads emoji (styled style text) text.toList [style.toList, '/' :: style.toList] := by
  have hText := plainText_styled hTags h.guarded
  refine ⟨?_, Emoji.shown_eq hText (Emoji.leaves_of_count h.colons) hVisible, styles_styled hTags h.guarded⟩
  rw [Report.cell, hText]

def isControl (c : Char) : Bool := c.toNat < 32 || (127 ≤ c.toNat && c.toNat < 160)

/-- There are no backslashes, no controls and no codes in the text. -/
structure Emoji.Accepts (emoji : Emoji) (text : List Char) : Prop where
  backslash : '\\' ∉ text
  control : ∀ c ∈ text, isControl c = false
  leaves : emoji.Leaves text

theorem Emoji.Accepts.visible (h : emoji.Accepts text) : Visible text := by
  intro c hMember
  have hControl := h.control c hMember
  simp only [isControl, Bool.or_eq_false_iff, decide_eq_false_iff_not] at hControl
  omega

/-- What has a meaning is accepted if all its blanks are spaces. -/
theorem accepts_of_syntactic (h : Expression.Syntactic text) (hBlanks : ∀ c ∈ text, isBlank c = true → c = ' ') :
    emoji.Accepts text := by
  have hInk : ∀ c ∈ text, c = ' ' ∨ isSolid c = true := by
    intro c hMember
    have hSyntax := h c hMember
    have hMarks : Solid "+-/^!%()[]\x7b\x7d,.".toList := solid_of_all rfl
    simp only [Expression.isSyntax, Bool.or_eq_true, or_assoc] at hSyntax
    rcases hSyntax with hBlank | hAlpha | hDigit | hMark
    · exact .inl (hBlanks c hMember hBlank)
    · exact .inr (isSolid_of_isAlpha hAlpha)
    · exact .inr (isSolid_of_isDigit hDigit)
    · exact .inr (hMarks c (List.contains_iff_mem.mp hMark))
  refine ⟨fun hSlash => ?_, fun c hMember => ?_, Emoji.leaves_of_count ?_⟩
  · cases h _ hSlash
  · rcases hInk c hMember with rfl | hSolid
    · rfl
    · simp only [isSolid, Bool.and_eq_true, decide_eq_true_eq] at hSolid
      simp only [isControl, Bool.or_eq_false_iff, Bool.and_eq_false_iff, decide_eq_false_iff_not]
      omega
  · rw [List.count_eq_zero.mpr]
    · exact Nat.zero_le 1
    · intro hColon
      cases h _ hColon

end Page

/-! ## Rows -/

namespace Report

/-- The marked-up cells of a row. -/
def rowMarkup (epsilon : Float) (o : Outcome) : List (List Char) :=
  escape o.text.toList ::
    match o.result with
    | .ok a => [escape (a.display epsilon).toList, styled "green" "ok"]
    | .error f => [styled "red" f.message, styled "red" f.kind.name]

/-- The texts that a row is to show. -/
def verbatimRow (epsilon : Float) (o : Outcome) : List (List Char) :=
  o.text.toList ::
    match o.result with
    | .ok a => [(a.display epsilon).toList, "ok".toList]
    | .error f => [f.message.toList, f.kind.name.toList]

/-- The tags of a row that are styles, cell by cell. -/
def rowStyles (o : Outcome) : List (List (List Char)) :=
  let tags (style : String) := [style.toList, '/' :: style.toList]
  [] ::
    match o.result with
    | .ok _ => [[], tags "green"]
    | .error _ => [tags "red", tags "red"]

theorem resultRow_eq (epsilon : Float) (o : Outcome) : resultRow epsilon o = (rowMarkup epsilon o).map cell := by
  obtain ⟨text, result⟩ := o
  cases result <;> rfl

variable {emoji : Emoji} {epsilon : Float} {o : Outcome}

theorem reads_kind (kind : FaultKind) : Reads emoji (styled "red" kind.name) kind.name.toList
    ["red".toList, '/' :: "red".toList] := by
  refine reads_styled tags_red ?_ ?_
  · cases kind <;> exact ⟨rfl, by decide⟩
  · cases kind <;> exact visible_of_all rfl

theorem reads_row [Interpreter] {settings : Settings} {text : String} (h : evaluate settings text = .ok o)
    (hText : emoji.Accepts o.text.toList) :
    (rowMarkup epsilon o).map cell = verbatimRow epsilon o ∧
      (rowMarkup epsilon o).map emoji.shown = (verbatimRow epsilon o).map .ok ∧
      (rowMarkup epsilon o).map styles = rowStyles o := by
  have hFirst := reads_escape (guarded_of_not_mem hText.backslash) hText.leaves hText.visible
  unfold evaluate at h
  split at h
  · rename_i value _
    cases h
    have hCalm := calm_figures (value.figures_display epsilon)
    have hLeaves : emoji.Leaves _ := Emoji.leaves_of_count (Nat.le_succ_of_le hCalm.colons)
    have hValue := reads_escape hCalm.guarded hLeaves (value.solid_display epsilon).visible
    have hOk : Reads emoji (styled "green" "ok") "ok".toList _ :=
      reads_styled tags_green ⟨rfl, by decide⟩ (visible_of_all rfl)
    simp [rowMarkup, verbatimRow, rowStyles, hFirst.cell, hFirst.shown, hFirst.styles, hValue.cell, hValue.shown,
      hValue.styles, hOk.cell, hOk.shown, hOk.styles]
  · rename_i cause position reached hValue
    cases h
    have hSpelled := Expression.spelled_of_value hValue
    have hMessage : Reads emoji (styled "red" (cause.fault position).message) (cause.fault position).message.toList
        _ :=
      reads_styled tags_red (Cause.calm_message hSpelled) (Cause.ending_message hSpelled).visible
    have hKind : Reads emoji _ _ _ := reads_kind (cause.fault position).kind
    simp [rowMarkup, verbatimRow, rowStyles, hFirst.cell, hFirst.shown, hFirst.styles, hMessage.cell, hMessage.shown,
      hMessage.styles, hKind.cell, hKind.shown, hKind.styles]
  · cases h

/-- A table of results has a row for each outcome. On the page the row reads as the text itself, its result or the
    message of its fault, and the verdict, and no brackets of these are taken for tags. All texts that have a value
    can stand there if their blanks are spaces. -/
theorem results_show_texts [Interpreter] (emoji : Emoji) (epsilon : Float) (os : List Outcome)
    (hOutcomes : ∀ o ∈ os, ∃ settings text, evaluate settings text = .ok o)
    (hTexts : ∀ o ∈ os, emoji.Accepts o.text.toList) :
    (results epsilon os).rows = os.map (verbatimRow epsilon) ∧
      (∀ o ∈ os, resultRow epsilon o = (rowMarkup epsilon o).map cell ∧
        (rowMarkup epsilon o).map emoji.shown = (verbatimRow epsilon o).map .ok ∧
        (rowMarkup epsilon o).map styles = rowStyles o) ∧
      ∀ settings text value, evaluate settings text = .ok ⟨text, .ok value⟩ →
        (∀ c ∈ text.toList, isBlank c = true → c = ' ') → emoji.Accepts text.toList := by
  have hRows : ∀ o ∈ os, (rowMarkup epsilon o).map cell = verbatimRow epsilon o ∧
      (rowMarkup epsilon o).map emoji.shown = (verbatimRow epsilon o).map .ok ∧
      (rowMarkup epsilon o).map styles = rowStyles o := by
    intro o hMember
    obtain ⟨settings, text, hOutcome⟩ := hOutcomes o hMember
    exact reads_row hOutcome (hTexts o hMember)
  refine ⟨List.map_congr_left fun o hMember => ?_,
    fun o hMember => ⟨resultRow_eq epsilon o, (hRows o hMember).2⟩, ?_⟩
  · rw [resultRow_eq, (hRows o hMember).1]
  · intro settings text value hValue hBlanks
    rw [evaluate_value_iff, value_eq_ok_iff] at hValue
    obtain ⟨t, hParses, -, -⟩ := hValue
    exact accepts_of_syntactic hParses.syntactic hBlanks

def replaceSmile : List Char → List Char
  | ':' :: 's' :: 'm' :: 'i' :: 'l' :: 'e' :: ':' :: rest => Char.ofNat 0x1f604 :: replaceSmile rest
  | c :: rest => c :: replaceSmile rest
  | [] => []

/-- A table with a single code. -/
def smile : Emoji where
  isName name := name = "smile".toList
  replace := replaceSmile
  replace_eq text hNone := by
    fun_induction replaceSmile text with
    | case1 rest ih => exact absurd (List.prefix_append ":smile:".toList rest).isInfix (hNone _ rfl)
    | case2 c rest hOther ih =>
      rw [ih fun name hName hInfix => hNone name hName (hInfix.trans (List.suffix_cons c rest).isInfix)]
    | case3 => rfl

theorem results_show_texts_brackets :
    evaluate {} "2x[i]" = .ok ⟨"2x[i]", .ok (.complex ⟨0, 2⟩)⟩ ∧
      evaluate {} "[e+1]x[/pi" = .ok ⟨"[e+1]x[/pi", .error ((Cause.unexpected '/').fault 7)⟩ ∧
      (results defaultEpsilon [⟨"2x[i]", .ok (.complex ⟨0, 2⟩)⟩,
          ⟨"[e+1]x[/pi", .error ((Cause.unexpected '/').fault 7)⟩]).rows =
        [["2x[i]".toList, "0+2i".toList, "ok".toList],
          ["[e+1]x[/pi".toList, "unexpected character '/'".toList, "UnexpectedCharacter".toList]] ∧
      smile.shown (escape "[e+1]x[/pi".toList) = .ok "[e+1]x[/pi".toList := by
  have hUnit : evaluate {} "2x[i]" = .ok ⟨"2x[i]", .ok (.complex ⟨0, 2⟩)⟩ := by decide +kernel
  have hOpen : evaluate {} "[e+1]x[/pi" = .ok ⟨"[e+1]x[/pi", .error ((Cause.unexpected '/').fault 7)⟩ := by
    decide +kernel
  have hDisplay : ((Number.complex ⟨0, 2⟩).display defaultEpsilon).toList = "0+2i".toList := by decide +kernel
  have hMessage : ((Cause.unexpected '/').fault 7).message = "unexpected character '/'" := by decide +kernel
  have hAccepts : ∀ text ∈ ["2x[i]".toList, "[e+1]x[/pi".toList], smile.Accepts text := by
    refine List.forall_mem_cons.mpr ⟨?_, List.forall_mem_singleton.mpr ?_⟩
    · exact ⟨by simp, by simp [isControl], Emoji.leaves_of_count (by simp)⟩
    · exact ⟨by simp, by simp [isControl], Emoji.leaves_of_count (by simp)⟩
  obtain ⟨hRows, hCells, -⟩ := results_show_texts smile defaultEpsilon _
    (List.forall_mem_cons.mpr ⟨⟨_, _, hUnit⟩, List.forall_mem_singleton.mpr ⟨_, _, hOpen⟩⟩)
    (List.forall_mem_cons.mpr ⟨hAccepts _ List.mem_cons_self,
      List.forall_mem_singleton.mpr (hAccepts _ (List.mem_cons_of_mem _ List.mem_cons_self))⟩)
  refine ⟨hUnit, hOpen, ?_, ?_⟩
  · refine hRows.trans ?_
    simp only [List.map_cons, List.map_nil, verbatimRow, hDisplay, hMessage]
    rfl
  · have hShown := (hCells _ (List.mem_cons_of_mem _ List.mem_cons_self)).2.1
    exact (List.cons.inj hShown).1

end Report

end Reckon
