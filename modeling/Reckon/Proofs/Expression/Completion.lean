import Reckon.Proofs.Expression.Stops

/-! # Texts that can be completed

A text that was read as far as some operand is the beginning of an expression: an operand can be put in
and whatever is open can be closed. So is a text in which nothing but a closing bracket is missing.
-/
namespace Reckon.Expression
set_option autoImplicit false
open Text (isBlank)

/-! ## Known names -/

namespace Tree

mutual
/-- Whether every name without a bracket is a constant of the mode and every name with one a function,
    whatever arguments it is given. -/
def named (mode : Mode) : Tree → Bool
  | literal .. => true
  | name word .. => (Constant.ofName? mode word).isSome
  | call word args .. => (Builtin.ofName? word).isSome && allNamed mode args
  | group _ t | factorial _ t _ | percent t _ | negate t _ => t.named mode
  | binary _ a b _ => a.named mode && b.named mode

def allNamed (mode : Mode) : List Tree → Bool
  | [] => true
  | t :: ts => t.named mode && allNamed mode ts
end

mutual
theorem named_of_known {mode : Mode} {t : Tree} (h : t.known mode = true) : t.named mode = true := by
  cases t with
  | literal d next => rfl
  | name word start next => exact h
  | call word args start opening next =>
    rw [known, Bool.and_eq_true, Option.any_eq_true] at h
    obtain ⟨⟨f, hFunction, -⟩, hArguments⟩ := h
    simp [named, hFunction, allNamed_of_allKnown hArguments]
  | group b t => exact named_of_known (t := t) h
  | factorial negated t next | percent t next | negate t next => exact named_of_known (t := t) h
  | binary op a b next =>
    obtain ⟨hLeft, hRight⟩ := Bool.and_eq_true_iff.mp h
    simp [named, named_of_known hLeft, named_of_known hRight]

theorem allNamed_of_allKnown {mode : Mode} {ts : List Tree} (h : allKnown mode ts = true) :
    allNamed mode ts = true := by
  cases ts with
  | nil => rfl
  | cons t ts =>
    obtain ⟨hFirst, hOthers⟩ := Bool.and_eq_true_iff.mp h
    simp [allNamed, named_of_known hFirst, allNamed_of_allKnown hOthers]
end

theorem allNamed_append {mode : Mode} (before after : List Tree) :
    allNamed mode (before ++ after) = (allNamed mode before && allNamed mode after) := by
  induction before with
  | nil => rfl
  | cons t before ih => rw [List.cons_append, allNamed, allNamed, ih, Bool.and_assoc]

theorem named_signed {mode : Mode} (odd : Bool) (t : Tree) (next : Nat) :
    (t.signed odd next).named mode = t.named mode := by
  cases odd <;> rfl

theorem named_of_eval {A : Arithmetic} {t : Tree} {x : Number} (h : t.eval A = .ok x) :
    t.named A.mode = true := named_of_known (known_of_eval h)

theorem allNamed_of_evalAll {A : Arithmetic} {ts : List Tree} {xs : List Number}
    (h : evalAll A ts = .ok xs) : allNamed A.mode ts = true :=
  allNamed_of_allKnown (allKnown_of_evalAll h)

end Tree

/-! ## Completions -/

/-- A closing bracket stands next, or nothing. -/
def Closes (text : List Char) : Prop := ∀ next ∈ text.head?, next ∈ [')', ']', '}']

/-- With `s` for the old ending of the text an expression of the level stands at the cursor, and closing
    brackets may follow it. -/
structure Completes (mode : Mode) (old s : List Char) (level : Level) (c : Cursor) : Prop where
  suffix : old <:+ c.rest
  starts : ∃ first rest, s = first :: rest ∧ first ∈ ['1', ')', ']', '}']
  derives (z : List Char) : Closes z → ∃ t d, Derives level (c.replace old (s ++ z)) t d ∧ d.rest = z ∧
    t.named mode = true

section Completions

variable {mode : Mode} {old s z : List Char} {level upper lower : Level} {c c₁ c₂ : Cursor}

theorem closes_closer (b : Bracket) (z : List Char) : Closes (b.closer :: z) := by
  rintro next ⟨⟩
  cases b <;> decide

theorem replaces_of_starts (hOld : ∀ next ∈ old.head?, isBlank next = false) {first : Char}
    {rest : List Char} (h : first ∈ ['1', ')', ']', '}']) : Replaces old (first :: rest) := by
  have hFirst : isBlank first = false ∧ first.isAlpha = false ∧ first ≠ '(' := by
    simp only [List.mem_cons, List.not_mem_nil, or_false] at h
    rcases h with rfl | rfl | rfl | rfl <;> decide
  refine ⟨?_, .inr ?_, hOld⟩
  · rintro next ⟨⟩
    exact hFirst.1
  · rintro next ⟨⟩
    exact hFirst.2

theorem Completes.lift (h : Completes mode old s lower c)
    (hStep : ∀ c t d, Derives lower c t d → Derives upper c t d) : Completes mode old s upper c := by
  refine ⟨h.suffix, h.starts, fun z hz => ?_⟩
  obtain ⟨t, d, hDerives, hRest, hNamed⟩ := h.derives z hz
  exact ⟨t, d, hStep _ _ _ hDerives, hRest, hNamed⟩

theorem token_of_closer {d : Cursor} {closer : Char} {z : List Char} (hRest : d.rest = closer :: z)
    (hBlank : isBlank closer = false) : d.Token [closer] (d.advance 1) ∧ (d.advance 1).rest = z := by
  have hHere : d.skipBlanks = d := Cursor.skipBlanks_of_head (by simpa [hRest] using hBlank)
  constructor
  · rw [Cursor.Token, hHere, Cursor.rest_advance, hRest]
    exact ⟨rfl, rfl⟩
  · rw [Cursor.rest_advance, hRest]
    rfl

section Endings

variable (hOld : ∀ next ∈ old.head?, isBlank next = false)
include hOld

theorem Completes.replaces (h : Completes mode old s level c) (z : List Char) : Replaces old (s ++ z) := by
  obtain ⟨first, rest, rfl, hFirst⟩ := h.starts
  exact replaces_of_starts hOld hFirst

/-- Behind operands that are complete, up to the token before the cursor, the text may go on as it did. -/
theorem Completes.before (h : Completes mode old s level c₂) {a : Tree} {token : List Char}
    (hLeft : Derives upper c a c₁) (hToken : c₁.Token token c₂)
    (hPast : ∀ {c c' : Cursor}, c.Token token c' → c.Past) (z : List Char) :
    Derives upper (c.replace old (s ++ z)) a (c₁.replace old (s ++ z)) ∧
      (c₁.replace old (s ++ z)).Token token (c₂.replace old (s ++ z)) := by
  have hReplaces := h.replaces hOld z
  have hToken' := hToken.replace hReplaces h.suffix
  exact ⟨hLeft.replace hReplaces (h.suffix.trans hToken.suffix) (hPast hToken'), hToken'⟩

theorem Completes.factor (h : Completes mode old s .primary c₁) {odd : Bool} (hSigns : c.Signs odd c₁) :
    Completes mode old s .factor c := by
  refine ⟨h.suffix.trans hSigns.suffix, h.starts, fun z hz => ?_⟩
  obtain ⟨t, d, hDerives, hRest, hNamed⟩ := h.derives z hz
  have hSigns' := hSigns.replace (h.replaces hOld z) h.suffix
  refine ⟨_, d, .factor hSigns' (.operand odd hDerives), hRest, ?_⟩
  rwa [Tree.named_signed]

theorem Completes.exponent (h : Completes mode old s .power c₂) {a : Tree} (hBase : Derives .factor c a c₁)
    (hNamed : a.named mode = true) (hSign : c₁.Token ['^'] c₂) : Completes mode old s .power c := by
  refine ⟨(h.suffix.trans hSign.suffix).trans hBase.suffix, h.starts, fun z hz => ?_⟩
  obtain ⟨b, d, hDerives, hRest, hNamed'⟩ := h.derives z hz
  obtain ⟨hBase', hSign'⟩ := h.before hOld hBase hSign (fun h => h.past (by decide)) z
  exact ⟨_, d, .power hBase' hSign' hDerives, hRest, by simp [Tree.named, hNamed, hNamed']⟩

theorem Completes.link {operators : List Operator} {operator? : List Char → Option (Operator × Nat)}
    (hChains : Chains upper lower operators operator?) {width : Nat} {op : Operator}
    (h : Completes mode old s lower (c₁.skipBlanks.advance width)) {a : Tree}
    (hLeft : Derives upper c a c₁) (hNamed : a.named mode = true)
    (hFound : operator? c₁.skipBlanks.rest = some (op, width)) : Completes mode old s upper c := by
  obtain ⟨hMember, rfl, rest, hText⟩ := hChains.found hFound
  have hSign : c₁.Token op.token (c₁.skipBlanks.advance op.token.length) := Cursor.token_advance hText
  refine ⟨(h.suffix.trans hSign.suffix).trans hLeft.suffix, h.starts, fun z hz => ?_⟩
  obtain ⟨b, d, hDerives, hRest, hNamed'⟩ := h.derives z hz
  obtain ⟨hLeft', hSign'⟩ := h.before hOld hLeft hSign past_of_operator z
  exact ⟨_, d, hChains.link hLeft' hMember hSign' hDerives, hRest, by simp [Tree.named, hNamed, hNamed']⟩

theorem Completes.group {b : Bracket} (h : Completes mode old s .expression c₁)
    (hOpen : c.Token [b.opener] c₁) : Completes mode old (s ++ [b.closer]) .primary c := by
  obtain ⟨first, rest, rfl, hFirst⟩ := h.starts
  refine ⟨h.suffix.trans hOpen.suffix, ⟨first, rest ++ [b.closer], rfl, hFirst⟩, fun z _ => ?_⟩
  obtain ⟨t, d, hDerives, hRest, hNamed⟩ := h.derives (b.closer :: z) (closes_closer b z)
  obtain ⟨hClose, hEnd⟩ := token_of_closer hRest (by cases b <;> decide)
  rw [List.append_assoc]
  exact ⟨_, _, .group (hOpen.replace (h.replaces hOld _) h.suffix) hDerives hClose, hEnd, hNamed⟩

theorem Completes.argument {word : String} {f : Builtin} (h : Completes mode old s .expression c₂)
    (hWord : c.Word word c₁) (hFunction : Builtin.ofName? word = some f) (hOpen : c₁.Token ['('] c₂) :
    Completes mode old (s ++ [')']) .primary c := by
  obtain ⟨first, rest, rfl, hFirst⟩ := h.starts
  have hOld₁ := h.suffix.trans hOpen.suffix
  refine ⟨hOld₁.trans hWord.token.suffix, ⟨first, rest ++ [')'], rfl, hFirst⟩, fun z _ => ?_⟩
  obtain ⟨t, d, hDerives, hRest, hNamed⟩ := h.derives (')' :: z) (closes_closer .round z)
  obtain ⟨hClose, hEnd⟩ := token_of_closer hRest (by decide)
  have hReplaces := h.replaces hOld (')' :: z)
  rw [List.append_assoc]
  refine ⟨_, _, .call (hWord.replace hReplaces hOld₁) (hOpen.replace hReplaces h.suffix) hDerives
    (.none d) hClose, hEnd, ?_⟩
  simp [Tree.named, Tree.allNamed, hFunction, hNamed]

theorem Completes.nextArgument {c₃ c₄ c₅ : Cursor} {word : String} {f : Builtin} {t : Tree}
    {ts : List Tree} (h : Completes mode old s .expression c₅) (hWord : c.Word word c₁)
    (hFunction : Builtin.ofName? word = some f) (hOpen : c₁.Token ['('] c₂)
    (hFirst : Derives .expression c₂ t c₃) (hMore : Arguments c₃ ts c₄)
    (hNamed : Tree.allNamed mode (t :: ts) = true) (hComma : c₄.Token [','] c₅) :
    Completes mode old (s ++ [')']) .primary c := by
  obtain ⟨first, rest, rfl, hStart⟩ := h.starts
  have hOld₄ := h.suffix.trans hComma.suffix
  have hOld₃ := hOld₄.trans hMore.suffix
  have hOld₂ := hOld₃.trans hFirst.suffix
  have hOld₁ := hOld₂.trans hOpen.suffix
  refine ⟨hOld₁.trans hWord.token.suffix, ⟨first, rest ++ [')'], rfl, hStart⟩, fun z _ => ?_⟩
  obtain ⟨u, d, hDerives, hRest, hNamed'⟩ := h.derives (')' :: z) (closes_closer .round z)
  obtain ⟨hClose, hEnd⟩ := token_of_closer hRest (by decide)
  have hReplaces := h.replaces hOld (')' :: z)
  have hComma' := hComma.replace hReplaces h.suffix
  obtain ⟨hMore', hPast₃⟩ := hMore.replace hReplaces hOld₄ (hComma'.past (by decide))
  rw [List.append_assoc]
  refine ⟨_, _, .call (hWord.replace hReplaces hOld₁) (hOpen.replace hReplaces hOld₂)
    (hFirst.replace hReplaces hOld₃ hPast₃) (hMore'.snoc hComma' hDerives) hClose, hEnd, ?_⟩
  rw [Tree.named, ← List.cons_append, Tree.allNamed_append, hNamed]
  simp [Tree.allNamed, hFunction, hNamed']

/-- What completes the operand at the end of a way down is completed by closing all that is open. -/
theorem Awaits.completes {A : Arithmetic} {target : Level} {o : Cursor} {k : Nat}
    (h : Awaits A level c k target o) (hTarget : Completes A.mode old s target o) :
    ∃ s', Completes A.mode old s' level c := by
  induction h with
  | here => exact ⟨s, hTarget⟩
  | group hOpen _ ih =>
    obtain ⟨s', hInner⟩ := ih hTarget
    exact ⟨_, hInner.group hOld hOpen⟩
  | argument hWord hFunction hOpen _ ih =>
    obtain ⟨s', hInner⟩ := ih hTarget
    exact ⟨_, hInner.argument hOld hWord hFunction hOpen⟩
  | nextArgument hWord hFunction hOpen hFirst hMore hValues hComma _ ih =>
    obtain ⟨s', hInner⟩ := ih hTarget
    exact ⟨_, hInner.nextArgument hOld hWord hFunction hOpen hFirst hMore
      (Tree.allNamed_of_evalAll hValues) hComma⟩
  | factor hSigns _ ih =>
    obtain ⟨s', hInner⟩ := ih hTarget
    exact ⟨s', hInner.factor hOld hSigns⟩
  | base _ ih =>
    obtain ⟨s', hInner⟩ := ih hTarget
    exact ⟨s', hInner.lift fun _ _ _ => .base⟩
  | exponent hBase hValue hSign _ ih =>
    obtain ⟨s', hInner⟩ := ih hTarget
    exact ⟨s', hInner.exponent hOld hBase (Tree.named_of_eval hValue) hSign⟩
  | single _ ih =>
    obtain ⟨s', hInner⟩ := ih hTarget
    exact ⟨s', hInner.lift fun _ _ _ => .single⟩
  | product hLeft hValue hFound _ ih =>
    obtain ⟨s', hInner⟩ := ih hTarget
    exact ⟨s', hInner.link hOld chains_product hLeft (Tree.named_of_eval hValue) hFound⟩
  | summand _ ih =>
    obtain ⟨s', hInner⟩ := ih hTarget
    exact ⟨s', hInner.lift fun _ _ _ => .summand⟩
  | sum hLeft hValue hFound _ ih =>
    obtain ⟨s', hInner⟩ := ih hTarget
    exact ⟨s', hInner.link hOld chains_sum hLeft (Tree.named_of_eval hValue) hFound⟩

end Endings

end Completions

/-! ## Where a reading was refused -/

section Refusals

variable {A : Arithmetic} {mode : Mode} {o c : Cursor}

/-- A token put in behind the blanks at a cursor. -/
theorem token_replace_skipBlanks {first : Char} {z : List Char}
    (h : Replaces c.skipBlanks.rest (first :: z)) :
    (c.replace c.skipBlanks.rest (first :: z)).Token [first] ⟨c.skipBlanks.position + 1, z⟩ := by
  have hSuffix : c.skipBlanks.rest <:+ c.rest := c.ahead_skipBlanks.suffix
  have hHere : Cursor.replace c.skipBlanks.rest (first :: z) c.skipBlanks =
      ⟨c.skipBlanks.position, first :: z⟩ := Cursor.replace_append c.skipBlanks.position []
  rw [Cursor.Token, (Cursor.skipBlanks_replace h hSuffix).1]
  exact ⟨congrArg Cursor.rest hHere, rfl⟩

theorem Closes.continues {z : List Char} (h : Closes z) :
    ∀ next ∈ z.head?, Numeral.continues next = false := by
  intro next hNext
  have hCloser := h next hNext
  simp only [List.mem_cons, List.not_mem_nil, or_false] at hCloser
  rcases hCloser with rfl | rfl | rfl <;> decide

theorem proper_one : (Numeral.mk ['1'] none none).Proper := by
  have hScan : Numeral.scan? ['1'] = some (⟨['1'], none, none⟩, []) := rfl
  exact Numeral.proper_of_scan? hScan

theorem completes_operand (mode : Mode) (o : Cursor) : Completes mode o.skipBlanks.rest ['1'] .primary o := by
  refine ⟨o.ahead_skipBlanks.suffix, ⟨'1', [], rfl, by decide⟩, fun z hz => ?_⟩
  have hReplaces : Replaces o.skipBlanks.rest ('1' :: z) :=
    replaces_of_starts o.head_skipBlanks (by decide)
  have hToken := token_replace_skipBlanks hReplaces
  refine ⟨_, _, .literal (n := ⟨['1'], none, none⟩) ?_ hToken, rfl, rfl⟩
  change Numeral.Longest _ (Cursor.replace o.skipBlanks.rest ('1' :: z) o).skipBlanks.rest
  rw [hToken.1]
  exact Numeral.longest_text_append proper_one hz.continues

/-- A group lacks nothing but its closing bracket. -/
theorem completes_group {c₁ c₂ : Cursor} {b : Bracket} {t : Tree} (hOpen : o.Token [b.opener] c₁)
    (hInner : Derives .expression c₁ t c₂) (hNamed : t.named mode = true) :
    Completes mode c₂.skipBlanks.rest [b.closer] .primary o := by
  have hSuffix := c₂.ahead_skipBlanks.suffix
  have hSuffix₁ := hSuffix.trans hInner.suffix
  refine ⟨hSuffix₁.trans hOpen.suffix, ⟨b.closer, [], rfl, by cases b <;> decide⟩, fun z _ => ?_⟩
  have hReplaces : Replaces c₂.skipBlanks.rest (b.closer :: z) :=
    replaces_of_starts c₂.head_skipBlanks (by cases b <;> decide)
  have hToken := token_replace_skipBlanks hReplaces
  have hInner' := hInner.replace hReplaces hSuffix (hToken.past (by cases b <;> decide))
  exact ⟨_, _, .group (hOpen.replace hReplaces hSuffix₁) hInner' hToken, rfl, hNamed⟩

/-- A call lacks nothing but its closing bracket, and perhaps arguments. -/
theorem completes_call {c₁ c₂ c₃ c₄ : Cursor} {word : String} {f : Builtin} {t : Tree} {ts : List Tree}
    (hWord : o.Word word c₁) (hFunction : Builtin.ofName? word = some f) (hOpen : c₁.Token ['('] c₂)
    (hFirst : Derives .expression c₂ t c₃) (hMore : Arguments c₃ ts c₄)
    (hNamed : Tree.allNamed mode (t :: ts) = true) :
    Completes mode c₄.skipBlanks.rest [')'] .primary o := by
  have hSuffix := c₄.ahead_skipBlanks.suffix
  have hSuffix₃ := hSuffix.trans hMore.suffix
  have hSuffix₂ := hSuffix₃.trans hFirst.suffix
  have hSuffix₁ := hSuffix₂.trans hOpen.suffix
  refine ⟨hSuffix₁.trans hWord.token.suffix, ⟨')', [], rfl, by decide⟩, fun z _ => ?_⟩
  have hReplaces : Replaces c₄.skipBlanks.rest (')' :: z) :=
    replaces_of_starts c₄.head_skipBlanks (by decide)
  have hToken := token_replace_skipBlanks hReplaces
  obtain ⟨hMore', hPast⟩ := hMore.replace hReplaces hSuffix (hToken.past (by decide))
  refine ⟨_, _, .call (hWord.replace hReplaces hSuffix₁) (hOpen.replace hReplaces hSuffix₂)
    (hFirst.replace hReplaces hSuffix₃ hPast) hMore' hToken, rfl, ?_⟩
  rw [Tree.named, hNamed, hFunction]
  rfl

theorem Refuses.completes {e : Complaint} (h : Refuses A o e)
    (hKind : e.cause.kind = .unexpectedCharacter ∨ e.cause.kind = .unmatchedDelimiter) :
    ∃ c : Cursor, o.Ahead c.skipBlanks ∧ e.position = c.skipBlanks.position ∧
      e.reached = c.skipBlanks.position ∧ ∃ s, Completes A.mode c.skipBlanks.rest s .primary o := by
  cases h with
  | endOfInput | unexpected | lonePoint =>
    exact ⟨o, o.ahead_skipBlanks, rfl, rfl, _, completes_operand A.mode o⟩
  | unknownFunction | arityMismatch => rcases hKind with hKind | hKind <;> cases hKind
  | @openBracket c₁ c₂ b t x hOpen hInner hValue =>
    have hAhead := (hOpen.ahead.trans hInner.ahead).trans c₂.ahead_skipBlanks
    exact ⟨c₂, hAhead, rfl, rfl, _, completes_group hOpen hInner (Tree.named_of_eval hValue)⟩
  | @openArguments c₁ c₂ c₃ c₄ word f t ts xs hWord hFunction hOpen hFirst hMore hValues =>
    have hBefore := (hWord.token.ahead.trans hOpen.ahead).trans hFirst.ahead
    have hAhead := (hBefore.trans hMore.ahead).trans c₄.ahead_skipBlanks
    exact ⟨c₄, hAhead, rfl, rfl, _, completes_call hWord hFunction hOpen hFirst hMore
      (Tree.allNamed_of_evalAll hValues)⟩

theorem replace_start {text : List Char} {c : Cursor} (h : Cursor.Ahead ⟨0, text⟩ c) (new : List Char) :
    Cursor.replace c.rest new ⟨0, text⟩ = ⟨0, text.take c.position ++ new⟩ := by
  obtain ⟨n, hn, rfl⟩ := h
  have hLength : text.length - (text.length - n) = n := Nat.sub_sub_self hn
  simp [Cursor.replace, Cursor.advance, hLength]

/-- A text that was refused for an operand that is missing, or for a bracket that is not closed, begins an
    expression up to where it was refused. -/
theorem exists_completion {text : List Char} {k : Nat} {e : Complaint}
    (hAwaits : Awaits A .expression ⟨0, text⟩ k .primary o) (hRefuses : Refuses A o e)
    (hKind : e.cause.kind = .unexpectedCharacter ∨ e.cause.kind = .unmatchedDelimiter) :
    e.reached = e.position ∧
      ∃ s t, Parses (text.take e.position ++ s) t ∧ t.named A.mode = true := by
  obtain ⟨c, hAhead, hPosition, hReached, s, hCompletes⟩ := hRefuses.completes hKind
  obtain ⟨s', hWhole⟩ := hAwaits.completes c.head_skipBlanks hCompletes
  obtain ⟨t, d, hDerives, hRest, hNamed⟩ := hWhole.derives [] (by simp [Closes])
  rw [List.append_nil, replace_start (hAwaits.ahead.trans hAhead)] at hDerives
  refine ⟨by rw [hReached, hPosition], s', t, ⟨d, ?_, ?_⟩, hNamed⟩
  · rwa [hPosition]
  · rw [Cursor.skipBlanks, hRest]
    rfl

end Refusals

end Reckon.Expression
