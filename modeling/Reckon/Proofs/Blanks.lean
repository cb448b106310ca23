import Reckon.Proofs.Alike
import Reckon.Proofs.Numeral.Ending

/-! # Blanks between tokens

Blanks can be put into a text wherever the run does not take characters on both sides as one numeral, word or
sign. Only the offsets of faults tell the texts apart.
-/
namespace Reckon
set_option autoImplicit false
open Expression
open Text (isBlank)

namespace Expression

/-- What the run takes as one from the first offset to the second: a numeral, a word, or the sign of whole
    division. -/
inductive Takes (A : Arithmetic) (levels : Nat) (text : List Char) : Nat → Nat → Prop
  | numeral {room : Nat} {c : Cursor} {n : Numeral} (h : Visits A levels text .primary (room + 1) c)
      (hLongest : n.Longest c.skipBlanks.rest) :
      Takes A levels text c.skipBlanks.position (c.skipBlanks.position + n.text.length)
  | word {room : Nat} {c c' : Cursor} {word : String} (h : Visits A levels text .primary (room + 1) c)
      (hWord : c.Word word c') : Takes A levels text c.skipBlanks.position c'.position
  | slashes {room : Nat} {c c₁ c₂ : Cursor} {a : Tree} {x : Number}
      (h : Visits A levels text .product room c) (hLeft : Derives .product c a c₁) (hDepth : a.depth < room)
      (hValue : a.eval A = .ok x) (hSign : c₁.Token ['/', '/'] c₂) :
      Takes A levels text c₁.skipBlanks.position c₂.position

theorem Takes.le_length {A : Arithmetic} {levels : Nat} {text : List Char} {a b : Nat}
    (h : Takes A levels text a b) : b ≤ text.length := by
  have hEnd {c : Cursor} (hAhead : Cursor.Ahead ⟨0, text⟩ c) : c.position ≤ text.length := by
    have hLength := hAhead.end_eq
    dsimp only at hLength
    omega
  cases h with
  | numeral h hLongest =>
    exact hEnd ((h.ahead.trans (Cursor.ahead_skipBlanks _)).trans
      (Cursor.ahead_advance hLongest.2.1.length_le))
  | word h hWord => exact hEnd (h.ahead.trans hWord.token.ahead)
  | slashes h hLeft _ _ hSign => exact hEnd ((h.ahead.trans hLeft.ahead).trans hSign.ahead)

/-! ## Two texts that differ in blanks -/

/-- Cursors before the blanks, and cursors that have the same text behind the blanks at them. -/
inductive Spaced (start : Nat) (blanks after : List Char) : Cursor → Cursor → Prop
  | before {p : Nat} (l : List Char) (h : p + l.length = start) :
      Spaced start blanks after ⟨p, l ++ after⟩ ⟨p, l ++ (blanks ++ after)⟩
  | behind {c d : Cursor} (h : d.skipBlanks.rest = c.skipBlanks.rest) : Spaced start blanks after c d

def spaced (start : Nat) (blanks after : List Char) : Pairing where
  near := Spaced start blanks after
  place _ _ := True
  excused _ := False

theorem dropWhile_blanks {blanks : List Char} (hBlanks : ∀ c ∈ blanks, isBlank c = true) (after : List Char) :
    (blanks ++ after).dropWhile isBlank = after.dropWhile isBlank :=
  List.dropWhile_append_of_pos hBlanks

namespace Spaced

variable {start : Nat} {blanks after : List Char} {c d : Cursor}

theorem of_rest (h : d.rest = c.rest) : Spaced start blanks after c d :=
  .behind (by simp only [Cursor.skipBlanks, h])

theorem skipBlanks (hBlanks : ∀ c ∈ blanks, isBlank c = true) (h : Spaced start blanks after c d) :
    Spaced start blanks after c.skipBlanks d.skipBlanks := by
  cases h with
  | behind h => exact .behind (by rwa [c.skipBlanks_skipBlanks, d.skipBlanks_skipBlanks])
  | @before p l h =>
    induction l generalizing p with
    | nil =>
      refine .behind ?_
      rw [Cursor.skipBlanks_skipBlanks, Cursor.skipBlanks_skipBlanks]
      exact dropWhile_blanks hBlanks after
    | cons next l ih =>
      cases hNext : isBlank next with
      | true =>
        rw [List.cons_append, List.cons_append, Cursor.skipBlanks_blank hNext, Cursor.skipBlanks_blank hNext]
        refine ih (p := p + 1) ?_
        rw [List.length_cons] at h
        omega
      | false =>
        rw [Cursor.skipBlanks_of_head (by simp [hNext]), Cursor.skipBlanks_of_head (by simp [hNext])]
        exact .before (next :: l) h

/-- Where both cursors stand at tokens they stand in the text before the blanks, or at the same text. -/
theorem firm (hBlanks : ∀ c ∈ blanks, isBlank c = true) (h : Spaced start blanks after c d)
    (hHere : c.skipBlanks = c) (hHere' : d.skipBlanks = d) : d.rest = c.rest ∨
      ∃ p next l, p + (next :: l).length = start ∧ c = ⟨p, next :: l ++ after⟩ ∧
        d = ⟨p, next :: l ++ (blanks ++ after)⟩ := by
  cases h with
  | behind h =>
    rw [hHere, hHere'] at h
    exact .inl h
  | @before p l h =>
    cases l with
    | cons next l => exact .inr ⟨p, next, l, h, rfl, rfl⟩
    | nil =>
      have hSame := dropWhile_blanks hBlanks after
      left
      rw [← hHere, ← hHere']
      exact hSame

theorem advance {p n : Nat} {l : List Char} (h : p + l.length = start) (hn : n ≤ l.length) :
    Spaced start blanks after (Cursor.advance ⟨p, l ++ after⟩ n)
      (Cursor.advance ⟨p, l ++ (blanks ++ after)⟩ n) := by
  rw [Cursor.advance, Cursor.advance, List.drop_append_of_le_length hn, List.drop_append_of_le_length hn]
  refine .before (l.drop n) ?_
  rw [List.length_drop, ← h]
  dsimp only
  omega

end Spaced

theorem takeWhile_append_of_length_le {p : Char → Bool} {l s : List Char}
    (h : ((l ++ s).takeWhile p).length ≤ l.length) : (l ++ s).takeWhile p = l.takeWhile p := by
  rw [List.takeWhile_append] at h ⊢
  split
  · rename_i hAll
    rw [if_pos hAll, List.length_append] at h
    have hNone : s.takeWhile p = [] := List.length_eq_zero_iff.mp (by omega)
    rw [hNone, List.append_nil]
    exact ((List.takeWhile_prefix p).eq_of_length hAll).symm
  · rfl

theorem isAlpha_of_isBlank {c : Char} (h : isBlank c = true) : c.isAlpha = false := by
  rw [Bool.eq_false_iff]
  intro hAlpha
  have hRange : 65 ≤ c.toNat ∧ c.toNat ≤ 90 ∨ 97 ≤ c.toNat ∧ c.toNat ≤ 122 := by
    rcases Bool.or_eq_true_iff.mp hAlpha with hUpper | hLower
    · left
      exact ⟨UInt32.le_iff_toNat_le.mp (of_decide_eq_true hUpper).1,
        UInt32.le_iff_toNat_le.mp (of_decide_eq_true hUpper).2⟩
    · right
      obtain ⟨hFirst, hLast⟩ := Bool.and_eq_true_iff.mp hLower
      exact ⟨UInt32.le_iff_toNat_le.mp (of_decide_eq_true hFirst),
        UInt32.le_iff_toNat_le.mp (of_decide_eq_true hLast)⟩
  simp [isBlank] at h
  omega

theorem writes_of_isBlank {c : Char} (h : isBlank c = true) : Numeral.writes c = false := by
  rw [Numeral.writes, continues_of_isBlank h]
  simp only [Bool.false_or, Bool.or_eq_false_iff, beq_eq_false_iff_ne]
  constructor <;>
  · rintro rfl
    exact absurd h (by decide)

/-! ## Tokens on both sides -/

/-- Nothing that the run takes as one goes over the offset. -/
def Between (A : Arithmetic) (levels : Nat) (text : List Char) (offset : Nat) : Prop :=
  ∀ a b, Takes A levels text a b → offset ≤ a ∨ b ≤ offset

/-- The characters of numerals, words and signs of division. -/
def joins (c : Char) : Bool := Numeral.writes c || c.isAlpha || c == '/'

theorem Takes.joins {A : Arithmetic} {levels : Nat} {text : List Char} {a b : Nat}
    (h : Takes A levels text a b) :
    ∃ token, token <+: text.drop a ∧ b = a + token.length ∧ ∀ c ∈ token, joins c = true := by
  cases h with
  | @numeral room c n h hLongest =>
    refine ⟨n.text, ?_, rfl, fun d hMember => ?_⟩
    · rw [← (h.ahead.trans c.ahead_skipBlanks).rest_eq]
      exact hLongest.2.1
    · simp [Expression.joins, hLongest.1.writes d hMember]
  | @word room c c' word h hWord =>
    refine ⟨word.toList, ?_, hWord.token.2, fun d hMember => ?_⟩
    · rw [← (h.ahead.trans c.ahead_skipBlanks).rest_eq, hWord.token.1]
      exact List.prefix_append _ _
    · simp [Expression.joins, hWord.letters d hMember]
  | @slashes room c c₁ c₂ t x h hLeft hDepth hValue hSign =>
    refine ⟨['/', '/'], ?_, hSign.2, by simp [Expression.joins]⟩
    rw [← ((h.ahead.trans hLeft.ahead).trans c₁.ahead_skipBlanks).rest_eq, hSign.1]
    exact List.prefix_append _ _

/-- No run takes a sign or a bracket together with what stands before it. -/
theorem between_of_head {next : Char} (h : Expression.joins next = false) (A : Arithmetic) (levels : Nat)
    (before after : List Char) : Between A levels (before ++ next :: after) before.length := by
  intro a b hTakes
  obtain ⟨token, hToken, rfl, hJoins⟩ := hTakes.joins
  by_contra hOver
  rw [not_or, Nat.not_le, Nat.not_le] at hOver
  rw [List.drop_append_of_le_length (Nat.le_of_lt hOver.1)] at hToken
  have hShort : before.drop a <+: token :=
    List.prefix_of_prefix_length_le (List.prefix_append _ _) hToken (by rw [List.length_drop]; omega)
  obtain ⟨more, rfl⟩ := hShort
  rw [List.prefix_append_right_inj] at hToken
  cases more with
  | nil =>
    rw [List.append_nil, List.length_drop] at hOver
    omega
  | cons first more =>
    obtain ⟨rest, hRest⟩ := hToken
    cases hRest
    rw [hJoins next (by simp)] at h
    cases h

section Lawful

variable {A : Arithmetic} {levels room start : Nat} {blanks after text : List Char} {c d : Cursor}

theorem head?_blanks (hBlanks : ∀ c ∈ blanks, isBlank c = true) (hSome : blanks ≠ []) (after : List Char) :
    ∀ next ∈ (blanks ++ after).head?, isBlank next = true := by
  obtain ⟨blank, more, rfl⟩ := List.exists_cons_of_ne_nil hSome
  rintro next ⟨⟩
  exact hBlanks blank List.mem_cons_self

variable (hBetween : Between A levels text start) (hBlanks : ∀ c ∈ blanks, isBlank c = true)
  (hSome : blanks ≠ [])
include hBetween hBlanks hSome

omit hBetween hSome in
/-- The character at a token is the same on both sides. -/
theorem Spaced.next (h : (spaced start blanks after).Firm c d) :
    d.rest.head? = c.rest.head? ∧ Spaced start blanks after (c.advance 1) (d.advance 1) := by
  obtain ⟨hNear, hHere, hHere'⟩ := h
  rcases hNear.firm hBlanks hHere hHere' with hSame | ⟨p, next, l, hStart, rfl, rfl⟩
  · exact ⟨congrArg List.head? hSame, .of_rest (by rw [Cursor.rest_advance, Cursor.rest_advance, hSame])⟩
  · exact ⟨rfl, .advance hStart (by simp)⟩

theorem Spaced.letters (hVisits : Visits A levels text .primary (room + 1) c)
    (h : (spaced start blanks after).Firm c.skipBlanks d) :
    d.rest.takeWhile Char.isAlpha = c.skipBlanks.rest.takeWhile Char.isAlpha ∧
      Spaced start blanks after (c.skipBlanks.advance (c.skipBlanks.rest.takeWhile Char.isAlpha).length)
        (d.advance (c.skipBlanks.rest.takeWhile Char.isAlpha).length) := by
  obtain ⟨hNear, hHere, hHere'⟩ := h
  rcases hNear.firm hBlanks hHere hHere' with hSame | ⟨p, next, l, hStart, hCursor, rfl⟩
  · rw [hSame]
    exact ⟨rfl, .of_rest (by rw [Cursor.rest_advance, Cursor.rest_advance, hSame])⟩
  · have hLength : ((next :: l ++ after).takeWhile Char.isAlpha).length ≤ (next :: l).length := by
      cases hAlpha : next.isAlpha with
      | false => simp [hAlpha]
      | true =>
        have hWord := word_of_head (c := c) (by rw [hCursor]; rfl) hAlpha
        have hEnds := (hBetween _ _ (.word hVisits hWord)).resolve_left (by
          rw [hCursor, ← hStart, List.length_cons]
          dsimp only
          omega)
        rw [hCursor, ← hStart] at hEnds
        exact Nat.le_of_add_le_add_left hEnds
    have hTake := takeWhile_append_of_length_le hLength
    have hTake' : (next :: l ++ (blanks ++ after)).takeWhile Char.isAlpha = (next :: l).takeWhile Char.isAlpha :=
      (Cursor.takeWhile_append_of_head _ fun first hFirst =>
        isAlpha_of_isBlank (head?_blanks hBlanks hSome after first hFirst)).1
    rw [hCursor]
    dsimp only
    rw [hTake, hTake']
    exact ⟨rfl, .advance hStart (List.takeWhile_sublist _).length_le⟩

theorem Spaced.scan (hVisits : Visits A levels text .primary (room + 1) c)
    (h : (spaced start blanks after).Firm c.skipBlanks d) :
    Numeral.scan? c.skipBlanks.rest = none ∧ Numeral.scan? d.rest = none ∨
      ∃ n rest rest', Numeral.scan? c.skipBlanks.rest = some (n, rest) ∧
        Numeral.scan? d.rest = some (n, rest') ∧
          Spaced start blanks after (c.skipBlanks.advance n.text.length) (d.advance n.text.length) := by
  obtain ⟨hNear, hHere, hHere'⟩ := h
  rcases hNear.firm hBlanks hHere hHere' with hSame | ⟨p, next, l, hStart, hCursor, rfl⟩
  · rw [hSame]
    cases hScan : Numeral.scan? c.skipBlanks.rest with
    | none => exact .inl ⟨rfl, rfl⟩
    | some found =>
      refine .inr ⟨found.1, _, _, rfl, rfl, .of_rest ?_⟩
      rw [Cursor.rest_advance, Cursor.rest_advance, hSame]
  · have hScan' : Numeral.scan? (next :: l ++ (blanks ++ after)) =
        (Numeral.scan? (next :: l)).map fun found => (found.1, found.2 ++ (blanks ++ after)) :=
      Numeral.scan?_append fun first hFirst =>
        writes_of_isBlank (head?_blanks hBlanks hSome after first hFirst)
    rw [hScan']
    cases hScan : Numeral.scan? c.skipBlanks.rest with
    | none =>
      rw [hCursor] at hScan
      rw [Numeral.scan?_eq_none_of_append hScan]
      exact .inl ⟨rfl, rfl⟩
    | some found =>
      obtain ⟨n, rest⟩ := found
      have hLongest := Numeral.longest_of_scan? hScan
      have hEnds := (hBetween _ _ (.numeral hVisits hLongest)).resolve_left (by
        rw [hCursor, ← hStart, List.length_cons]
        dsimp only
        omega)
      rw [hCursor, ← hStart] at hEnds
      rw [hCursor] at hLongest
      have hLength : n.text.length ≤ (next :: l).length := Nat.le_of_add_le_add_left hEnds
      have hPrefix := List.prefix_of_prefix_length_le hLongest.2.1 (List.prefix_append _ after) hLength
      obtain ⟨rest', hText⟩ := hPrefix
      have hFound := Numeral.scan?_eq_some_iff.mpr ⟨hLongest.of_append ⟨rest', hText⟩, hText.symm⟩
      rw [hFound, hCursor]
      exact .inr ⟨n, rest, _, rfl, rfl, .advance hStart hLength⟩

theorem Spaced.slash {c₁ : Cursor} {a : Tree} {x : Number} (hVisits : Visits A levels text .product room c)
    (hLeft : Derives .product c a c₁) (hDepth : a.depth < room) (hValue : a.eval A = .ok x)
    (h : (spaced start blanks after).Firm c₁.skipBlanks d)
    (hSlash : c₁.skipBlanks.rest.head? = some '/') :
    (d.advance 1).rest.head? = some '/' ↔ (c₁.skipBlanks.advance 1).rest.head? = some '/' := by
  obtain ⟨hNear, hHere, hHere'⟩ := h
  rcases hNear.firm hBlanks hHere hHere' with hSame | ⟨p, next, l, hStart, hCursor, rfl⟩
  · rw [Cursor.rest_advance, Cursor.rest_advance, hSame]
  · cases l with
    | cons second l =>
      rw [hCursor]
      rfl
    | nil =>
      constructor
      · intro hBlank
        have hSlashBlank := head?_blanks hBlanks hSome after '/' hBlank
        exact absurd hSlashBlank (by decide)
      · intro hSecond
        rw [hCursor] at hSlash hSecond
        cases hSlash
        obtain ⟨rest, hRest⟩ := List.head?_eq_some_iff.mp hSecond
        have hSign : c₁.Token ['/', '/'] (c₁.skipBlanks.advance 2) := by
          have hText : c₁.skipBlanks.rest = ['/', '/'] ++ rest := by
            rw [hCursor]
            exact congrArg (List.cons '/') hRest
          exact Cursor.token_advance hText
        have hEnds := hBetween _ _ (.slashes hVisits hLeft hDepth hValue hSign)
        rw [hCursor, ← hStart] at hEnds
        simp [Cursor.advance] at hEnds

theorem lawful_spaced (deep : Cause) : (spaced start blanks after).Lawful A deep levels text where
  place _ := trivial
  skipBlanks h := h.skipBlanks hBlanks
  head? h := (Spaced.next hBlanks h).1
  advance h _ _ := (Spaced.next hBlanks h).2
  slash := Spaced.slash hBetween hBlanks hSome
  letters := Spaced.letters hBetween hBlanks hSome
  scan := Spaced.scan hBetween hBlanks hSome
  bracket h _ := .inl (Spaced.next hBlanks h).2

end Lawful

end Expression

/-! ## Evaluation -/

theorem evaluate_insert [Interpreter] (settings : Settings) (before blanks after : String)
    (hBlanks : ∀ c ∈ blanks.toList, isBlank c = true)
    (hBetween : Between settings.arithmetic (levels settings.maxDepth) (before ++ after).toList before.length) :
    Alike (fun _ _ => True) (evaluate settings (before ++ after))
      (evaluate settings (before ++ blanks ++ after)) := by
  by_cases hSome : blanks.toList = []
  · obtain rfl : blanks = "" := String.toList_eq_nil_iff.mp hSome
    rw [String.append_empty]
    exact alike_self (fun _ => trivial) settings _
  · have hNear : Spaced before.length blanks.toList after.toList ⟨0, (before ++ after).toList⟩
        ⟨0, (before ++ blanks ++ after).toList⟩ := by
      rw [String.toList_append, String.toList_append, String.toList_append, List.append_assoc]
      exact .before before.toList ((Nat.zero_add _).trans before.length_toList)
    have hMatches := (lawful_spaced hBetween hBlanks hSome (tooDeep settings.maxDepth)).matches_readWithin hNear []
    rcases alike_of_matches hMatches with hAlike | ⟨stop, hExcused, -⟩
    · exact hAlike
    · exact hExcused.elim

theorem exists_strip (blank : Char → Bool) (text : List Char) : ∃ first last : List Char,
    (∀ c ∈ first, blank c = true) ∧ (∀ c ∈ last, blank c = true) ∧
      text = first ++ Text.strip blank text ++ last := by
  have hFirst := List.takeWhile_append_dropWhile (p := blank) (l := text)
  have hLast := congrArg List.reverse
    (List.takeWhile_append_dropWhile (p := blank) (l := (text.dropWhile blank).reverse))
  rw [List.reverse_append, List.reverse_reverse] at hLast
  refine ⟨text.takeWhile blank, ((text.dropWhile blank).reverse.takeWhile blank).reverse, ?_, ?_, ?_⟩
  · exact fun c hMember => List.mem_takeWhile_imp hMember
  · exact fun c hMember => List.mem_takeWhile_imp (List.mem_reverse.mp hMember)
  · rw [Text.strip, List.append_assoc, hLast, hFirst]

theorem evaluate_strip [Interpreter] (settings : Settings) (text : String) :
    Alike (fun _ _ => True) (evaluate settings text)
      (evaluate settings (String.ofList (Text.strip isBlank text.toList))) := by
  obtain ⟨first, last, hFirst, hLast, hText⟩ := exists_strip isBlank text.toList
  generalize Text.strip isBlank text.toList = core at hText ⊢
  -- The blanks at the beginning are put there first, and then those at the end.
  have hBegin := evaluate_insert settings "" (String.ofList first) (String.ofList core) (by simpa using hFirst)
    fun a b _ => .inl (Nat.zero_le a)
  have hEnd := evaluate_insert settings (String.ofList (first ++ core)) (String.ofList last) ""
    (by simpa using hLast) fun a b hTakes => .inr (by simpa using hTakes.le_length)
  have hWhole : text = String.ofList (first ++ core) ++ String.ofList last := by
    rw [← String.ofList_append, ← hText, String.ofList_toList]
  rw [String.append_empty, String.append_empty, ← hWhole, String.ofList_append] at hEnd
  rw [String.empty_append, String.empty_append] at hBegin
  exact (hBegin.trans hEnd fun _ _ _ _ _ => trivial).symm fun _ _ _ => trivial

/-- Blanks between two tokens, and at the beginning and the end, change no more of an outcome than the offset
    of its fault. -/
theorem evaluate_blanks [Interpreter] (settings : Settings) :
    (∀ before blanks after : String, (∀ c ∈ blanks.toList, isBlank c = true) →
      Between settings.arithmetic (levels settings.maxDepth) (before ++ after).toList before.length →
        Alike (fun _ _ => True) (evaluate settings (before ++ after))
          (evaluate settings (before ++ blanks ++ after))) ∧
      ∀ text : String, Alike (fun _ _ => True) (evaluate settings text)
        (evaluate settings (String.ofList (Text.strip isBlank text.toList))) :=
  ⟨evaluate_insert settings, evaluate_strip settings⟩

theorem evaluate_blanks_open_bracket :
    evaluate {} "2xsqrt(3" = .ok ⟨"2xsqrt(3", .error ((Cause.openArguments (.unary .sqrt)).fault 8)⟩ ∧
      Alike (fun _ _ => True) (evaluate {} "2xsqrt(3") (evaluate {} "2xsqrt \n(3") ∧
      Alike (fun _ _ => True) (evaluate {} "\t2xsqrt(3 ") (evaluate {} "2xsqrt(3") := by
  have hJoins : Expression.joins '(' = false := by decide
  have hBetween := between_of_head hJoins ({} : Settings).arithmetic
    (levels ({} : Settings).maxDepth) "2xsqrt".toList ['3']
  exact ⟨by decide +kernel, (evaluate_blanks {}).1 "2xsqrt" " \n" "(3" (by simp [isBlank]) hBetween,
    (evaluate_blanks {}).2 "\t2xsqrt(3 "⟩

end Reckon
