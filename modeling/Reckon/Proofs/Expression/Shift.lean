import Reckon.Proofs.Expression.Replacement

/-! # An expression inside of a longer text

What is derived at the beginning of a text is derived at any other offset, and before other characters that
end it. The offsets in the tree move along and its meaning stays.
-/
namespace Reckon
set_option autoImplicit false

namespace Expression

/-! ## The meaning of a tree -/

namespace Tree

variable {A : Arithmetic}

/-- The value of a tree, or what keeps it from having one, wherever that is reported. -/
def meaning (A : Arithmetic) (t : Tree) : Except Failure Number := (t.eval A).mapError Stop.failure

def meanings (A : Arithmetic) (ts : List Tree) : Except Failure (List Number) :=
  (evalAll A ts).mapError Stop.failure

theorem mapError_reportedAt (next : Nat) (result : Except Failure Number) :
    (reportedAt next result).mapError Stop.failure = result := by
  cases result <;> rfl

theorem meaning_literal (d : Decimal) (next : Nat) :
    (literal d next).meaning A = A.coerce (.real d.toFloat) := by
  rw [meaning, eval, mapError_reportedAt]

theorem meaning_name (word : String) (start next : Nat) : (name word start next).meaning A =
    match Constant.ofName? A.mode word with
    | some c => .ok (A.constant c)
    | none => .error (.cause (.unknownIdentifier word)) := by
  rw [meaning, eval]
  cases Constant.ofName? A.mode word <;> rfl

theorem meaning_call (word : String) (args : List Tree) (start opening next : Nat) :
    (call word args start opening next).meaning A =
      match Builtin.ofName? word with
      | none => .error (.cause (.unknownFunction word))
      | some f => meanings A args >>= fun values =>
        if args.length = f.arity then f.apply A values
        else .error (.cause (.arityMismatch f args.length)) := by
  rw [meaning, eval]
  cases Builtin.ofName? word with
  | none => rfl
  | some f =>
    dsimp only
    rw [mapError_bind, meanings]
    congr 1
    funext values
    split
    · exact mapError_reportedAt _ _
    · rfl

theorem meaning_group (b : Bracket) (t : Tree) : (group b t).meaning A = t.meaning A := by
  rw [meaning, eval, meaning]

/-- The meaning of an operation on one operand. -/
theorem meaning_unary {f : Number → Except Failure Number} (t : Tree) (next : Nat) :
    ((t.eval A >>= fun x => reportedAt next (f x)).mapError Stop.failure) = t.meaning A >>= f := by
  rw [mapError_bind, meaning]
  simp only [mapError_reportedAt]

theorem meaning_factorial (negated : Bool) (t : Tree) (next : Nat) :
    (factorial negated t next).meaning A = t.meaning A >>= fun x => A.factorial x negated := by
  rw [meaning, eval]
  exact meaning_unary t next

theorem meaning_percent (t : Tree) (next : Nat) :
    (percent t next).meaning A = t.meaning A >>= A.percent := by
  rw [meaning, eval]
  exact meaning_unary t next

theorem meaning_negate (t : Tree) (next : Nat) :
    (negate t next).meaning A = t.meaning A >>= A.negate := by
  rw [meaning, eval]
  exact meaning_unary t next

theorem meaning_binary (op : Operator) (a b : Tree) (next : Nat) :
    (binary op a b next).meaning A =
      a.meaning A >>= fun x => b.meaning A >>= fun y => op.apply A x y := by
  rw [meaning, eval, mapError_bind, meaning]
  congr 1
  funext x
  exact meaning_unary b next

theorem meanings_cons (t : Tree) (ts : List Tree) :
    meanings A (t :: ts) = t.meaning A >>= fun x => meanings A ts >>= fun xs => .ok (x :: xs) := by
  rw [meanings, evalAll, mapError_bind, meaning]
  congr 1
  funext x
  rw [mapError_bind, meanings]
  rfl

mutual
/-- The same tree, its offsets counted from further to the left. -/
def shift (k : Nat) : Tree → Tree
  | literal d next => literal d (next + k)
  | name word start next => name word (start + k) (next + k)
  | call word args start opening next => call word (shiftAll k args) (start + k) (opening + k) (next + k)
  | group b t => group b (t.shift k)
  | factorial negated t next => factorial negated (t.shift k) (next + k)
  | percent t next => percent (t.shift k) (next + k)
  | negate t next => negate (t.shift k) (next + k)
  | binary op a b next => binary op (a.shift k) (b.shift k) (next + k)

def shiftAll (k : Nat) : List Tree → List Tree
  | [] => []
  | t :: ts => t.shift k :: shiftAll k ts
end

theorem length_shiftAll (k : Nat) (ts : List Tree) : (shiftAll k ts).length = ts.length := by
  induction ts with
  | nil => rfl
  | cons t ts ih => rw [shiftAll, List.length_cons, List.length_cons, ih]

theorem shift_signed (k : Nat) (odd : Bool) (t : Tree) (next : Nat) :
    (t.signed odd next).shift k = (t.shift k).signed odd (next + k) := by
  cases odd <;> rfl

mutual
theorem meaning_shift (A : Arithmetic) (k : Nat) (t : Tree) : (t.shift k).meaning A = t.meaning A := by
  cases t with
  | literal d next => rw [shift, meaning_literal, meaning_literal]
  | name word start next => rw [shift, meaning_name, meaning_name]
  | call word args start opening next =>
    rw [shift, meaning_call, meaning_call, meanings_shiftAll A k args, length_shiftAll]
  | group b t => rw [shift, meaning_group, meaning_group, meaning_shift A k t]
  | factorial negated t next => rw [shift, meaning_factorial, meaning_factorial, meaning_shift A k t]
  | percent t next => rw [shift, meaning_percent, meaning_percent, meaning_shift A k t]
  | negate t next => rw [shift, meaning_negate, meaning_negate, meaning_shift A k t]
  | binary op a b next =>
    rw [shift, meaning_binary, meaning_binary, meaning_shift A k a, meaning_shift A k b]

theorem meanings_shiftAll (A : Arithmetic) (k : Nat) (ts : List Tree) :
    meanings A (shiftAll k ts) = meanings A ts := by
  cases ts with
  | nil => rfl
  | cons t ts => rw [shiftAll, meanings_cons, meanings_cons, meaning_shift A k t, meanings_shiftAll A k ts]
end

end Tree

/-! ## Derivations at another offset -/

namespace Cursor

def shift (k : Nat) (c : Cursor) : Cursor := ⟨c.position + k, c.rest⟩

theorem skipBlanks_shift (k : Nat) (c : Cursor) : (c.shift k).skipBlanks = c.skipBlanks.shift k := by
  simp only [skipBlanks, shift, mk.injEq, and_true]
  omega

theorem position_skipBlanks_shift (k : Nat) (c : Cursor) :
    (c.shift k).skipBlanks.position = c.skipBlanks.position + k := by
  rw [skipBlanks_shift, shift]

variable {c c' : Cursor}

theorem Token.shift {token : List Char} (h : c.Token token c') (k : Nat) :
    (c.shift k).Token token (c'.shift k) := by
  refine ⟨h.1, ?_⟩
  have hPosition := h.2
  rw [position_skipBlanks_shift]
  change c'.position + k = _
  omega

theorem Word.shift {word : String} (h : c.Word word c') (k : Nat) : (c.shift k).Word word (c'.shift k) :=
  ⟨h.token.shift k, h.nonempty, h.letters, h.longest⟩

theorem Signs.shift {odd : Bool} (h : c.Signs odd c') (k : Nat) :
    (c.shift k).Signs odd (c'.shift k) := by
  induction h with
  | none c => exact .none _
  | minus hSign _ ih => exact .minus (hSign.shift k) ih

end Cursor

mutual
theorem Derives.shift (k : Nat) : ∀ {level : Level} {c c' : Cursor} {t : Tree},
    Derives level c t c' → Derives level (c.shift k) (t.shift k) (c'.shift k)
  | _, c, c', _, .literal (n := n) hLongest hToken =>
    @Derives.literal (c.shift k) (c'.shift k) n hLongest (hToken.shift k)
  | _, _, _, _, .name hWord hBare => by
    have hName := Derives.name (hWord.shift k) hBare
    rwa [Cursor.position_skipBlanks_shift, Cursor.position_skipBlanks_shift] at hName
  | _, _, _, _, .call hWord hOpen hFirst hMore hClose => by
    have hCall := Derives.call (hWord.shift k) (hOpen.shift k) (hFirst.shift k) (hMore.shift k)
      (hClose.shift k)
    rwa [Cursor.position_skipBlanks_shift, Cursor.position_skipBlanks_shift] at hCall
  | _, _, _, _, .group hOpen hInner hClose => .group (hOpen.shift k) (hInner.shift k) (hClose.shift k)
  | _, _, _, _, .operand negated h => .operand negated (h.shift k)
  | _, _, _, _, .factorial hOperand hSign => .factorial (hOperand.shift k) (hSign.shift k)
  | _, _, _, _, .percent hOperand hSign => .percent (hOperand.shift k) (hSign.shift k)
  | _, _, _, _, .factor hSigns hOperand => by
    have hFactor := Derives.factor (hSigns.shift k) (hOperand.shift k)
    rwa [Cursor.position_skipBlanks_shift, ← Tree.shift_signed] at hFactor
  | _, _, _, _, .base h => .base (h.shift k)
  | _, _, _, _, .power hBase hSign hExponent => by
    have hPower := Derives.power (hBase.shift k) (hSign.shift k) (hExponent.shift k)
    rwa [Cursor.position_skipBlanks_shift] at hPower
  | _, _, _, _, .single h => .single (h.shift k)
  | _, _, _, _, .product hLeft hOperator hSign hRight => by
    have hProduct := Derives.product (hLeft.shift k) hOperator (hSign.shift k) (hRight.shift k)
    rwa [Cursor.position_skipBlanks_shift] at hProduct
  | _, _, _, _, .summand h => .summand (h.shift k)
  | _, _, _, _, .sum hLeft hOperator hSign hRight => by
    have hSum := Derives.sum (hLeft.shift k) hOperator (hSign.shift k) (hRight.shift k)
    rwa [Cursor.position_skipBlanks_shift] at hSum

theorem Arguments.shift (k : Nat) : ∀ {c c' : Cursor} {ts : List Tree},
    Arguments c ts c' → Arguments (c.shift k) (Tree.shiftAll k ts) (c'.shift k)
  | _, _, _, .none c => .none _
  | _, _, _, .comma hComma hNext hMore => .comma (hComma.shift k) (hNext.shift k) (hMore.shift k)
end

/-! ## Behind other blanks -/

namespace Cursor

variable {c c' d : Cursor}

theorem Token.from {token : List Char} (h : c.Token token c') (hd : d.skipBlanks = c.skipBlanks) :
    d.Token token c' := by
  rw [Token, hd]
  exact h

theorem Word.from {word : String} (h : c.Word word c') (hd : d.skipBlanks = c.skipBlanks) :
    d.Word word c' :=
  ⟨h.token.from hd, h.nonempty, h.letters, h.longest⟩

theorem Signs.from {odd : Bool} (h : c.Signs odd c') (hd : d.skipBlanks = c.skipBlanks) :
    ∃ d', d.Signs odd d' ∧ d'.skipBlanks = c'.skipBlanks := by
  cases h with
  | none => exact ⟨d, .none d, hd⟩
  | minus hSign hMore => exact ⟨c', .minus (hSign.from hd) hMore, rfl⟩

end Cursor

/-- Of the blanks in front of an expression nothing is remembered. -/
theorem Derives.from : ∀ {level : Level} {c c' d : Cursor} {t : Tree},
    Derives level c t c' → d.skipBlanks = c.skipBlanks → Derives level d t c'
  | _, c, c', d, _, .literal (n := n) hLongest hToken, hd =>
    @Derives.literal d c' n (hd ▸ hLongest) (hToken.from hd)
  | _, _, _, _, _, .name hWord hBare, hd => hd ▸ .name (hWord.from hd) hBare
  | _, _, _, _, _, .call hWord hOpen hFirst hMore hClose, hd =>
    hd ▸ .call (hWord.from hd) hOpen hFirst hMore hClose
  | _, _, _, _, _, .group hOpen hInner hClose, hd => .group (hOpen.from hd) hInner hClose
  | _, _, _, _, _, .operand negated h, hd => .operand negated (h.from hd)
  | _, _, _, _, _, .factorial hOperand hSign, hd => .factorial (hOperand.from hd) hSign
  | _, _, _, _, _, .percent hOperand hSign, hd => .percent (hOperand.from hd) hSign
  | _, _, _, _, _, .factor hSigns hOperand, hd => by
    obtain ⟨d', hSigns', hd'⟩ := hSigns.from hd
    exact .factor hSigns' (hOperand.from hd')
  | _, _, _, _, _, .base h, hd => .base (h.from hd)
  | _, _, _, _, _, .power hBase hSign hExponent, hd => .power (hBase.from hd) hSign hExponent
  | _, _, _, _, _, .single h, hd => .single (h.from hd)
  | _, _, _, _, _, .product hLeft hOperator hSign hRight, hd =>
    .product (hLeft.from hd) hOperator hSign hRight
  | _, _, _, _, _, .summand h, hd => .summand (h.from hd)
  | _, _, _, _, _, .sum hLeft hOperator hSign hRight, hd => .sum (hLeft.from hd) hOperator hSign hRight

/-! ## A whole text before others -/

/-- The character ends every expression it stands behind. -/
structure EndMark (mark : Char) : Prop where
  blank : Text.isBlank mark = false
  letter : mark.isAlpha = false
  bracket : mark ≠ '('
  numeral : Numeral.continues mark = false

theorem endMark_closer (b : Bracket) : EndMark b.closer := by
  cases b <;> exact ⟨by decide, by decide, by decide, by decide⟩

theorem EndMark.replaces {mark : Char} (h : EndMark mark) (after : List Char) :
    Replaces [] (mark :: after) where
  old := nofun
  blank := by
    rintro next ⟨⟩
    exact h.blank
  word := by
    refine .inr ?_
    rintro next ⟨⟩
    exact ⟨h.letter, h.bracket⟩

/-- A text is derived as a tree also where it stands inside of another text. -/
theorem Parses.inside {text : List Char} {t : Tree} (h : Parses text t) {mark : Char}
    (hMark : EndMark mark) (k : Nat) (after : List Char) :
    ∃ c, Derives .expression ⟨k, text ++ mark :: after⟩ (t.shift k) c ∧
      c.Token [mark] ⟨k + text.length + 1, after⟩ := by
  obtain ⟨c', hDerives, hEnd⟩ := h
  have hReplaces := hMark.replaces after
  have hPosition : c'.skipBlanks.position = text.length := by
    have hLength := (hDerives.ahead.trans c'.ahead_skipBlanks).end_eq
    rw [hEnd, List.length_nil] at hLength
    simpa using hLength
  have hToken : (c'.replace [] (mark :: after)).Token [mark] ⟨text.length + 1, after⟩ := by
    rw [Cursor.Token, (Cursor.skipBlanks_replace hReplaces List.nil_suffix).1, Cursor.replace, hEnd,
      hPosition]
    exact ⟨rfl, rfl⟩
  have hInner := hDerives.replace hReplaces List.nil_suffix (hToken.past hMark.numeral)
  have hStart : (Cursor.replace [] (mark :: after) ⟨0, text⟩).shift k = ⟨k, text ++ mark :: after⟩ := by
    simp [Cursor.replace, Cursor.shift]
  refine ⟨(c'.replace [] (mark :: after)).shift k, hStart ▸ hInner.shift k, ?_⟩
  have hBehind : (Cursor.shift k ⟨text.length + 1, after⟩) = ⟨k + text.length + 1, after⟩ := by
    simp only [Cursor.shift, Cursor.mk.injEq, and_true]
    omega
  exact hBehind ▸ hToken.shift k

end Expression
end Reckon
