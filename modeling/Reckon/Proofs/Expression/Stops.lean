import Reckon.Proofs.Expression.Levels
import Reckon.Proofs.Expression.Replacement

/-! # Where a reading stops

A reading goes down from an expression to the operand that is read at the moment: into brackets, calls
and exponents, and past operands that are complete and have their values. It stops at an operation that
fails, where it may go no further down, or where no operand can be read to its end.
-/
namespace Reckon.Expression
set_option autoImplicit false
open Text (isBlank)

/-! ## The way down -/

/-- Reading an expression of the first level at the first cursor comes to reading one of the second
    level at the second cursor, with `k` more levels open. All that was complete before has a value. -/
inductive Awaits (A : Arithmetic) : Level → Cursor → Nat → Level → Cursor → Prop
  | here (level : Level) (c : Cursor) : Awaits A level c 0 level c
  | group {level : Level} {c c₁ o : Cursor} {k : Nat} {b : Bracket} (hOpen : c.Token [b.opener] c₁)
      (h : Awaits A .expression c₁ k level o) : Awaits A .primary c (k + 1) level o
  | argument {level : Level} {c c₁ c₂ o : Cursor} {k : Nat} {word : String} {f : Builtin}
      (hWord : c.Word word c₁) (hFunction : Builtin.ofName? word = some f) (hOpen : c₁.Token ['('] c₂)
      (h : Awaits A .expression c₂ k level o) : Awaits A .primary c (k + 1) level o
  | nextArgument {level : Level} {c c₁ c₂ c₃ c₄ c₅ o : Cursor} {k : Nat} {word : String}
      {f : Builtin} {t : Tree} {ts : List Tree} {xs : List Number} (hWord : c.Word word c₁)
      (hFunction : Builtin.ofName? word = some f) (hOpen : c₁.Token ['('] c₂)
      (hFirst : Derives .expression c₂ t c₃) (hMore : Arguments c₃ ts c₄)
      (hValues : Tree.evalAll A (t :: ts) = .ok xs) (hComma : c₄.Token [','] c₅)
      (h : Awaits A .expression c₅ k level o) : Awaits A .primary c (k + 1) level o
  | factor {level : Level} {c c₁ o : Cursor} {k : Nat} {odd : Bool} (hSigns : c.Signs odd c₁)
      (h : Awaits A .primary c₁ k level o) : Awaits A .factor c k level o
  | base {level : Level} {c o : Cursor} {k : Nat} (h : Awaits A .factor c k level o) :
      Awaits A .power c k level o
  | exponent {level : Level} {c c₁ c₂ o : Cursor} {k : Nat} {a : Tree} {x : Number}
      (hBase : Derives .factor c a c₁) (hValue : a.eval A = .ok x) (hSign : c₁.Token ['^'] c₂)
      (h : Awaits A .power c₂ k level o) : Awaits A .power c (k + 1) level o
  | single {level : Level} {c o : Cursor} {k : Nat} (h : Awaits A .power c k level o) :
      Awaits A .product c k level o
  | product {level : Level} {c c₁ o : Cursor} {k width : Nat} {a : Tree} {x : Number} {op : Operator}
      (hLeft : Derives .product c a c₁) (hValue : a.eval A = .ok x)
      (hFound : productOperator? c₁.skipBlanks.rest = some (op, width))
      (h : Awaits A .power (c₁.skipBlanks.advance width) k level o) : Awaits A .product c k level o
  | summand {level : Level} {c o : Cursor} {k : Nat} (h : Awaits A .product c k level o) :
      Awaits A .expression c k level o
  | sum {level : Level} {c c₁ o : Cursor} {k width : Nat} {a : Tree} {x : Number} {op : Operator}
      (hLeft : Derives .expression c a c₁) (hValue : a.eval A = .ok x)
      (hFound : sumOperator? c₁.skipBlanks.rest = some (op, width))
      (h : Awaits A .product (c₁.skipBlanks.advance width) k level o) : Awaits A .expression c k level o

theorem Standing.ahead {operator? : List Char → Option (Operator × Nat)} {c : Cursor}
    (h : Standing operator?) {op : Operator} {width : Nat}
    (hFound : operator? c.skipBlanks.rest = some (op, width)) :
    c.Ahead (c.skipBlanks.advance width) :=
  c.ahead_skipBlanks.trans (Cursor.ahead_advance (h _ _ _ hFound).2)

theorem Awaits.ahead {A : Arithmetic} {level target : Level} {c o : Cursor} {k : Nat}
    (h : Awaits A level c k target o) : c.Ahead o := by
  induction h with
  | here level c => exact c.ahead_refl
  | group hOpen _ ih => exact hOpen.ahead.trans ih
  | argument hWord _ hOpen _ ih => exact (hWord.token.ahead.trans hOpen.ahead).trans ih
  | nextArgument hWord _ hOpen hFirst hMore _ hComma _ ih =>
    exact ((((hWord.token.ahead.trans hOpen.ahead).trans hFirst.ahead).trans hMore.ahead).trans
      hComma.ahead).trans ih
  | factor hSigns _ ih => exact hSigns.ahead.trans ih
  | base _ ih | single _ ih | summand _ ih => exact ih
  | exponent hBase _ hSign _ ih => exact (hBase.ahead.trans hSign.ahead).trans ih
  | product hLeft _ hFound _ ih => exact (hLeft.ahead.trans (standing_productOperator?.ahead hFound)).trans ih
  | sum hLeft _ hFound _ ih => exact (hLeft.ahead.trans (standing_sumOperator?.ahead hFound)).trans ih

/-- Why the primary behind the blanks at a cursor is not read to its end. -/
inductive Refuses (A : Arithmetic) (o : Cursor) : Complaint → Prop
  | endOfInput (h : o.skipBlanks.rest = []) :
      Refuses A o ⟨.endOfInput, o.skipBlanks.position, o.skipBlanks.position⟩
  | unexpected {next : Char} {rest : List Char} (h : o.skipBlanks.rest = next :: rest)
      (hStart : startsPrimary next = false) (hMinus : next ≠ '-') :
      Refuses A o ⟨.unexpected next, o.skipBlanks.position, o.skipBlanks.position⟩
  | lonePoint {rest : List Char} (h : o.skipBlanks.rest = '.' :: rest)
      (hDigit : ∀ next ∈ rest.head?, next.isDigit = false) :
      Refuses A o ⟨.lonePoint, o.skipBlanks.position, o.skipBlanks.position⟩
  | unknownFunction {c₁ c₂ : Cursor} {word : String} (hWord : o.Word word c₁)
      (hOpen : c₁.Token ['('] c₂) (hUnknown : Builtin.ofName? word = none) :
      Refuses A o ⟨.unknownFunction word, o.skipBlanks.position, c₁.skipBlanks.position⟩
  | openBracket {c₁ c₂ : Cursor} {b : Bracket} {t : Tree} {x : Number} (hOpen : o.Token [b.opener] c₁)
      (hInner : Derives .expression c₁ t c₂) (hValue : t.eval A = .ok x) (hEnded : Ended .expression c₂)
      (hClose : c₂.skipBlanks.rest.head? ≠ some b.closer) :
      Refuses A o ⟨.openBracket b, c₂.skipBlanks.position, c₂.skipBlanks.position⟩
  | openArguments {c₁ c₂ c₃ c₄ : Cursor} {word : String} {f : Builtin} {t : Tree} {ts : List Tree}
      {xs : List Number} (hWord : o.Word word c₁) (hFunction : Builtin.ofName? word = some f)
      (hOpen : c₁.Token ['('] c₂) (hFirst : Derives .expression c₂ t c₃) (hMore : Arguments c₃ ts c₄)
      (hValues : Tree.evalAll A (t :: ts) = .ok xs) (hEnded : Ended .expression c₄)
      (hComma : c₄.skipBlanks.rest.head? ≠ some ',') (hClose : c₄.skipBlanks.rest.head? ≠ some ')') :
      Refuses A o ⟨.openArguments f, c₄.skipBlanks.position, c₄.skipBlanks.position⟩
  | arityMismatch {c₁ c₂ c₃ c₄ c' : Cursor} {word : String} {f : Builtin} {t : Tree} {ts : List Tree}
      {xs : List Number} (hWord : o.Word word c₁) (hFunction : Builtin.ofName? word = some f)
      (hOpen : c₁.Token ['('] c₂) (hFirst : Derives .expression c₂ t c₃) (hMore : Arguments c₃ ts c₄)
      (hValues : Tree.evalAll A (t :: ts) = .ok xs) (hClose : c₄.Token [')'] c')
      (hArity : (t :: ts).length ≠ f.arity) :
      Refuses A o ⟨.arityMismatch f (t :: ts).length, o.skipBlanks.position, c'.position⟩

/-- The failure of some operation on some operands. -/
def Operates (A : Arithmetic) (failure : Failure) : Prop :=
  ∃ (action : Action) (stack : Stack), action.apply A stack = .error failure

/-- How the run ends at the end of the way, with `room` levels left. -/
inductive Leaf (A : Arithmetic) (deep : Cause) : Nat → Level → Cursor → Stop → Prop
  | operation {room : Nat} {level : Level} {o : Cursor} {stop : Stop} (h : Operates A stop.failure) :
      Leaf A deep room level o stop
  | deep (o : Cursor) : Leaf A deep 0 .power o ⟨.cause deep, o.position, o.position⟩
  | refusal {room : Nat} {o : Cursor} {e : Complaint} (h : Refuses A o e) :
      Leaf A deep (room + 1) .primary o e.stop

/-- Reading an expression of the level at the cursor, with `room` levels left, stops at the end of a
    way down. -/
def Stopped (A : Arithmetic) (deep : Cause) (level : Level) (room : Nat) (c : Cursor) (stop : Stop) : Prop :=
  ∃ k rest target o, room = k + rest ∧ Awaits A level c k target o ∧ Leaf A deep rest target o stop

section Ways

variable {A : Arithmetic} {deep : Cause} {level level' : Level} {room : Nat} {c c' : Cursor} {stop : Stop}

theorem Leaf.stopped (h : Leaf A deep room level c stop) : Stopped A deep level room c stop :=
  ⟨0, room, level, c, (Nat.zero_add room).symm, .here level c, h⟩

theorem Stopped.after (h : Stopped A deep level room c stop)
    (hStep : ∀ k target o, Awaits A level c k target o → Awaits A level' c' k target o) :
    Stopped A deep level' room c' stop := by
  obtain ⟨k, rest, target, o, rfl, hAwaits, hLeaf⟩ := h
  exact ⟨k, rest, target, o, rfl, hStep _ _ _ hAwaits, hLeaf⟩

theorem Stopped.within (h : Stopped A deep level room c stop)
    (hStep : ∀ k target o, Awaits A level c k target o → Awaits A level' c' (k + 1) target o) :
    Stopped A deep level' (room + 1) c' stop := by
  obtain ⟨k, rest, target, o, rfl, hAwaits, hLeaf⟩ := h
  exact ⟨k + 1, rest, target, o, by omega, hStep _ _ _ hAwaits, hLeaf⟩

/-- A reading without a complaint is stopped by an operation alone. -/
theorem operates_of_execute {α : Type} {m : Reading α} {a : α} {stack : Stack} (h : m.outcome = .ok a)
    (hStop : execute A m stack = .error stop) : Operates A stop.failure := by
  rcases execute_eq_error_iff.mp hStop with hRun | ⟨stack', e, -, hOutcome, -⟩
  · obtain ⟨before, i, after, stack', failure, -, -, hFails, rfl⟩ := run_eq_error_iff.mp hRun
    exact ⟨i.action, stack', hFails⟩
  · cases h.symm.trans hOutcome

theorem stopped_of_outcome {α : Type} {m : Reading α} {a : α} {stack : Stack} (h : m.outcome = .ok a)
    (hStop : execute A m stack = .error stop) : Stopped A deep level room c stop :=
  (Leaf.operation (operates_of_execute h hStop)).stopped

theorem Refuses.stopped {α : Type} {e : Complaint} {stack : Stack} (h : Refuses A c e)
    (hStop : execute A (.fail e : Reading α) stack = .error stop) :
    Stopped A deep .primary (room + 1) c stop := by
  cases hStop
  exact (Leaf.refusal h).stopped

end Ways

/-! ## Readers and their ways -/

/-- Whatever stops the reader stands at the end of a way down. -/
def Traced (A : Arithmetic) (deep : Cause) (level : Level) (room : Nat) (reader : Reader) : Prop :=
  ∀ c stack stop, execute A (reader c) stack = .error stop → Stopped A deep level room c stop

theorem traced_refuse (A : Arithmetic) (deep : Cause) : Traced A deep .power 0 (refuse deep) := by
  intro c stack stop h
  cases h
  exact (Leaf.deep c).stopped

/-- What the reader takes has a derivation and a value, and the value is put on the stack. -/
theorem Faithful.execute {A : Arithmetic} {level : Level} {room : Nat} {reader : Reader}
    (h : Faithful level room reader) {c c'' : Cursor} {stack stack' : Stack}
    (hRun : execute A (reader c) stack = .ok (c'', stack')) :
    ∃ t c' x, Derives level c t c' ∧ c'' = c'.skipBlanks ∧ t.depth < room ∧ Ended level c' ∧
      t.eval A = .ok x ∧ stack' = x :: stack := by
  obtain ⟨t, c', hDerives, rfl, hDepth, hEnded, hRead⟩ := h.read (execute_eq_ok_iff.mp hRun).2
  rw [hRead, execute_bind, Tree.execute_tree] at hRun
  cases hValue : t.eval A with
  | error stop =>
    rw [hValue] at hRun
    cases hRun
  | ok x =>
    rw [hValue] at hRun
    cases hRun
    exact ⟨t, c', x, hDerives, rfl, hDepth, hEnded, hValue, rfl⟩

/-! ## Arguments -/

theorem Arguments.snoc {c c₁ c₂ c' : Cursor} {ts : List Tree} {t : Tree} (h : Arguments c ts c₁)
    (hComma : c₁.Token [','] c₂) (hNext : Derives .expression c₂ t c') : Arguments c (ts ++ [t]) c' := by
  induction ts generalizing c with
  | nil =>
    cases h
    exact .comma hComma hNext (.none c')
  | cons first ts ih =>
    cases h with
    | comma hFirst hDerives hMore => exact .comma hFirst hDerives (ih hMore)

theorem evalAll_snoc {A : Arithmetic} {ts : List Tree} {t : Tree} {xs : List Number} {x : Number}
    (hValues : Tree.evalAll A ts = .ok xs) (hValue : t.eval A = .ok x) :
    Tree.evalAll A (ts ++ [t]) = .ok (xs ++ [x]) := by
  rw [Tree.evalAll_append, hValues]
  simp [Tree.evalAll, hValue]

section Readers

variable {A : Arithmetic} {deep : Cause} {room : Nat} {inside : Reader}

/-- Behind arguments that have been read, one more argument stops the reading, or all are read. -/
theorem execute_moreArguments (hFaithful : Faithful .expression room inside) {bound : Nat}
    {first c : Cursor} {ts : List Tree} {xs : List Number} (stack : Stack) (hRead : Arguments first ts c)
    (hValues : Tree.evalAll A ts = .ok xs) (hEnded : Ended .expression c)
    (hBound : c.skipBlanks.rest.length ≤ bound) :
    (∃ stop ts' xs' c₁ c₂ stack', execute A (moreArguments inside bound (ts.length + 1) c.skipBlanks)
        stack = .error stop ∧ Arguments first ts' c₁ ∧ Tree.evalAll A ts' = .ok xs' ∧
          c₁.Token [','] c₂ ∧ execute A (inside c₂) stack' = .error stop) ∨
      ∃ ts' xs' c' stack', execute A (moreArguments inside bound (ts.length + 1) c.skipBlanks) stack =
        .ok ((ts'.length + 1, c'.skipBlanks), stack') ∧ Arguments first ts' c' ∧
          Tree.evalAll A ts' = .ok xs' ∧ Ended .expression c' ∧ c'.skipBlanks.rest.head? ≠ some ',' := by
  induction bound generalizing c ts xs stack with
  | zero =>
    have hNil : c.skipBlanks.rest = [] := List.length_eq_zero_iff.mp (Nat.le_zero.mp hBound)
    exact .inr ⟨ts, xs, c, stack, rfl, hRead, hValues, hEnded, by simp [hNil]⟩
  | succ bound ih =>
    by_cases hComma : c.skipBlanks.rest.head? = some ','
    · obtain ⟨rest, hRest⟩ := List.head?_eq_some_iff.mp hComma
      have hToken : c.Token [','] (c.skipBlanks.advance 1) := Cursor.token_advance hRest
      have hMore : moreArguments inside (bound + 1) (ts.length + 1) c.skipBlanks =
          inside (c.skipBlanks.advance 1) >>= moreArguments inside bound (ts.length + 1 + 1) := by
        rw [moreArguments, hRest]
        rfl
      rw [hMore, execute_bind]
      cases hNext : execute A (inside (c.skipBlanks.advance 1)) stack with
      | error stop => exact .inl ⟨stop, ts, xs, c, _, stack, rfl, hRead, hValues, hToken, hNext⟩
      | ok r =>
        obtain ⟨t, c', x, hDerives, hPlace, -, hEnded', hValue, -⟩ := hFaithful.execute hNext
        have hShorter := hDerives.length_lt
        have hLength := hToken.length_le
        have hSkip := c'.length_skipBlanks
        rw [hRest, List.length_cons] at hBound
        rw [Cursor.rest_advance, hRest, List.drop_one, List.tail_cons] at hShorter
        have hCount : ts.length + 1 + 1 = (ts ++ [t]).length + 1 := by simp
        rw [ok_bind, hPlace, hCount]
        exact ih _ (hRead.snoc hToken hDerives) (evalAll_snoc hValues hValue) hEnded' (by omega)
    · rw [moreArguments_of_head hComma]
      exact .inr ⟨ts, xs, c, stack, rfl, hRead, hValues, hEnded, hComma⟩

/-! ## Primaries, factors and powers -/

variable {c c₁ c₂ : Cursor} {stack : Stack} {stop : Stop}

theorem stopped_numeral {first : Char} {rest : List Char} (hRest : c.skipBlanks.rest = first :: rest)
    (hFirst : first.isDigit = true ∨ first = '.')
    (h : execute A (numeral c.skipBlanks) stack = .error stop) :
    Stopped A deep .primary (room + 1) c stop := by
  rw [numeral] at h
  split at h
  · rename_i hScan
    rw [hRest] at hScan
    obtain ⟨rfl, hDigit⟩ := Numeral.lonePoint_of_scan?_eq_none hScan hFirst
    exact Refuses.stopped (.lonePoint hRest hDigit) h
  · exact stopped_of_outcome rfl h

/-- Behind its arguments a call is refused for their number or for the missing bracket. -/
theorem stopped_callEnd {c₃ c₄ : Cursor} {word : String} {f : Builtin} {t : Tree} {ts : List Tree}
    {xs : List Number} (hWord : c.Word word c₁) (hFunction : Builtin.ofName? word = some f)
    (hOpen : c₁.Token ['('] c₂) (hFirst : Derives .expression c₂ t c₃) (hMore : Arguments c₃ ts c₄)
    (hValues : Tree.evalAll A (t :: ts) = .ok xs) (hEnded : Ended .expression c₄)
    (hComma : c₄.skipBlanks.rest.head? ≠ some ',')
    (h : execute A (callEnd f c.skipBlanks.position (ts.length + 1) c₄.skipBlanks) stack = .error stop) :
    Stopped A deep .primary (room + 1) c stop := by
  by_cases hHead : c₄.skipBlanks.rest.head? = some ')'
  · obtain ⟨rest, hRest⟩ := List.head?_eq_some_iff.mp hHead
    simp only [callEnd, hRest] at h
    split at h
    · exact stopped_of_outcome rfl h
    · rename_i hArity
      have hClose : c₄.Token [')'] (c₄.skipBlanks.advance 1) := Cursor.token_advance hRest
      exact Refuses.stopped
        (.arityMismatch hWord hFunction hOpen hFirst hMore hValues hClose hArity) h
  · rw [callEnd_of_head hHead] at h
    exact Refuses.stopped
      (.openArguments hWord hFunction hOpen hFirst hMore hValues hEnded hComma hHead) h

theorem head_minusSigns (negated : Bool) (position : Nat) (rest : List Char) :
    (minusSigns negated position rest).2.rest.head? ≠ some '-' := by
  induction rest generalizing negated position with
  | nil => simp [minusSigns]
  | cons next rest ih =>
    rw [minusSigns]
    split
    · exact ih _ _
    · split
      · exact ih _ _
      · rename_i hMinus
        simpa using hMinus

theorem exists_outcome_suffixes (negated : Bool) (position : Nat) (rest : List Char) :
    ∃ c', (suffixes negated position rest).outcome = .ok c' := by
  induction rest generalizing position with
  | nil => exact ⟨_, rfl⟩
  | cons next rest ih =>
    rw [suffixes]
    split
    · exact ih _
    · split
      · exact ih _
      · split
        · exact ih _
        · exact ⟨_, rfl⟩

theorem exists_outcome_negation (negated : Bool) (c : Cursor) :
    ∃ c', (negation negated c).outcome = .ok c' := by
  cases negated with
  | false => exact ⟨c, rfl⟩
  | true => exact ⟨c, rfl⟩

section Inside

variable (hInside : Traced A deep .expression room inside) (hFaithful : Faithful .expression room inside)
include hInside hFaithful

theorem stopped_call {word : String} {f : Builtin} (hWord : c.Word word c₁)
    (hFunction : Builtin.ofName? word = some f) (hOpen : c₁.Token ['('] c₂)
    (h : execute A (call inside f c.skipBlanks.position c₂) stack = .error stop) :
    Stopped A deep .primary (room + 1) c stop := by
  rw [call_eq_callEnd, execute_bind] at h
  cases hReadFirst : execute A (inside c₂) stack with
  | error stop' =>
    rw [hReadFirst] at h
    cases h
    exact (hInside _ _ _ hReadFirst).within fun _ _ _ => .argument hWord hFunction hOpen
  | ok r =>
    obtain ⟨t, c₃, x, hFirst, hPlace, -, hEnded, hValue, -⟩ := hFaithful.execute hReadFirst
    rw [hReadFirst, ok_bind, hPlace, execute_bind] at h
    have hNone : Tree.evalAll A [] = .ok [] := rfl
    have hAll {ts : List Tree} {xs : List Number} (hValues : Tree.evalAll A ts = .ok xs) :
        Tree.evalAll A (t :: ts) = .ok (x :: xs) :=
      Tree.evalAll_cons_eq_ok_iff.mpr ⟨x, xs, hValue, hValues, rfl⟩
    rcases execute_moreArguments hFaithful r.2 (.none c₃) hNone hEnded (Nat.le_refl _) with
      ⟨stop', ts, xs, c₄, c₅, stack', hMore, hArguments, hValues, hComma, hNext⟩ |
        ⟨ts, xs, c₄, stack', hMore, hArguments, hValues, hEnded', hLast⟩
    · rw [List.length_nil, Nat.zero_add] at hMore
      rw [hMore] at h
      cases h
      exact (hInside _ _ _ hNext).within fun _ _ _ =>
        .nextArgument hWord hFunction hOpen hFirst hArguments (hAll hValues) hComma
    · rw [List.length_nil, Nat.zero_add] at hMore
      rw [hMore, ok_bind] at h
      exact stopped_callEnd hWord hFunction hOpen hFirst hArguments (hAll hValues) hEnded' hLast h

theorem stopped_name {first : Char} {rest : List Char}
    (hRest : c.skipBlanks.rest = first :: rest) (hFirst : first.isAlpha = true)
    (h : execute A (name inside c.skipBlanks) stack = .error stop) :
    Stopped A deep .primary (room + 1) c stop := by
  have hWord := word_of_head hRest hFirst
  rw [name] at h
  split at h
  · rename_i after hOpen
    have hToken : Cursor.Token _ ['('] _ := Cursor.token_advance hOpen
    split at h
    · rename_i hUnknown
      exact Refuses.stopped (.unknownFunction hWord hToken hUnknown) h
    · rename_i f hFunction
      exact stopped_call hInside hFaithful hWord hFunction hToken h
  · exact stopped_of_outcome rfl h

theorem stopped_group {b : Bracket} {rest : List Char}
    (hRest : c.skipBlanks.rest = b.opener :: rest)
    (h : execute A (group inside b c.skipBlanks) stack = .error stop) :
    Stopped A deep .primary (room + 1) c stop := by
  have hOpen : c.Token [b.opener] (c.skipBlanks.advance 1) := Cursor.token_advance hRest
  rw [group_eq_groupEnd, execute_bind] at h
  rcases bind_eq_error_iff.mp h with hError | ⟨⟨c₂', stack'⟩, hOk, hError⟩
  · exact (hInside _ _ _ hError).within fun _ _ _ => .group hOpen
  · obtain ⟨t, c₂, x, hInner, rfl, -, hEnded, hValue, -⟩ := hFaithful.execute hOk
    by_cases hClose : c₂.skipBlanks.rest.head? = some b.closer
    · obtain ⟨rest, hRest'⟩ := List.head?_eq_some_iff.mp hClose
      simp only [groupEnd, hRest', if_true] at hError
      cases hError
    · have hFail : groupEnd b c₂.skipBlanks = c₂.skipBlanks.fail (.openBracket b) := by
        rw [groupEnd]
        split
        · rename_i closer rest hRest'
          rw [if_neg fun hCloser => hClose (by rw [hRest', hCloser]; rfl)]
        · rfl
      rw [hFail] at hError
      exact Refuses.stopped (.openBracket hOpen hInner hValue hEnded hClose) hError

theorem stopped_primary (hMinus : c.skipBlanks.rest.head? ≠ some '-')
    (h : execute A (primary inside c.skipBlanks) stack = .error stop) :
    Stopped A deep .primary (room + 1) c stop := by
  rw [primary] at h
  split at h
  · rename_i hNil
    exact Refuses.stopped (.endOfInput hNil) h
  · rename_i first rest hRest
    split at h
    · rename_i hAlpha
      exact stopped_name hInside hFaithful hRest hAlpha h
    · rename_i hAlpha
      split at h
      · rename_i hNumeral
        exact stopped_numeral hRest (by simpa using hNumeral) h
      · rename_i hNumeral
        split at h
        · rename_i b hBracket
          obtain rfl := Bracket.ofOpener?_eq_some_iff.mp hBracket
          exact stopped_group hInside hFaithful hRest h
        · rename_i hBracket
          have hStart : startsPrimary first = false := by
            simpa [startsPrimary, hAlpha, hBracket] using hNumeral
          exact Refuses.stopped (.unexpected hRest hStart fun hSign => hMinus (by rw [hRest, hSign]; rfl)) h

theorem traced_factor : Traced A deep .factor (room + 1) (factor inside) := by
  intro c stack stop h
  obtain ⟨odd, c₁, hSigns, hMinus⟩ := signs_minusSigns false c.position c.rest
  have hHead := head_minusSigns false c.position c.rest
  rw [hMinus] at hHead
  rw [factor_eq_operand, hMinus, operand, execute_bind] at h
  rcases bind_eq_error_iff.mp h with hPrimary | ⟨r, -, hRest⟩
  · have hStopped := stopped_primary hInside hFaithful hHead hPrimary
    exact hStopped.after fun _ _ _ => .factor hSigns
  · rw [execute_bind] at hRest
    rcases bind_eq_error_iff.mp hRest with hSuffixes | ⟨r', -, hNegation⟩
    · obtain ⟨c', hOutcome⟩ := exists_outcome_suffixes (false ^^ odd) r.1.position r.1.rest
      exact stopped_of_outcome hOutcome hSuffixes
    · obtain ⟨c', hOutcome⟩ := exists_outcome_negation (false ^^ odd) r'.1
      exact stopped_of_outcome hOutcome hNegation

theorem traced_powerOf {exponent : Reader} (hExponent : Traced A deep .power room exponent) :
    Traced A deep .power (room + 1) (powerOf inside exponent) := by
  intro c stack stop h
  rw [powerOf_eq_powerEnd, execute_bind] at h
  rcases bind_eq_error_iff.mp h with hFactor | ⟨⟨c₁', stack'⟩, hOk, hRest⟩
  · exact (traced_factor hInside hFaithful _ _ _ hFactor).after fun _ _ _ => .base
  · obtain ⟨a, c₁, x, hBase, rfl, -, -, hValue, -⟩ := (faithful_factor hFaithful).execute hOk
    by_cases hSign : c₁.skipBlanks.rest.head? = some '^'
    · obtain ⟨rest, hText⟩ := List.head?_eq_some_iff.mp hSign
      have hToken : c₁.Token ['^'] (c₁.skipBlanks.advance 1) := Cursor.token_advance hText
      simp only [powerEnd, hText] at hRest
      rw [execute_bind] at hRest
      rcases bind_eq_error_iff.mp hRest with hRight | ⟨r, -, hEmit⟩
      · exact (hExponent _ _ _ hRight).within fun _ _ _ => .exponent hBase hValue hToken
      · exact stopped_of_outcome rfl hEmit
    · rw [powerEnd_of_head hSign] at hRest
      cases hRest

end Inside

/-! ## Chains -/

/-- A way down from an operand is one from a chain that begins with it, or goes on with it. -/
structure Climbs (A : Arithmetic) (upper lower : Level)
    (operator? : List Char → Option (Operator × Nat)) : Prop where
  first {level : Level} {c o : Cursor} {k : Nat} : Awaits A lower c k level o → Awaits A upper c k level o
  next {level : Level} {c c₁ o : Cursor} {k width : Nat} {a : Tree} {x : Number} {op : Operator} :
    Derives upper c a c₁ → a.eval A = .ok x → operator? c₁.skipBlanks.rest = some (op, width) →
      Awaits A lower (c₁.skipBlanks.advance width) k level o → Awaits A upper c k level o

theorem climbs_product (A : Arithmetic) : Climbs A .product .power productOperator? :=
  ⟨.single, .product⟩

theorem climbs_sum (A : Arithmetic) : Climbs A .expression .product sumOperator? :=
  ⟨.summand, .sum⟩

variable {upper lower : Level} {operators : List Operator}
  {operator? : List Char → Option (Operator × Nat)} {reader : Reader}

theorem execute_binary {op : Operator} {a b : Tree} {x y : Number} (c : Cursor) (hLeft : a.eval A = .ok x)
    (hRight : b.eval A = .ok y) (stack : Stack) :
    execute A (c.emit (.binary op)) (y :: x :: stack) =
      (fun z => ((), z :: stack)) <$> (Tree.binary op a b c.position).eval A := by
  rw [Cursor.emit, execute_emit, Tree.eval, hLeft, hRight, ok_bind, ok_bind, ← map_mapError]
  rfl

theorem stopped_links (hChains : Chains upper lower operators operator?)
    (hClimbs : Climbs A upper lower operator?) (hReader : Traced A deep lower room reader)
    (hFaithful : Faithful lower room reader) {bound : Nat} {a : Tree} {x : Number}
    (hLeft : Derives upper c a c₁) (hValue : a.eval A = .ok x)
    (h : execute A (links operator? reader bound c₁.skipBlanks) (x :: stack) = .error stop) :
    Stopped A deep upper room c stop := by
  induction bound generalizing c₁ a x with
  | zero => cases h
  | succ bound ih =>
    rw [links] at h
    split at h
    · cases h
    · rename_i op width hFound
      rw [execute_bind] at h
      rcases bind_eq_error_iff.mp h with hOperand | ⟨⟨c₂', stack'⟩, hOk, hRest⟩
      · exact (hReader _ _ _ hOperand).after fun _ _ _ => hClimbs.next hLeft hValue hFound
      · obtain ⟨b, c₂, y, hRight, rfl, -, -, hValue', rfl⟩ := hFaithful.execute hOk
        rw [execute_bind, execute_binary c₂.skipBlanks hValue hValue'] at hRest
        rcases bind_eq_error_iff.mp hRest with hEmit | ⟨⟨u, stack''⟩, hEmit, hMore⟩
        · rw [← execute_binary c₂.skipBlanks hValue hValue' stack] at hEmit
          exact stopped_of_outcome rfl hEmit
        · obtain ⟨z, hResult, hStack⟩ := map_eq_ok_iff.mp hEmit
          cases hStack
          -- The operand just read goes to the right of all that was read before.
          obtain ⟨hMember, rfl, rest, hText⟩ := hChains.found hFound
          exact ih (hChains.link hLeft hMember (Cursor.token_advance hText) hRight) hResult hMore

theorem traced_chain (hChains : Chains upper lower operators operator?)
    (hClimbs : Climbs A upper lower operator?) (hReader : Traced A deep lower room reader)
    (hFaithful : Faithful lower room reader) : Traced A deep upper room (chain operator? reader) := by
  intro c stack stop h
  rw [chain, execute_bind] at h
  rcases bind_eq_error_iff.mp h with hOperand | ⟨⟨c₁', stack'⟩, hOk, hRest⟩
  · exact (hReader _ _ _ hOperand).after fun _ _ _ => hClimbs.first
  · obtain ⟨a, c₁, x, hFirst, rfl, -, -, hValue, rfl⟩ := hFaithful.execute hOk
    exact stopped_links hChains hClimbs hReader hFaithful (hChains.operand hFirst) hValue hRest

end Readers

/-! ## Whole texts -/

section Texts

variable {A : Arithmetic} {deep : Cause}

theorem faithful_powerWithin (deep : Cause) (room : Nat) :
    Faithful .power room (powerWithin deep room) := by
  cases room with
  | zero => exact faithful_refuse _ deep
  | succ room => exact faithful_power deep room

theorem traced_sumsOf {room : Nat} (h : Traced A deep .power room (powerWithin deep room)) :
    Traced A deep .expression room (expression deep room) := by
  have hFaithful := faithful_powerWithin deep room
  rw [expression_eq_sumsOf]
  exact traced_chain chains_sum (climbs_sum A)
    (traced_chain chains_product (climbs_product A) h hFaithful) (faithful_productsOf hFaithful)

theorem traced_powerWithin (A : Arithmetic) (deep : Cause) (room : Nat) :
    Traced A deep .power room (powerWithin deep room) := by
  induction room with
  | zero => exact traced_refuse A deep
  | succ room ih =>
    rw [powerWithin_succ]
    exact traced_powerOf (traced_sumsOf ih) (faithful_expression deep room) ih

/-- A text comes to a stop on a way down, or behind an expression that is complete and has a value. -/
theorem stopped_of_readWithin {room : Nat} {text : List Char} {stack : Stack} {stop : Stop}
    (h : execute A (readWithin deep room ⟨0, text⟩) stack = .error stop) :
    Stopped A deep .expression room ⟨0, text⟩ stop ∨
      ∃ t c' x next rest, Derives .expression ⟨0, text⟩ t c' ∧ t.eval A = .ok x ∧ t.depth < room ∧
        Ended .expression c' ∧ c'.skipBlanks.rest = next :: rest ∧
          stop = ⟨.cause (.trailing next), c'.skipBlanks.position, c'.skipBlanks.position⟩ := by
  rw [readWithin, execute_bind] at h
  rcases bind_eq_error_iff.mp h with hExpression | ⟨⟨c'', stack'⟩, hOk, hEnd⟩
  · exact .inl (traced_sumsOf (traced_powerWithin A deep room) _ _ _ hExpression)
  · obtain ⟨t, c', x, hDerives, rfl, hDepth, hEnded, hValue, -⟩ :=
      (faithful_expression deep room).execute hOk
    right
    rw [textEnd] at hEnd
    split at hEnd
    · cases hEnd
    · rename_i next rest hRest
      cases hEnd
      exact ⟨t, c', x, next, rest, hDerives, hValue, hDepth, hEnded, hRest, rfl⟩

/-- The four ways in which a text can fail to have a value. -/
theorem value_stops [Interpreter] {limit : Int} {text : List Char} {stop : Stop}
    (h : value A limit text = .error stop) :
    Operates A stop.failure ∨
      (∃ o, Awaits A .expression ⟨0, text⟩ (levels limit) .power o ∧
        stop = ⟨.cause (tooDeep limit), o.position, o.position⟩) ∨
      (∃ k o e, k < levels limit ∧ Awaits A .expression ⟨0, text⟩ k .primary o ∧ Refuses A o e ∧
        stop = e.stop) ∨
      ∃ t c' x next rest, Derives .expression ⟨0, text⟩ t c' ∧ t.eval A = .ok x ∧
        t.nesting ≤ levels limit ∧ Ended .expression c' ∧ c'.skipBlanks.rest = next :: rest ∧
          stop = ⟨.cause (.trailing next), c'.skipBlanks.position, c'.skipBlanks.position⟩ := by
  rcases stopped_of_readWithin (value_eq_error_iff.mp h) with
    ⟨k, rest, target, o, hRoom, hAwaits, hLeaf⟩ |
      ⟨t, c', x, next, rest, hDerives, hValue, hDepth, hEnded, hRest, hStop⟩
  · cases hLeaf with
    | operation hOperates => exact .inl hOperates
    | deep =>
      rw [hRoom]
      exact .inr (.inl ⟨o, hAwaits, rfl⟩)
    | refusal hRefuses => exact .inr (.inr (.inl ⟨k, o, _, by omega, hAwaits, hRefuses, rfl⟩))
  · refine .inr (.inr (.inr ⟨t, c', x, next, rest, hDerives, hValue, ?_, hEnded, hRest, hStop⟩))
    rw [Tree.nesting]
    omega

end Texts

end Reckon.Expression
