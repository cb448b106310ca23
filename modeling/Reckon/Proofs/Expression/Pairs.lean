import Reckon.Proofs.Expression.Visits

/-! # Two texts read side by side

Cursors of two texts are paired, and the pairing is kept by every token. Then both runs end alike: with the
same value, or with the same failure at offsets that belong together. Where the texts differ they differ
between tokens, or inside of brackets that have the same value in both.
-/
namespace Reckon.Expression
set_option autoImplicit false
open Text (isBlank)

/-! ## Single tokens -/

theorem minusSigns_of_token {c c' : Cursor} (hSign : c.Token ['-'] c') (negated : Bool) :
    minusSigns negated c.position c.rest = minusSigns (!negated) c'.position c'.rest := by
  rw [← minusSigns_skipBlanks]
  change minusSigns negated c.skipBlanks.position c.skipBlanks.rest = _
  rw [hSign.1, List.singleton_append, minusSigns, if_neg (by decide), if_pos rfl, hSign.2]
  rfl

theorem groupEnd_of_head {b : Bracket} {c : Cursor} (h : c.rest.head? ≠ some b.closer) :
    groupEnd b c = c.fail (.openBracket b) := by
  rw [groupEnd]
  split
  · rename_i closer rest hRest
    rw [if_neg fun hCloser => h (by rw [hRest, hCloser]; rfl)]
  · rfl

theorem groupEnd_of_closer {b : Bracket} {c : Cursor} (h : c.rest.head? = some b.closer) :
    groupEnd b c = pure (c.advance 1) := by
  obtain ⟨rest, hRest⟩ := List.head?_eq_some_iff.mp h
  simp only [groupEnd, hRest, if_true]

theorem depthAll_snoc (ts : List Tree) (t : Tree) :
    Tree.depthAll (ts ++ [t]) = max (Tree.depthAll ts) t.depth := by
  induction ts with
  | nil => simp [Tree.depthAll]
  | cons first ts ih => rw [List.cons_append, Tree.depthAll, Tree.depthAll, ih, Nat.max_assoc]

/-- The argument that was read behind a comma is added to those before it. -/
theorem exists_argument {A : Arithmetic} {deep : Cause} {room : Nat} {c₃ c₄ c₅ e : Cursor} {t : Tree}
    {ts : List Tree} {xs : List Number} {stack stack' : Stack} (hMore : Arguments c₃ ts c₄)
    (hDepths : Tree.depthAll (t :: ts) < room) (hValues : Tree.evalAll A (t :: ts) = .ok xs)
    (hComma : c₄.Token [','] c₅)
    (hOk : execute A (expression deep room c₅) stack = .ok (e, stack')) :
    ∃ t' c₆ x, e = c₆.skipBlanks ∧ c₅.Ahead c₆ ∧ Arguments c₃ (ts ++ [t']) c₆ ∧
      Tree.depthAll (t :: (ts ++ [t'])) < room ∧ Tree.evalAll A (t :: (ts ++ [t'])) = .ok (xs ++ [x]) := by
  obtain ⟨t', c₆, x, hDerives, rfl, hDepth, -, hValue, -⟩ := (faithful_expression deep room).execute hOk
  refine ⟨t', c₆, x, rfl, hDerives.ahead, hMore.snoc hComma hDerives, ?_, evalAll_snoc hValues hValue⟩
  rw [← List.cons_append, depthAll_snoc]
  omega

theorem sumOperator?_congr {text text' : List Char} (h : text'.head? = text.head?) :
    sumOperator? text' = sumOperator? text := by
  cases text with
  | nil => rw [List.head?_eq_none_iff.mp h]
  | cons next rest =>
    obtain ⟨rest', rfl⟩ := List.head?_eq_some_iff.mp h
    by_cases hPlus : next = '+'
    · rw [hPlus]
      rfl
    · by_cases hMinus : next = '-'
      · rw [hMinus]
        rfl
      · simp [sumOperator?, hPlus, hMinus]

theorem productOperator?_congr {text text' : List Char} (h : text'.head? = text.head?)
    (hSlash : text.head? = some '/' → (text'.tail.head? = some '/' ↔ text.tail.head? = some '/')) :
    productOperator? text' = productOperator? text := by
  cases text with
  | nil => rw [List.head?_eq_none_iff.mp h]
  | cons next rest =>
    obtain ⟨rest', rfl⟩ := List.head?_eq_some_iff.mp h
    by_cases hTimes : next = 'x'
    · rw [hTimes]
      rfl
    · by_cases hDivision : next = '/'
      · rw [hDivision] at hSlash ⊢
        have hSame : rest'.head? = some '/' ↔ rest.head? = some '/' := hSlash rfl
        by_cases hDouble : rest.head? = some '/'
        · obtain ⟨_, hRest⟩ := List.head?_eq_some_iff.mp hDouble
          obtain ⟨_, hRest'⟩ := List.head?_eq_some_iff.mp (hSame.mpr hDouble)
          rw [hRest, hRest']
          rfl
        · rw [productOperator?_div hDouble, productOperator?_div fun hDouble' => hDouble (hSame.mp hDouble')]
      · simp [productOperator?, hTimes, hDivision]

/-! ## Pairings -/

/-- Which cursors of two texts belong together, which offsets of failures do, and which stops of one run
    are no matter of the other. -/
structure Pairing where
  near : Cursor → Cursor → Prop
  place : Nat → Nat → Prop
  excused : Stop → Prop

namespace Pairing

/-- Paired cursors that stand at a token or at the end of the text. -/
def Firm (E : Pairing) (c d : Cursor) : Prop := E.near c d ∧ c.skipBlanks = c ∧ d.skipBlanks = d

/-- Two executions end alike, or one of them with a stop that is excused. -/
inductive Matches {α β : Type} (E : Pairing) (R : α → β → Prop) :
    Except Stop (α × Stack) → Except Stop (β × Stack) → Prop
  | ok {a : α} {b : β} {stack : Stack} (h : R a b) : Matches E R (.ok (a, stack)) (.ok (b, stack))
  | error {failure : Failure} {p q reached reached' : Nat} (h : E.place p q) :
      Matches E R (.error ⟨failure, p, reached⟩) (.error ⟨failure, q, reached'⟩)
  | left {stop : Stop} {result : Except Stop (β × Stack)} (h : E.excused stop) :
      Matches E R (.error stop) result
  | right {stop : Stop} {result : Except Stop (α × Stack)} (h : E.excused stop) :
      Matches E R result (.error stop)

/-- The reading ends at the cursor with one more value, unless it ends with a stop that is excused. -/
def Yields (E : Pairing) (A : Arithmetic) (m : Reading Cursor) (stack : Stack) (c : Cursor) (x : Number) :
    Prop :=
  execute A m stack = .ok (c, x :: stack) ∨ ∃ stop, execute A m stack = .error stop ∧ E.excused stop

/-- Every token that the run takes off the first text stands in the second text too, and the cursors behind
    it are paired. The insides of paired brackets may differ if both yield the same value. -/
structure Lawful (E : Pairing) (A : Arithmetic) (deep : Cause) (levels : Nat) (text : List Char) : Prop where
  place {c d : Cursor} : E.near c d → E.place c.position d.position
  skipBlanks {c d : Cursor} : E.near c d → E.near c.skipBlanks d.skipBlanks
  head? {c d : Cursor} : E.Firm c d → d.rest.head? = c.rest.head?
  advance {c d : Cursor} {next : Char} : E.Firm c d → c.rest.head? = some next →
    Bracket.ofOpener? next = none → E.near (c.advance 1) (d.advance 1)
  slash {room : Nat} {c c₁ d : Cursor} {a : Tree} {x : Number} : Visits A levels text .product room c →
    Derives .product c a c₁ → a.depth < room → a.eval A = .ok x → E.Firm c₁.skipBlanks d →
      c₁.skipBlanks.rest.head? = some '/' →
        ((d.advance 1).rest.head? = some '/' ↔ (c₁.skipBlanks.advance 1).rest.head? = some '/')
  letters {room : Nat} {c d : Cursor} : Visits A levels text .primary (room + 1) c →
    E.Firm c.skipBlanks d → d.rest.takeWhile Char.isAlpha = c.skipBlanks.rest.takeWhile Char.isAlpha ∧
      E.near (c.skipBlanks.advance (c.skipBlanks.rest.takeWhile Char.isAlpha).length)
        (d.advance (c.skipBlanks.rest.takeWhile Char.isAlpha).length)
  scan {room : Nat} {c d : Cursor} : Visits A levels text .primary (room + 1) c →
    E.Firm c.skipBlanks d →
      Numeral.scan? c.skipBlanks.rest = none ∧ Numeral.scan? d.rest = none ∨
      ∃ n rest rest', Numeral.scan? c.skipBlanks.rest = some (n, rest) ∧
        Numeral.scan? d.rest = some (n, rest') ∧
          E.near (c.skipBlanks.advance n.text.length) (d.advance n.text.length)
  bracket {c d : Cursor} {b : Bracket} : E.Firm c d → c.rest.head? = some b.opener →
    E.near (c.advance 1) (d.advance 1) ∨
      ∃ c₁ d₁ x, c₁.rest.head? = some b.closer ∧ d₁.rest.head? = some b.closer ∧
        E.near (c₁.advance 1) (d₁.advance 1) ∧ ∀ room stack,
          E.Yields A (expression deep room (c.advance 1)) stack c₁ x ∧
            E.Yields A (expression deep room (d.advance 1)) stack d₁ x

/-! ## Executions that end alike -/

section Matches

variable {α β γ δ : Type} {E : Pairing} {A : Arithmetic} {R : α → β → Prop} {S : γ → δ → Prop}
  {stack : Stack}

theorem Matches.bind {m : Reading α} {m' : Reading β} {f : α → Reading γ} {g : β → Reading δ}
    (h : E.Matches R (execute A m stack) (execute A m' stack))
    (hNext : ∀ a b stack', R a b → execute A m stack = .ok (a, stack') → execute A m' stack = .ok (b, stack') →
      E.Matches S (execute A (f a) stack') (execute A (g b) stack')) :
    E.Matches S (execute A (m >>= f) stack) (execute A (m' >>= g) stack) := by
  rw [execute_bind, execute_bind]
  generalize execute A m stack = result at h hNext
  generalize execute A m' stack = result' at h hNext
  cases h with
  | ok h => exact hNext _ _ _ h rfl rfl
  | error h => exact .error h
  | left h => exact .left h
  | right h => exact .right h

theorem matches_pure {a : α} {b : β} (h : R a b) (stack : Stack) :
    E.Matches R (execute A (pure a) stack) (execute A (pure b) stack) := .ok h

theorem matches_fail {cause : Cause} {p q reached reached' : Nat} (h : E.place p q) (stack : Stack) :
    E.Matches R (execute A (.fail ⟨cause, p, reached⟩) stack)
      (execute A (.fail ⟨cause, q, reached'⟩) stack) := .error h

theorem matches_instruction {action : Action} {p q reached reached' : Nat} (h : E.place p q) (stack : Stack) :
    E.Matches (fun _ _ => True) (execute A (.emit ⟨action, p, reached⟩) stack)
      (execute A (.emit ⟨action, q, reached'⟩) stack) := by
  rw [execute_emit, execute_emit]
  cases action.apply A stack with
  | error failure => exact .error h
  | ok stack' => exact .ok trivial

theorem matches_emit {action : Action} {p q reached reached' : Nat} (h : E.place p q)
    {m : Reading γ} {m' : Reading δ} (stack : Stack)
    (hNext : ∀ stack', E.Matches S (execute A m stack') (execute A m' stack')) :
    E.Matches S (execute A (Reading.emit ⟨action, p, reached⟩ >>= fun _ => m) stack)
      (execute A (Reading.emit ⟨action, q, reached'⟩ >>= fun _ => m') stack) := by
  exact (matches_instruction h stack).bind fun _ _ stack' _ _ _ => hNext stack'

theorem Yields.bind {m m' : Reading Cursor} {c₁ d₁ : Cursor} {x : Number} {f : Cursor → Reading γ}
    {g : Cursor → Reading δ} (h : E.Yields A m stack c₁ x) (h' : E.Yields A m' stack d₁ x)
    (hNext : E.Matches S (execute A (f c₁) (x :: stack)) (execute A (g d₁) (x :: stack))) :
    E.Matches S (execute A (m >>= f) stack) (execute A (m' >>= g) stack) := by
  rw [execute_bind, execute_bind]
  rcases h with hOk | ⟨stop, hStop, hExcused⟩
  · rcases h' with hOk' | ⟨stop, hStop, hExcused⟩
    · rw [hOk, hOk', ok_bind, ok_bind]
      exact hNext
    · rw [hStop, error_bind]
      exact .right hExcused
  · rw [hStop, error_bind]
    exact .left hExcused

end Matches

/-! ## Signs around a primary -/

section Readers

variable {E : Pairing} {A : Arithmetic} {deep : Cause} {levels room : Nat} {text : List Char} {c d : Cursor}
variable (hE : E.Lawful A deep levels text)
include hE

theorem Lawful.firm (h : E.near c d) : E.Firm c.skipBlanks d.skipBlanks :=
  ⟨hE.skipBlanks h, c.skipBlanks_skipBlanks, d.skipBlanks_skipBlanks⟩

/-- A token of one character on both sides, and the paired cursors behind it. -/
theorem Lawful.token {next : Char} (h : E.near c d) (hNext : c.skipBlanks.rest.head? = some next)
    (hOpener : Bracket.ofOpener? next = none) : c.Token [next] (c.skipBlanks.advance 1) ∧
      d.Token [next] (d.skipBlanks.advance 1) ∧ E.near (c.skipBlanks.advance 1) (d.skipBlanks.advance 1) := by
  have hFirm := hE.firm h
  obtain ⟨rest, hRest⟩ := List.head?_eq_some_iff.mp hNext
  obtain ⟨rest', hRest'⟩ := List.head?_eq_some_iff.mp ((hE.head? hFirm).trans hNext)
  exact ⟨Cursor.token_advance hRest, Cursor.token_advance hRest', hE.advance hFirm hNext hOpener⟩

theorem Lawful.firm_minusSigns {c d : Cursor} (negated : Bool) (h : E.near c d) :
    (minusSigns negated c.position c.rest).1 = (minusSigns negated d.position d.rest).1 ∧
      E.Firm (minusSigns negated c.position c.rest).2 (minusSigns negated d.position d.rest).2 := by
  by_cases hMinus : c.skipBlanks.rest.head? = some '-'
  · obtain ⟨hToken, hToken', hNear⟩ := hE.token h hMinus rfl
    rw [minusSigns_of_token hToken, minusSigns_of_token hToken']
    exact Lawful.firm_minusSigns (!negated) hNear
  · rw [minusSigns_of_ne hMinus, minusSigns_of_ne (by rwa [hE.head? (hE.firm h)])]
    exact ⟨rfl, hE.firm h⟩
termination_by c.rest.length
decreasing_by all_goals exact hToken.length_lt (List.cons_ne_nil _ _)

theorem Lawful.matches_suffixes {c d : Cursor} (negated : Bool) (h : E.near c d) (stack : Stack) :
    E.Matches E.Firm (execute A (suffixes negated c.position c.rest) stack)
      (execute A (suffixes negated d.position d.rest) stack) := by
  by_cases hFactorial : c.skipBlanks.rest.head? = some '!'
  · obtain ⟨hToken, hToken', hNear⟩ := hE.token h hFactorial rfl
    rw [suffixes_factorial hToken, suffixes_factorial hToken']
    exact matches_emit (hE.place hNear) stack fun stack' => Lawful.matches_suffixes negated hNear stack'
  · by_cases hPercent : c.skipBlanks.rest.head? = some '%'
    · obtain ⟨hToken, hToken', hNear⟩ := hE.token h hPercent rfl
      rw [suffixes_percent hToken, suffixes_percent hToken']
      exact matches_emit (hE.place hNear) stack fun stack' => Lawful.matches_suffixes negated hNear stack'
    · have hEnded : Ended .factor c := by
        intro next hNext
        rw [Option.mem_def.mp hNext, Option.some_inj] at hFactorial hPercent
        simp [Level.extenders, hFactorial, hPercent]
      have hEnded' : Ended .factor d := by
        rw [Ended, hE.head? (hE.firm h)]
        exact hEnded
      rw [suffixes_of_ended negated hEnded, suffixes_of_ended negated hEnded']
      exact matches_pure (hE.firm h) stack
termination_by c.rest.length
decreasing_by all_goals exact hToken.length_lt (List.cons_ne_nil _ _)

theorem Lawful.matches_negation {c d : Cursor} (negated : Bool) (h : E.Firm c d) (stack : Stack) :
    E.Matches E.Firm (execute A (negation negated c) stack) (execute A (negation negated d) stack) := by
  cases negated with
  | false => exact matches_pure h stack
  | true => exact matches_emit (hE.place h.1) stack fun stack' => matches_pure h stack'

/-! ## Primaries -/

theorem Lawful.matches_numeral {c d : Cursor} (hVisits : Visits A levels text .primary (room + 1) c)
    (h : E.Firm c.skipBlanks d) (stack : Stack) :
    E.Matches E.near (execute A (numeral c.skipBlanks) stack) (execute A (numeral d) stack) := by
  rcases hE.scan hVisits h with ⟨hNone, hNone'⟩ | ⟨n, rest, rest', hScan, hScan', hNear⟩
  · simp only [numeral, hNone, hNone']
    exact matches_fail (hE.place h.1) stack
  · simp only [numeral, hScan, hScan']
    exact matches_emit (hE.place hNear) stack fun stack' => matches_pure hNear stack'

/-- A call whose arguments end at the closing bracket on both sides. -/
theorem Lawful.matches_callEnd_closed {f : Builtin} {start start' : Nat} (count : Nat)
    (hClose : c.rest.head? = some ')') (hClose' : d.rest.head? = some ')')
    (hNear : E.near (c.advance 1) (d.advance 1)) (hStart : E.place start start') (stack : Stack) :
    E.Matches E.near (execute A (callEnd f start count c) stack)
      (execute A (callEnd f start' count d) stack) := by
  obtain ⟨rest, hRest⟩ := List.head?_eq_some_iff.mp hClose
  obtain ⟨rest', hRest'⟩ := List.head?_eq_some_iff.mp hClose'
  simp only [callEnd, hRest, hRest']
  split
  · exact matches_emit (hE.place hNear) stack fun stack' => matches_pure hNear stack'
  · exact matches_fail hStart stack

theorem Lawful.matches_callEnd {f : Builtin} {start start' : Nat} (count : Nat) (h : E.Firm c d)
    (hStart : E.place start start') (stack : Stack) :
    E.Matches E.near (execute A (callEnd f start count c) stack)
      (execute A (callEnd f start' count d) stack) := by
  by_cases hClose : c.rest.head? = some ')'
  · have hNear := hE.advance h hClose rfl
    exact hE.matches_callEnd_closed count hClose ((hE.head? h).trans hClose) hNear hStart stack
  · rw [callEnd_of_head hClose, callEnd_of_head (by rwa [hE.head? h])]
    exact matches_fail (hE.place h.1) stack

omit hE in
theorem matches_groupEnd_closed {b : Bracket} (hClose : c.rest.head? = some b.closer)
    (hClose' : d.rest.head? = some b.closer) (hNear : E.near (c.advance 1) (d.advance 1)) (stack : Stack) :
    E.Matches E.near (execute A (groupEnd b c) stack) (execute A (groupEnd b d) stack) := by
  rw [groupEnd_of_closer hClose, groupEnd_of_closer hClose']
  exact matches_pure hNear stack

theorem Lawful.matches_groupEnd {b : Bracket} (h : E.Firm c d) (stack : Stack) :
    E.Matches E.near (execute A (groupEnd b c) stack) (execute A (groupEnd b d) stack) := by
  by_cases hClose : c.rest.head? = some b.closer
  · have hNear := hE.advance h hClose (by cases b <;> rfl)
    exact matches_groupEnd_closed hClose ((hE.head? h).trans hClose) hNear stack
  · rw [groupEnd_of_head hClose, groupEnd_of_head (by rwa [hE.head? h])]
    exact matches_fail (hE.place h.1) stack

/-- The reader ends alike at paired cursors, wherever the run comes on the first text. -/
def Simulates (E : Pairing) (A : Arithmetic) (levels : Nat) (text : List Char) (level : Level) (room : Nat)
    (reader : Reader) : Prop :=
  ∀ c d stack, Visits A levels text level room c → E.near c d →
    E.Matches E.Firm (execute A (reader c) stack) (execute A (reader d) stack)

/-! ## Inside of brackets -/

section Inside

variable {stack : Stack}
variable (hInside : E.Simulates A levels text .expression room (expression deep room))
include hInside

/-- Arguments behind those that have been read, as many on one side as on the other. -/
theorem Lawful.matches_moreArguments {o c₁ c₂ c₃ c₄ d₄ : Cursor} {word : String} {f : Builtin} {t : Tree}
    {ts : List Tree} {xs : List Number} {bound bound' : Nat}
    (hVisits : Visits A levels text .primary (room + 1) o) (hWord : o.Word word c₁)
    (hFunction : Builtin.ofName? word = some f) (hOpen : c₁.Token ['('] c₂)
    (hFirst : Derives .expression c₂ t c₃) (hMore : Arguments c₃ ts c₄)
    (hDepths : Tree.depthAll (t :: ts) < room) (hValues : Tree.evalAll A (t :: ts) = .ok xs)
    (h : E.Firm c₄.skipBlanks d₄) (hBound : c₄.skipBlanks.rest.length ≤ bound)
    (hBound' : d₄.rest.length ≤ bound') (count : Nat) (stack : Stack) :
    E.Matches (fun r s => r.1 = s.1 ∧ E.Firm r.2 s.2)
      (execute A (moreArguments (expression deep room) bound count c₄.skipBlanks) stack)
      (execute A (moreArguments (expression deep room) bound' count d₄) stack) := by
  induction bound generalizing ts xs c₄ d₄ bound' count stack with
  | zero =>
    have hNil : c₄.skipBlanks.rest = [] := List.length_eq_zero_iff.mp (Nat.le_zero.mp hBound)
    have hComma : c₄.skipBlanks.rest.head? ≠ some ',' := by simp [hNil]
    rw [moreArguments_of_head hComma, moreArguments_of_head (by rwa [hE.head? h])]
    exact matches_pure ⟨rfl, h⟩ stack
  | succ bound ih =>
    by_cases hComma : c₄.skipBlanks.rest.head? = some ','
    · have hNear := hE.advance h hComma rfl
      obtain ⟨rest, hRest⟩ := List.head?_eq_some_iff.mp hComma
      obtain ⟨rest', hRest'⟩ := List.head?_eq_some_iff.mp ((hE.head? h).trans hComma)
      have hToken : c₄.Token [','] (c₄.skipBlanks.advance 1) := Cursor.token_advance hRest
      have hNext : Visits A levels text .expression room (c₄.skipBlanks.advance 1) :=
        .nextArgument hVisits hWord hFunction hOpen hFirst hMore hDepths hValues hToken
      rw [hRest, List.length_cons] at hBound
      rw [hRest', List.length_cons] at hBound'
      obtain ⟨bound', rfl⟩ : ∃ n, bound' = n + 1 := ⟨bound' - 1, by omega⟩
      simp only [moreArguments, hRest, hRest']
      refine (hInside _ _ stack hNext hNear).bind fun c₅' d₅ stack' hFirm hOk hOk' => ?_
      obtain ⟨t', c₅, x, rfl, hAhead, hMore', hDepths', hValues'⟩ :=
        exists_argument hMore hDepths hValues hToken hOk
      have hShorter := hAhead.length_le
      have hSkip := c₅.length_skipBlanks
      have hShorter' := ((forward_expression deep room _).ahead (execute_eq_ok_iff.mp hOk').2).length_le
      rw [Cursor.rest_advance, hRest, List.drop_one, List.tail_cons] at hShorter
      rw [Cursor.rest_advance, hRest', List.drop_one, List.tail_cons] at hShorter'
      exact ih hMore' hDepths' hValues' hFirm (by omega)
        (by change d₅.rest.length ≤ _ at hShorter'; omega) _ _
    · rw [moreArguments_of_head hComma, moreArguments_of_head (by rwa [hE.head? h])]
      exact matches_pure ⟨rfl, h⟩ stack

/-- What follows the first arguments of a call. -/
theorem Lawful.matches_callRest {o c₁ c₂ c₃ c₄ d₄ : Cursor} {word : String} {f : Builtin} {t : Tree}
    {ts : List Tree} {xs : List Number} {start start' bound bound' : Nat}
    (hVisits : Visits A levels text .primary (room + 1) o) (hWord : o.Word word c₁)
    (hFunction : Builtin.ofName? word = some f) (hOpen : c₁.Token ['('] c₂)
    (hFirst : Derives .expression c₂ t c₃) (hMore : Arguments c₃ ts c₄)
    (hDepths : Tree.depthAll (t :: ts) < room) (hValues : Tree.evalAll A (t :: ts) = .ok xs)
    (hStart : E.place start start') (h : E.Firm c₄.skipBlanks d₄)
    (hBound : c₄.skipBlanks.rest.length ≤ bound) (hBound' : d₄.rest.length ≤ bound') (count : Nat)
    (stack : Stack) :
    E.Matches E.near
      (execute A (moreArguments (expression deep room) bound count c₄.skipBlanks >>=
        fun (count, c) => callEnd f start count c) stack)
      (execute A (moreArguments (expression deep room) bound' count d₄ >>=
        fun (count, c) => callEnd f start' count c) stack) := by
  refine (hE.matches_moreArguments hInside hVisits hWord hFunction hOpen hFirst hMore hDepths hValues h
    hBound hBound' count stack).bind ?_
  rintro ⟨count, c₅⟩ ⟨count', d₅⟩ stack' ⟨hCount, hLast⟩ - -
  cases hCount
  exact hE.matches_callEnd count hLast hStart stack'

/-- Calls whose first arguments end alike. -/
theorem Lawful.matches_call {o c₁ c₂ d₂ : Cursor} {word : String} {f : Builtin} {start start' : Nat}
    (hVisits : Visits A levels text .primary (room + 1) o) (hWord : o.Word word c₁)
    (hFunction : Builtin.ofName? word = some f) (hOpen : c₁.Token ['('] c₂) (hStart : E.place start start')
    (h : E.Matches E.Firm (execute A (expression deep room c₂) stack)
      (execute A (expression deep room d₂) stack)) :
    E.Matches E.near (execute A (call (expression deep room) f start c₂) stack)
      (execute A (call (expression deep room) f start' d₂) stack) := by
  rw [call_eq_callEnd, call_eq_callEnd]
  refine h.bind fun c₃' d₃ stack' hFirm hOk _ => ?_
  obtain ⟨t, c₃, x, hFirst, rfl, hDepth, -, hValue, -⟩ := (faithful_expression deep room).execute hOk
  have hDepths : Tree.depthAll [t] < room := by simpa [Tree.depthAll] using hDepth
  have hValues : Tree.evalAll A [t] = .ok [x] :=
    Tree.evalAll_cons_eq_ok_iff.mpr ⟨x, [], hValue, rfl, rfl⟩
  exact hE.matches_callRest hInside hVisits hWord hFunction hOpen hFirst (.none c₃) hDepths hValues hStart
    hFirm (Nat.le_refl _) (Nat.le_refl _) 1 stack'

theorem Lawful.matches_wordAt {o c₁ d₁ : Cursor} {word : String} {start start' : Nat}
    (hVisits : Visits A levels text .primary (room + 1) o) (hWord : o.Word word c₁)
    (hStart : E.place start start') (h : E.Firm c₁.skipBlanks d₁) (stack : Stack) :
    E.Matches E.near (execute A (wordAt (expression deep room) word start c₁.skipBlanks) stack)
      (execute A (wordAt (expression deep room) word start' d₁) stack) := by
  by_cases hOpen : c₁.skipBlanks.rest.head? = some '('
  · obtain ⟨rest, hRest⟩ := List.head?_eq_some_iff.mp hOpen
    obtain ⟨rest', hRest'⟩ := List.head?_eq_some_iff.mp ((hE.head? h).trans hOpen)
    simp only [wordAt, hRest, hRest']
    split
    · exact matches_fail hStart stack
    · rename_i f hFunction
      have hToken : c₁.Token ['('] (c₁.skipBlanks.advance 1) := Cursor.token_advance hRest
      rcases hE.bracket (b := .round) h hOpen with
        hNear | ⟨c₃, d₃, x, hClose, hClose', hNear, hYields⟩
      · have hNext := hInside _ _ stack (.argument hVisits hWord hFunction hToken) hNear
        exact hE.matches_call hInside hVisits hWord hFunction hToken hStart hNext
      · -- The only argument has the same value on both sides, whatever its text.
        rw [call_eq_callEnd, call_eq_callEnd]
        refine (hYields room stack).1.bind (hYields room stack).2 ?_
        have hComma : c₃.rest.head? ≠ some ',' := by rw [hClose]; decide
        have hComma' : d₃.rest.head? ≠ some ',' := by rw [hClose']; decide
        rw [moreArguments_of_head hComma, moreArguments_of_head hComma', pure_bind, pure_bind]
        exact hE.matches_callEnd_closed 1 hClose hClose' hNear hStart _
  · rw [wordAt_of_head hOpen, wordAt_of_head (by rwa [hE.head? h])]
    exact matches_emit hStart stack fun stack' => matches_pure h.1 stack'

theorem Lawful.matches_name {o d : Cursor} {first : Char} {rest : List Char}
    (hVisits : Visits A levels text .primary (room + 1) o) (hRest : o.skipBlanks.rest = first :: rest)
    (hFirst : first.isAlpha = true) (h : E.Firm o.skipBlanks d) (stack : Stack) :
    E.Matches E.near (execute A (name (expression deep room) o.skipBlanks) stack)
      (execute A (name (expression deep room) d) stack) := by
  obtain ⟨hLetters, hNear⟩ := hE.letters hVisits h
  rw [name_eq_wordAt, name_eq_wordAt, Cursor.wordEnd, Cursor.wordEnd, hLetters]
  exact hE.matches_wordAt hInside hVisits (word_of_head hRest hFirst) (hE.place h.1) (hE.firm hNear) stack

theorem Lawful.matches_group {o d : Cursor} {b : Bracket}
    (hVisits : Visits A levels text .primary (room + 1) o)
    (hOpen : o.skipBlanks.rest.head? = some b.opener) (h : E.Firm o.skipBlanks d) (stack : Stack) :
    E.Matches E.near (execute A (group (expression deep room) b o.skipBlanks) stack)
      (execute A (group (expression deep room) b d) stack) := by
  obtain ⟨rest, hRest⟩ := List.head?_eq_some_iff.mp hOpen
  have hToken : o.Token [b.opener] (o.skipBlanks.advance 1) := Cursor.token_advance hRest
  rw [group_eq_groupEnd, group_eq_groupEnd]
  rcases hE.bracket h hOpen with hNear | ⟨c₁, d₁, x, hClose, hClose', hNear, hYields⟩
  · refine (hInside _ _ stack (.group hVisits hToken) hNear).bind fun c₁ d₁ stack' hFirm _ _ => ?_
    exact hE.matches_groupEnd hFirm stack'
  · refine (hYields room stack).1.bind (hYields room stack).2 ?_
    exact matches_groupEnd_closed hClose hClose' hNear _

theorem Lawful.matches_primary {o d : Cursor} (hVisits : Visits A levels text .primary (room + 1) o)
    (h : E.Firm o.skipBlanks d) (stack : Stack) :
    E.Matches E.near (execute A (primary (expression deep room) o.skipBlanks) stack)
      (execute A (primary (expression deep room) d) stack) := by
  have hHead := hE.head? h
  cases hRest : o.skipBlanks.rest with
  | nil =>
    rw [hRest, List.head?_nil, List.head?_eq_none_iff] at hHead
    simp only [primary, hRest, hHead]
    exact matches_fail (hE.place h.1) stack
  | cons first rest =>
    obtain ⟨rest', hRest'⟩ := List.head?_eq_some_iff.mp (hHead.trans (by rw [hRest]; rfl))
    simp only [primary, hRest, hRest']
    split
    · rename_i hAlpha
      exact hE.matches_name hInside hVisits hRest hAlpha h stack
    · split
      · exact hE.matches_numeral hVisits h stack
      · split
        · rename_i b hBracket
          obtain rfl := Bracket.ofOpener?_eq_some_iff.mp hBracket
          exact hE.matches_group hInside hVisits (by rw [hRest]; rfl) h stack
        · exact matches_fail (hE.place h.1) stack

/-! ## Operands and powers -/

omit hInside in
theorem Lawful.matches_operand {inside : Reader} (negated : Bool)
    (h : E.Matches E.near (execute A (primary inside c) stack) (execute A (primary inside d) stack)) :
    E.Matches E.Firm (execute A (operand inside negated c) stack)
      (execute A (operand inside negated d) stack) := by
  refine h.bind fun c₂ d₂ stack' hNear _ _ => ?_
  refine (hE.matches_suffixes negated hNear stack').bind fun c₃ d₃ stack'' hFirm _ _ => ?_
  exact hE.matches_negation negated hFirm stack''

/-- Factors whose signs are even or odd on both sides, and whose primaries are paired. -/
theorem Lawful.matches_factor (hVisits : Visits A levels text .factor (room + 1) c)
    (hOdd : (minusSigns false c.position c.rest).1 = (minusSigns false d.position d.rest).1)
    (hFirm : E.Firm (minusSigns false c.position c.rest).2 (minusSigns false d.position d.rest).2)
    (stack : Stack) :
    E.Matches E.Firm (execute A (factor (expression deep room) c) stack)
      (execute A (factor (expression deep room) d) stack) := by
  obtain ⟨odd, c₁, hSigns, hMinus⟩ := signs_minusSigns false c.position c.rest
  have hHead := head_minusSigns false c.position c.rest
  rw [factor_eq_operand, factor_eq_operand, ← hOdd]
  rw [hMinus] at hHead hFirm ⊢
  have hPrimary := hE.matches_primary hInside (.factor hVisits hSigns hHead) hFirm stack
  exact hE.matches_operand _ hPrimary

theorem Lawful.simulates_factor :
    E.Simulates A levels text .factor (room + 1) (factor (expression deep room)) := by
  intro c d stack hVisits hNear
  obtain ⟨hOdd, hFirm⟩ := hE.firm_minusSigns false hNear
  exact hE.matches_factor hInside hVisits hOdd hFirm stack

omit hInside in
theorem Lawful.matches_powerEnd {exponent : Reader} {c₁ d₁ : Cursor} {a : Tree} {x : Number}
    (hExponent : E.Simulates A levels text .power room exponent)
    (hVisits : Visits A levels text .power (room + 1) c) (hBase : Derives .factor c a c₁)
    (hDepth : a.depth < room + 1) (hValue : a.eval A = .ok x) (hFirm : E.Firm c₁.skipBlanks d₁)
    (stack : Stack) :
    E.Matches E.Firm (execute A (powerEnd exponent c₁.skipBlanks) stack)
      (execute A (powerEnd exponent d₁) stack) := by
  by_cases hSign : c₁.skipBlanks.rest.head? = some '^'
  · have hNear := hE.advance hFirm hSign rfl
    obtain ⟨rest, hRest⟩ := List.head?_eq_some_iff.mp hSign
    obtain ⟨rest', hRest'⟩ := List.head?_eq_some_iff.mp ((hE.head? hFirm).trans hSign)
    have hToken : c₁.Token ['^'] (c₁.skipBlanks.advance 1) := Cursor.token_advance hRest
    simp only [powerEnd, hRest, hRest']
    refine (hExponent _ _ stack (.exponent hVisits hBase hDepth hValue hToken) hNear).bind ?_
    intro c₂ d₂ stack' hFirm' _ _
    exact matches_emit (hE.place hFirm'.1) stack' fun _ => matches_pure hFirm' _
  · rw [powerEnd_of_head hSign, powerEnd_of_head (by rwa [hE.head? hFirm])]
    exact matches_pure hFirm stack

omit hInside in
/-- Powers whose bases end alike. -/
theorem Lawful.matches_powerOf {exponent : Reader} (hExponent : E.Simulates A levels text .power room exponent)
    (hVisits : Visits A levels text .power (room + 1) c)
    (h : E.Matches E.Firm (execute A (factor (expression deep room) c) stack)
      (execute A (factor (expression deep room) d) stack)) :
    E.Matches E.Firm (execute A (powerOf (expression deep room) exponent c) stack)
      (execute A (powerOf (expression deep room) exponent d) stack) := by
  rw [powerOf_eq_powerEnd, powerOf_eq_powerEnd]
  refine h.bind fun c₁' d₁ stack' hFirm hOk _ => ?_
  obtain ⟨a, c₁, x, hBase, rfl, hDepth, -, hValue, -⟩ :=
    (faithful_factor (faithful_expression deep room)).execute hOk
  exact hE.matches_powerEnd hExponent hVisits hBase hDepth hValue hFirm stack'

theorem Lawful.simulates_powerOf {exponent : Reader} (hExponent : E.Simulates A levels text .power room exponent) :
    E.Simulates A levels text .power (room + 1) (powerOf (expression deep room) exponent) := by
  intro c d stack hVisits hNear
  exact hE.matches_powerOf hExponent hVisits (hE.simulates_factor hInside _ _ stack (.base hVisits) hNear)

end Inside

/-! ## Chains -/

/-- The run that comes to a chain comes to its operands. -/
structure Enters (A : Arithmetic) (levels : Nat) (text : List Char) (upper lower : Level)
    (operator? : List Char → Option (Operator × Nat)) : Prop where
  first {room : Nat} {c : Cursor} : Visits A levels text upper room c → Visits A levels text lower room c
  next {room width : Nat} {c c₁ : Cursor} {a : Tree} {x : Number} {op : Operator} :
    Visits A levels text upper room c → Derives upper c a c₁ → a.depth < room → a.eval A = .ok x →
      operator? c₁.skipBlanks.rest = some (op, width) →
        Visits A levels text lower room (c₁.skipBlanks.advance width)

/-- The operators of a chain stand in both texts. -/
def Sees (E : Pairing) (A : Arithmetic) (levels : Nat) (text : List Char) (upper : Level)
    (operator? : List Char → Option (Operator × Nat)) : Prop :=
  ∀ {room : Nat} {c c₁ d : Cursor} {a : Tree} {x : Number}, Visits A levels text upper room c →
    Derives upper c a c₁ → a.depth < room → a.eval A = .ok x → E.Firm c₁.skipBlanks d →
      operator? d.rest = operator? c₁.skipBlanks.rest ∧
        ∀ op width, operator? c₁.skipBlanks.rest = some (op, width) →
          E.near (c₁.skipBlanks.advance width) (d.advance width)

omit hE in
theorem enters_product : Enters A levels text .product .power productOperator? := ⟨.single, .product⟩

omit hE in
theorem enters_sum : Enters A levels text .expression .product sumOperator? := ⟨.summand, .sum⟩

theorem Lawful.sees_sum : E.Sees A levels text .expression sumOperator? := by
  intro room c c₁ d a x _ _ _ _ h
  refine ⟨sumOperator?_congr (hE.head? h), fun op width hFound => ?_⟩
  obtain ⟨hMember, rfl, rest, hText⟩ := chains_sum.found hFound
  rcases mem_sumOperators hMember with rfl | rfl
  · have hHead : c₁.skipBlanks.rest.head? = some '+' := by rw [hText]; rfl
    exact hE.advance h hHead rfl
  · have hHead : c₁.skipBlanks.rest.head? = some '-' := by rw [hText]; rfl
    exact hE.advance h hHead rfl

theorem Lawful.sees_product : E.Sees A levels text .product productOperator? := by
  intro room c c₁ d a x hVisits hLeft hDepth hValue h
  have hSlash := hE.slash hVisits hLeft hDepth hValue h
  simp only [Cursor.rest_advance, List.drop_one] at hSlash
  refine ⟨productOperator?_congr (hE.head? h) hSlash, fun op width hFound => ?_⟩
  obtain ⟨hMember, rfl, rest, hText⟩ := chains_product.found hFound
  rcases mem_productOperators hMember with rfl | rfl | rfl
  · have hHead : c₁.skipBlanks.rest.head? = some 'x' := by rw [hText]; rfl
    exact hE.advance h hHead rfl
  · have hHead : c₁.skipBlanks.rest.head? = some '/' := by rw [hText]; rfl
    exact hE.advance h hHead rfl
  · have hFirst : c₁.skipBlanks.rest.head? = some '/' := by rw [hText]; rfl
    have hSecond : (c₁.skipBlanks.advance 1).rest.head? = some '/' := by
      rw [Cursor.rest_advance, hText]
      rfl
    have hSecond' : (d.advance 1).rest.head? = some '/' := by
      rw [Cursor.rest_advance, List.drop_one]
      rwa [Cursor.rest_advance, List.drop_one, ← hSlash hFirst] at hSecond
    have hFirm : E.Firm (c₁.skipBlanks.advance 1) (d.advance 1) := by
      refine ⟨hE.advance h hFirst rfl, Cursor.skipBlanks_of_head ?_, Cursor.skipBlanks_of_head ?_⟩
      · rw [hSecond]
        rintro next ⟨⟩
        rfl
      · rw [hSecond']
        rintro next ⟨⟩
        rfl
    have hBoth := hE.advance hFirm hSecond rfl
    rwa [Cursor.advance_advance, Cursor.advance_advance] at hBoth

section Chains

/-- A chain whose operators stand in both texts and whose operands end alike. -/
structure Chaining (E : Pairing) (A : Arithmetic) (levels room : Nat) (text : List Char)
    (upper lower : Level) (operators : List Operator) (operator? : List Char → Option (Operator × Nat))
    (reader : Reader) : Prop where
  chains : Chains upper lower operators operator?
  enters : Enters A levels text upper lower operator?
  sees : E.Sees A levels text upper operator?
  standing : Standing operator?
  faithful : Faithful lower room reader
  simulates : E.Simulates A levels text lower room reader

variable {upper lower : Level} {operators : List Operator} {operator? : List Char → Option (Operator × Nat)}
  {reader : Reader} {stack : Stack}

/-- An operand behind an operator, if what follows it ends alike. -/
theorem Lawful.matches_linked (hChain : E.Chaining A levels room text upper lower operators operator? reader)
    {c c₁ c₂ d₂ : Cursor} {a : Tree} {x : Number} {op : Operator} (hLeft : Derives upper c a c₁)
    (hDepth : a.depth < room) (hValue : a.eval A = .ok x) (hMember : op ∈ operators)
    (hSign : c₁.Token op.token c₂)
    (h : E.Matches E.Firm (execute A (reader c₂) (x :: stack)) (execute A (reader d₂) (x :: stack)))
    {next next' : Reader}
    (hNext : ∀ a' x' c₃ d₃, Derives upper c a' c₃ → a'.depth < room → a'.eval A = .ok x' →
      E.Firm c₃.skipBlanks d₃ → c₃.skipBlanks.rest.length ≤ c₂.rest.length →
        d₃.rest.length ≤ d₂.rest.length →
          E.Matches E.Firm (execute A (next c₃.skipBlanks) (x' :: stack))
            (execute A (next' d₃) (x' :: stack))) :
    E.Matches E.Firm
      (execute A (reader c₂ >>= fun c => c.emit (.binary op) >>= fun _ => next c) (x :: stack))
      (execute A (reader d₂ >>= fun d => d.emit (.binary op) >>= fun _ => next' d) (x :: stack)) := by
  refine h.bind fun c₃' d₃ stack' hFirm hOk hOk' => ?_
  have hShorter' := ((hChain.faithful.forward _).ahead (execute_eq_ok_iff.mp hOk').2).length_le
  obtain ⟨b, c₃, y, hRight, rfl, hDepth', -, hValue', rfl⟩ := hChain.faithful.execute hOk
  have hShorter := hRight.ahead.length_le
  have hSkip := c₃.length_skipBlanks
  -- The operand just read goes to the right of all that was read before.
  have hMore := hChain.chains.link hLeft hMember hSign hRight
  have hDepths : (Tree.binary op a b c₃.skipBlanks.position).depth < room := by
    rw [Tree.depth_binary (hChain.chains.ne_pow hMember)]
    omega
  refine (matches_instruction (hE.place hFirm.1) _).bind fun _ _ stack'' _ hEmit _ => ?_
  rw [← Cursor.emit, execute_binary c₃.skipBlanks hValue hValue'] at hEmit
  obtain ⟨z, hResult, hStack⟩ := map_eq_ok_iff.mp hEmit
  cases hStack
  exact hNext _ _ _ _ hMore hDepths hResult hFirm (by omega) hShorter'

theorem Lawful.matches_links (hChain : E.Chaining A levels room text upper lower operators operator? reader)
    {c c₁ d₁ : Cursor} {a : Tree} {x : Number} {bound bound' : Nat}
    (hVisits : Visits A levels text upper room c) (hLeft : Derives upper c a c₁)
    (hDepth : a.depth < room) (hValue : a.eval A = .ok x) (h : E.Firm c₁.skipBlanks d₁)
    (hBound : c₁.skipBlanks.rest.length ≤ bound) (hBound' : d₁.rest.length ≤ bound') (stack : Stack) :
    E.Matches E.Firm (execute A (links operator? reader bound c₁.skipBlanks) (x :: stack))
      (execute A (links operator? reader bound' d₁) (x :: stack)) := by
  induction bound generalizing c₁ d₁ a x bound' with
  | zero =>
    have hNil : c₁.skipBlanks.rest = [] := List.length_eq_zero_iff.mp (Nat.le_zero.mp hBound)
    have hNone : operator? c₁.skipBlanks.rest = none := by rw [hNil]; exact hChain.standing.nil
    have hSame := (hChain.sees hVisits hLeft hDepth hValue h).1
    rw [links_of_none hNone, links_of_none (hSame.trans hNone)]
    exact matches_pure h _
  | succ bound ih =>
    obtain ⟨hSame, hNear⟩ := hChain.sees hVisits hLeft hDepth hValue h
    cases hFound : operator? c₁.skipBlanks.rest with
    | none =>
      rw [links_of_none hFound, links_of_none (hSame.trans hFound)]
      exact matches_pure h _
    | some found =>
      obtain ⟨op, width⟩ := found
      have hFound' := hSame.trans hFound
      obtain ⟨hPositive, hWidth⟩ := hChain.standing _ _ _ hFound
      obtain ⟨-, hWidth'⟩ := hChain.standing _ _ _ hFound'
      obtain ⟨bound', rfl⟩ : ∃ n, bound' = n + 1 := ⟨bound' - 1, by omega⟩
      simp only [links, hFound, hFound']
      have hNext := hChain.enters.next hVisits hLeft hDepth hValue hFound
      have hOperand := hChain.simulates _ _ (x :: stack) hNext (hNear op width hFound)
      obtain ⟨hMember, rfl, rest, hText⟩ := hChain.chains.found hFound
      have hSign := Cursor.token_advance hText
      refine hE.matches_linked hChain hLeft hDepth hValue hMember hSign hOperand ?_
      intro a' x' c₂ d₂ hMore hDepth' hValue' hFirm hShorter hShorter'
      rw [Cursor.rest_advance, List.length_drop] at hShorter hShorter'
      exact ih hMore hDepth' hValue' hFirm (by omega) (by omega)

/-- Chains whose first operands end alike. -/
theorem Lawful.matches_chain (hChain : E.Chaining A levels room text upper lower operators operator? reader)
    (hVisits : Visits A levels text upper room c)
    (h : E.Matches E.Firm (execute A (reader c) stack) (execute A (reader d) stack)) :
    E.Matches E.Firm (execute A (chain operator? reader c) stack)
      (execute A (chain operator? reader d) stack) := by
  refine h.bind fun c₁' d₁ stack' hFirm hOk _ => ?_
  obtain ⟨a, c₁, x, hFirst, rfl, hDepth, -, hValue, rfl⟩ := hChain.faithful.execute hOk
  exact hE.matches_links hChain hVisits (hChain.chains.operand hFirst) hDepth hValue hFirm (Nat.le_refl _)
    (Nat.le_refl _) stack

theorem Lawful.simulates_chain
    (hChain : E.Chaining A levels room text upper lower operators operator? reader) :
    E.Simulates A levels text upper room (chain operator? reader) := by
  intro c d stack hVisits hNear
  exact hE.matches_chain hChain hVisits (hChain.simulates c d stack (hChain.enters.first hVisits) hNear)

variable (h : E.Simulates A levels text .power room (powerWithin deep room))
include h

theorem Lawful.chaining_product : E.Chaining A levels room text .product .power productOperators
    productOperator? (powerWithin deep room) :=
  ⟨chains_product, enters_product, hE.sees_product, standing_productOperator?, faithful_powerWithin deep room,
    h⟩

theorem Lawful.chaining_sum : E.Chaining A levels room text .expression .product sumOperators sumOperator?
    (productsOf (powerWithin deep room)) :=
  ⟨chains_sum, enters_sum, hE.sees_sum, standing_sumOperator?,
    faithful_productsOf (faithful_powerWithin deep room), hE.simulates_chain (hE.chaining_product h)⟩

end Chains

/-! ## Whole texts -/

theorem simulates_refuse (level : Level) : E.Simulates A levels text level 0 (refuse deep) := by
  intro c d stack _ hNear
  exact matches_fail (hE.place hNear) stack

theorem Lawful.simulates_expression (h : E.Simulates A levels text .power room (powerWithin deep room)) :
    E.Simulates A levels text .expression room (expression deep room) := by
  rw [expression_eq_sumsOf]
  exact hE.simulates_chain (hE.chaining_sum h)

theorem Lawful.simulates_powerWithin (room : Nat) :
    E.Simulates A levels text .power room (powerWithin deep room) := by
  induction room with
  | zero => exact simulates_refuse hE .power
  | succ room ih =>
    rw [powerWithin_succ]
    exact hE.simulates_powerOf (hE.simulates_expression ih) ih

theorem Lawful.matches_textEnd (h : E.Firm c d) (stack : Stack) :
    E.Matches (fun _ _ => True) (execute A (textEnd c) stack) (execute A (textEnd d) stack) := by
  have hHead := hE.head? h
  cases hRest : c.rest with
  | nil =>
    rw [hRest, List.head?_nil, List.head?_eq_none_iff] at hHead
    simp only [textEnd, hRest, hHead]
    exact matches_pure trivial stack
  | cons next rest =>
    obtain ⟨rest', hRest'⟩ := List.head?_eq_some_iff.mp (hHead.trans (by rw [hRest]; rfl))
    simp only [textEnd, hRest, hRest']
    exact matches_fail (hE.place h.1) stack

/-- Two texts whose beginnings are paired have the same value, or fail alike. -/
theorem Lawful.matches_readWithin {text' : List Char} (h : E.near ⟨0, text⟩ ⟨0, text'⟩) (stack : Stack) :
    E.Matches (fun _ _ => True) (execute A (readWithin deep levels ⟨0, text⟩) stack)
      (execute A (readWithin deep levels ⟨0, text'⟩) stack) := by
  refine (hE.simulates_expression (hE.simulates_powerWithin levels) _ _ stack .start h).bind ?_
  intro c d stack' hFirm _ _
  exact hE.matches_textEnd hFirm stack'

end Readers
end Pairing
end Reckon.Expression
