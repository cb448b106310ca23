import Reckon.Proofs.Expression.Nesting
import Reckon.Proofs.Expression.Pairs

/-! # Exchanging the text at an operand

Behind a token to which a run comes the rest of the text is exchanged. If the operand that stands there is
read alike in both texts, and the same is left behind it, both texts are evaluated alike. What was read
before the token is complete, so it is read in the same way in both.
-/
namespace Reckon.Expression
set_option autoImplicit false
open Text (isBlank)

/-! ## The same text at any offset -/

/-- Cursors with the same text before them. -/
def sameRest : Pairing where
  near c d := d.rest = c.rest
  place _ _ := True
  excused _ := False

theorem lawful_sameRest (A : Arithmetic) (deep : Cause) (levels : Nat) (text : List Char) :
    sameRest.Lawful A deep levels text where
  place _ := trivial
  skipBlanks hNear := congrArg (List.dropWhile isBlank) hNear
  head? hFirm := congrArg List.head? hFirm.1
  advance hFirm _ _ := congrArg (List.drop 1) hFirm.1
  slash _ _ _ _ hFirm _ := by
    rw [Cursor.rest_advance, Cursor.rest_advance, hFirm.1]
  letters _ hFirm := ⟨congrArg (List.takeWhile Char.isAlpha) hFirm.1, congrArg (List.drop _) hFirm.1⟩
  scan {room c d} _ hFirm := by
    have hRest : d.rest = c.skipBlanks.rest := hFirm.1
    rw [hRest]
    cases hScan : Numeral.scan? c.skipBlanks.rest with
    | none => exact .inl ⟨rfl, rfl⟩
    | some found =>
      exact .inr ⟨found.1, found.2, found.2, rfl, rfl, congrArg (List.drop found.1.text.length) hRest⟩
  bracket hFirm _ := .inl (congrArg (List.drop 1) hFirm.1)

/-! ## Before a token that stays -/

section Ending

variable {old token : List Char} {first : Char} {c c₁ c₂ : Cursor}

theorem Cursor.replace_of_suffix (new l : List Char) (h : l ++ old <:+ c.rest) :
    c.replace (l ++ old) (l ++ new) = c.replace old new := by
  obtain ⟨position, rest⟩ := c
  obtain ⟨m, rfl⟩ := h
  rw [replace_append, ← List.append_assoc, ← List.append_assoc, replace_append]

theorem Cursor.Token.head_eq (h : c.Token (first :: token) c₁) :
    c.skipBlanks.rest.head? = some first := by
  rw [h.1]
  rfl

/-- Behind a token any text may stand: the token and what follows it are a new ending of the text. -/
theorem exists_ending (new : List Char) (hToken : c₁.Token (first :: token) c₂) (hOld : old <:+ c₂.rest) :
    ∃ l, Replaces (l ++ old) (l ++ new) ∧ l ++ old <:+ c₁.rest ∧
      (c₁.replace old new).Token (first :: token) (c₂.replace old new) := by
  obtain ⟨position, rest⟩ := c₂
  obtain ⟨k, rfl⟩ := hOld
  have hRest : c₁.skipBlanks.rest = first :: (token ++ k) ++ old := by
    rw [hToken.1, List.cons_append, List.cons_append, List.append_assoc]
  have hBlank : isBlank first = false := by
    apply c₁.head_skipBlanks
    rw [hRest]
    rfl
  have hReplaces : Replaces (first :: (token ++ k) ++ old) (first :: (token ++ k) ++ new) := by
    refine ⟨?_, .inl rfl, ?_⟩ <;>
    · rintro next ⟨⟩
      exact hBlank
  have hSuffix : first :: (token ++ k) ++ old <:+ c₁.rest := hRest ▸ c₁.ahead_skipBlanks.suffix
  refine ⟨_, hReplaces, hSuffix, ?_⟩
  -- Both endings begin at the token, so the blanks before it are the same in both texts.
  have hHere : c₁.skipBlanks = ⟨c₁.skipBlanks.position, [] ++ (first :: (token ++ k) ++ old)⟩ := by
    rw [List.nil_append, ← hRest]
  rw [Cursor.Token, ← Cursor.replace_of_suffix new _ hSuffix, (Cursor.skipBlanks_replace hReplaces hSuffix).1,
    hHere, Cursor.replace_append, Cursor.replace_append]
  exact ⟨by simp, hToken.2⟩

variable (new : List Char)

theorem Cursor.Token.replace_behind (hToken : c₁.Token (first :: token) c₂) (hOld : old <:+ c₂.rest) :
    (c₁.replace old new).Token (first :: token) (c₂.replace old new) := by
  obtain ⟨-, -, -, hToken'⟩ := exists_ending new hToken hOld
  exact hToken'

theorem Cursor.Word.replace_before {word : String} (h : c.Word word c₁)
    (hToken : c₁.Token (first :: token) c₂) (hOld : old <:+ c₂.rest) :
    (c.replace old new).Word word (c₁.replace old new) := by
  obtain ⟨l, hReplaces, hSuffix, -⟩ := exists_ending new hToken hOld
  have hWord := h.replace hReplaces hSuffix
  rwa [replace_of_suffix new l hSuffix, replace_of_suffix new l (hSuffix.trans h.token.suffix)] at hWord

theorem Cursor.Signs.replace_before {odd : Bool} (h : c.Signs odd c₁)
    (hToken : c₁.Token (first :: token) c₂) (hOld : old <:+ c₂.rest) :
    (c.replace old new).Signs odd (c₁.replace old new) := by
  obtain ⟨l, hReplaces, hSuffix, -⟩ := exists_ending new hToken hOld
  have hSigns := h.replace hReplaces hSuffix
  rwa [replace_of_suffix new l hSuffix, replace_of_suffix new l (hSuffix.trans h.suffix)] at hSigns

theorem Derives.replace_before {level : Level} {t : Tree} (h : Derives level c t c₁)
    (hToken : c₁.Token (first :: token) c₂) (hFirst : Numeral.continues first = false)
    (hOld : old <:+ c₂.rest) : Derives level (c.replace old new) t (c₁.replace old new) := by
  obtain ⟨l, hReplaces, hSuffix, hToken'⟩ := exists_ending new hToken hOld
  rw [← Cursor.replace_of_suffix new l hSuffix] at hToken' ⊢
  rw [← Cursor.replace_of_suffix new l (hSuffix.trans h.suffix)]
  exact h.replace hReplaces hSuffix (hToken'.past hFirst)

theorem Arguments.replace_before {ts : List Tree} (h : Arguments c ts c₁)
    (hToken : c₁.Token (first :: token) c₂) (hFirst : Numeral.continues first = false)
    (hOld : old <:+ c₂.rest) : Arguments (c.replace old new) ts (c₁.replace old new) := by
  obtain ⟨l, hReplaces, hSuffix, hToken'⟩ := exists_ending new hToken hOld
  rw [← Cursor.replace_of_suffix new l hSuffix] at hToken' ⊢
  rw [← Cursor.replace_of_suffix new l (hSuffix.trans h.suffix)]
  exact (h.replace hReplaces hSuffix (hToken'.past hFirst)).1

end Ending

/-! ## From an operand to what contains it -/

/-- A primary is left where it ends, and any other expression behind the blanks that follow it. -/
def Left : Level → Cursor → Cursor → Prop
  | .primary => sameRest.near
  | _ => sameRest.Firm

/-- Both readings of an expression of the level end alike. -/
def Agrees (A : Arithmetic) (deep : Cause) (level : Level) (room : Nat) (c d : Cursor) : Prop :=
  ∀ stack, sameRest.Matches (Left level) (execute A (readerOf deep level room c) stack)
    (execute A (readerOf deep level room d) stack)

section Agrees

variable {A : Arithmetic} {deep : Cause} {levels room : Nat} {text : List Char}
  {c c₁ c₂ d d₁ d₂ : Cursor}

theorem simulates_sameRest (A : Arithmetic) (deep : Cause) (levels : Nat) (text : List Char) (room : Nat) :
    sameRest.Simulates A levels text .power room (powerWithin deep room) :=
  (lawful_sameRest A deep levels text).simulates_powerWithin room

theorem Agrees.summand (h : Agrees A deep .product room c d)
    (hVisits : Visits A levels text .expression room c) : Agrees A deep .expression room c d := by
  intro stack
  have hProduct := h stack
  rw [readerOf_product] at hProduct
  rw [readerOf_expression, expression_eq_sumsOf]
  have hLawful := lawful_sameRest A deep levels text
  exact hLawful.matches_chain (hLawful.chaining_sum (simulates_sameRest A deep levels text room)) hVisits
    hProduct

theorem Agrees.single (h : Agrees A deep .power room c d)
    (hVisits : Visits A levels text .product room c) : Agrees A deep .product room c d := by
  intro stack
  have hPower := h stack
  rw [readerOf_power] at hPower
  rw [readerOf_product]
  have hLawful := lawful_sameRest A deep levels text
  exact hLawful.matches_chain (hLawful.chaining_product (simulates_sameRest A deep levels text room)) hVisits
    hPower

section Chains

variable {upper lower : Level} {operators : List Operator} {operator? : List Char → Option (Operator × Nat)}
  {reader : Reader} {a : Tree} {x : Number} {op : Operator}

/-- The reading of a chain behind an operator. -/
theorem exists_links (hChains : Chains upper lower operators operator?) (hFaithful : Faithful lower room reader)
    (hLeft : Derives upper c a c₁) (hDepth : a.depth < room) (hValue : a.eval A = .ok x)
    (hMember : op ∈ operators) (hSign : c₁.Token op.token c₂)
    (hFound : operator? c₁.skipBlanks.rest = some (op, op.token.length)) :
    ∃ bound, c₂.rest.length ≤ bound ∧ ∀ stack, execute A (chain operator? reader c) stack =
      execute A (reader c₂ >>= fun c => c.emit (.binary op) >>= fun _ => links operator? reader bound c)
        (x :: stack) := by
  have hEnded := hChains.ended hMember hSign
  obtain ⟨bound, hBound, hRead⟩ := hChains.chained hFaithful.complete hLeft hDepth hEnded
  have hToken : 0 < op.token.length := by cases op <;> decide
  rw [hSign.1, List.length_append] at hBound
  obtain ⟨bound, rfl⟩ : ∃ less, bound = less + 1 := ⟨bound - 1, by omega⟩
  refine ⟨bound, by omega, fun stack => ?_⟩
  rw [hRead, execute_bind, Tree.execute_tree, hValue, links, hFound]
  simp only [hSign.eq_advance]
  rfl

/-- Chains with the same tree before an operator, and behind it operands that end alike. -/
theorem matches_chain_behind (hLawful : sameRest.Lawful A deep levels text)
    (hChain : sameRest.Chaining A levels room text upper lower operators operator? reader)
    (hVisits : Visits A levels text upper room c) (hLeft : Derives upper c a c₁)
    (hLeft' : Derives upper d a d₁) (hDepth : a.depth < room) (hValue : a.eval A = .ok x)
    (hMember : op ∈ operators) (hSign : c₁.Token op.token c₂) (hSign' : d₁.Token op.token d₂)
    (hFound : operator? c₁.skipBlanks.rest = some (op, op.token.length))
    (hFound' : operator? d₁.skipBlanks.rest = some (op, op.token.length))
    (h : ∀ stack, sameRest.Matches sameRest.Firm (execute A (reader c₂) stack)
      (execute A (reader d₂) stack)) (stack : Stack) :
    sameRest.Matches sameRest.Firm (execute A (chain operator? reader c) stack)
      (execute A (chain operator? reader d) stack) := by
  obtain ⟨bound, hBound, hRead⟩ :=
    exists_links hChain.chains hChain.faithful hLeft hDepth hValue hMember hSign hFound
  obtain ⟨bound', hBound', hRead'⟩ :=
    exists_links hChain.chains hChain.faithful hLeft' hDepth hValue hMember hSign' hFound'
  rw [hRead, hRead']
  refine hLawful.matches_linked hChain hLeft hDepth hValue hMember hSign (h _) ?_
  intro a' x' c₃ d₃ hMore hDepth' hValue' hFirm hShorter hShorter'
  exact hLawful.matches_links hChain hVisits hMore hDepth' hValue' hFirm (Nat.le_trans hShorter hBound)
    (Nat.le_trans hShorter' hBound') stack

end Chains

theorem Agrees.sum {a : Tree} {x : Number} {op : Operator} (h : Agrees A deep .product room c₂ d₂)
    (hVisits : Visits A levels text .expression room c) (hLeft : Derives .expression c a c₁)
    (hLeft' : Derives .expression d a d₁) (hDepth : a.depth < room) (hValue : a.eval A = .ok x)
    (hMember : op ∈ sumOperators) (hSign : c₁.Token op.token c₂) (hSign' : d₁.Token op.token d₂)
    (hFound : sumOperator? c₁.skipBlanks.rest = some (op, op.token.length))
    (hFound' : sumOperator? d₁.skipBlanks.rest = some (op, op.token.length)) :
    Agrees A deep .expression room c d := by
  intro stack
  rw [readerOf_expression, expression_eq_sumsOf]
  have hLawful := lawful_sameRest A deep levels text
  have hChain := hLawful.chaining_sum (simulates_sameRest A deep levels text room)
  refine matches_chain_behind hLawful hChain hVisits hLeft hLeft' hDepth hValue hMember hSign hSign' hFound
    hFound' (fun stack => ?_) stack
  have hProduct := h stack
  rwa [readerOf_product] at hProduct

theorem Agrees.product {a : Tree} {x : Number} {op : Operator} (h : Agrees A deep .power room c₂ d₂)
    (hVisits : Visits A levels text .product room c) (hLeft : Derives .product c a c₁)
    (hLeft' : Derives .product d a d₁) (hDepth : a.depth < room) (hValue : a.eval A = .ok x)
    (hMember : op ∈ productOperators) (hSign : c₁.Token op.token c₂) (hSign' : d₁.Token op.token d₂)
    (hFound : productOperator? c₁.skipBlanks.rest = some (op, op.token.length))
    (hFound' : productOperator? d₁.skipBlanks.rest = some (op, op.token.length)) :
    Agrees A deep .product room c d := by
  intro stack
  rw [readerOf_product]
  have hLawful := lawful_sameRest A deep levels text
  have hChain := hLawful.chaining_product (simulates_sameRest A deep levels text room)
  refine matches_chain_behind hLawful hChain hVisits hLeft hLeft' hDepth hValue hMember hSign hSign' hFound
    hFound' (fun stack => ?_) stack
  have hPower := h stack
  rwa [readerOf_power] at hPower

theorem Agrees.base (h : Agrees A deep .factor (room + 1) c d)
    (hVisits : Visits A levels text .power (room + 1) c) : Agrees A deep .power (room + 1) c d := by
  intro stack
  rw [readerOf_power, powerWithin_succ]
  have hLawful := lawful_sameRest A deep levels text
  exact hLawful.matches_powerOf (simulates_sameRest A deep levels text room) hVisits (h stack)

theorem Agrees.exponent {a : Tree} {x : Number} (h : Agrees A deep .power room c₂ d₂)
    (hBase : Derives .factor c a c₁) (hBase' : Derives .factor d a d₁) (hDepth : a.depth < room + 1)
    (hValue : a.eval A = .ok x) (hSign : c₁.Token ['^'] c₂) (hSign' : d₁.Token ['^'] d₂) :
    Agrees A deep .power (room + 1) c d := by
  have hComplete := (faithful_factor (faithful_expression deep room)).complete
  have hRead {c c₁ c₂ : Cursor} (hBase : Derives .factor c a c₁) (hSign : c₁.Token ['^'] c₂)
      (stack : Stack) : execute A (powerWithin deep (room + 1) c) stack =
        execute A (powerWithin deep room c₂ >>= fun c => c.emit (.binary .pow) >>= fun _ => pure c)
          (x :: stack) := by
    rw [powerWithin_succ, powerOf_eq_powerEnd,
      hComplete c a c₁ hBase hDepth (.of_head hSign.1 (by decide)), bind_assoc, execute_bind,
      Tree.execute_tree, hValue, pure_bind, powerEnd_of_token hSign]
    rfl
  intro stack
  have hExponent := h (x :: stack)
  rw [readerOf_power] at hExponent
  rw [readerOf_power, hRead hBase hSign, hRead hBase' hSign']
  refine hExponent.bind fun c₃ d₃ stack' hFirm _ _ => ?_
  exact Pairing.matches_emit trivial stack' fun stack'' => Pairing.matches_pure hFirm stack''

theorem Agrees.factor {odd : Bool} (h : Agrees A deep .primary room c₁ d₁) (hSigns : c.Signs odd c₁)
    (hSigns' : d.Signs odd d₁) (hHead : c₁.skipBlanks.rest.head? ≠ some '-')
    (hHead' : d₁.skipBlanks.rest.head? ≠ some '-') : Agrees A deep .factor room c d := by
  intro stack
  cases room with
  | zero => exact Pairing.matches_fail trivial stack
  | succ room =>
    change sameRest.Matches sameRest.Firm (execute A (Expression.factor (expression deep room) c) stack)
      (execute A (Expression.factor (expression deep room) d) stack)
    rw [factor_eq_operand, factor_eq_operand, minusSigns_of_signs hSigns hHead,
      minusSigns_of_signs hSigns' hHead']
    exact (lawful_sameRest A deep 0 []).matches_operand _ (h stack)

theorem Agrees.group {b : Bracket} (h : Agrees A deep .expression room c₁ d₁)
    (hOpen : c.Token [b.opener] c₁) (hOpen' : d.Token [b.opener] d₁) :
    Agrees A deep .primary (room + 1) c d := by
  intro stack
  have hExpression := h stack
  rw [readerOf_expression, ← hOpen.eq_advance, ← hOpen'.eq_advance] at hExpression
  change sameRest.Matches sameRest.near (execute A (primary (expression deep room) c.skipBlanks) stack)
    (execute A (primary (expression deep room) d.skipBlanks) stack)
  rw [primary_of_opener hOpen, primary_of_opener hOpen', group_eq_groupEnd, group_eq_groupEnd]
  refine hExpression.bind fun c₂ d₂ stack' hFirm _ _ => ?_
  exact (lawful_sameRest A deep 0 []).matches_groupEnd hFirm stack'

theorem simulates_expression_sameRest (A : Arithmetic) (deep : Cause) (levels : Nat) (text : List Char)
    (room : Nat) : sameRest.Simulates A levels text .expression room (expression deep room) :=
  (lawful_sameRest A deep levels text).simulates_expression (simulates_sameRest A deep levels text room)

theorem Agrees.argument {word : String} {f : Builtin} (h : Agrees A deep .expression room c₂ d₂)
    (hVisits : Visits A levels text .primary (room + 1) c) (hWord : c.Word word c₁)
    (hWord' : d.Word word d₁) (hFunction : Builtin.ofName? word = some f) (hOpen : c₁.Token ['('] c₂)
    (hOpen' : d₁.Token ['('] d₂) : Agrees A deep .primary (room + 1) c d := by
  intro stack
  have hExpression := h stack
  rw [readerOf_expression] at hExpression
  change sameRest.Matches sameRest.near (execute A (primary (expression deep room) c.skipBlanks) stack)
    (execute A (primary (expression deep room) d.skipBlanks) stack)
  rw [primary_of_call hWord hFunction hOpen, primary_of_call hWord' hFunction hOpen']
  have hInside := simulates_expression_sameRest A deep levels text room
  exact (lawful_sameRest A deep levels text).matches_call hInside hVisits hWord hFunction hOpen trivial
    hExpression

/-- The reading of a call behind the comma that follows the arguments. -/
theorem exists_moreArguments {c₃ c₄ c₅ : Cursor} {t : Tree} {ts : List Tree} {xs : List Number}
    (hFirst : Derives .expression c₂ t c₃) (hMore : Arguments c₃ ts c₄)
    (hDepths : Tree.depthAll (t :: ts) < room) (hValues : Tree.evalAll A (t :: ts) = .ok xs)
    (hComma : c₄.Token [','] c₅) (deep : Cause) (f : Builtin) (start : Nat) :
    ∃ bound, c₅.rest.length ≤ bound ∧ ∀ stack, execute A (call (expression deep room) f start c₂) stack =
      execute A (expression deep room c₅ >>= fun c =>
        moreArguments (expression deep room) bound (ts.length + 2) c >>= fun (count, c) =>
          callEnd f start count c) (xs.reverse ++ stack) := by
  have hComplete := (faithful_expression deep room).complete
  rw [Tree.depthAll] at hDepths
  have hRead := hComplete c₂ t c₃ hFirst (by omega) (ended_of_arguments hMore hComma.1 (by decide))
  obtain ⟨bound, hBound, hOthers⟩ := moreArguments_of_arguments hComplete hMore (by omega) hComma.1
    (by decide) (Nat.le_refl _) 1
  rw [hComma.1, List.length_append, List.length_singleton] at hBound
  obtain ⟨bound, rfl⟩ : ∃ less, bound = less + 1 := ⟨bound - 1, by omega⟩
  have hNext : moreArguments (expression deep room) (bound + 1) (1 + ts.length) c₄.skipBlanks =
      expression deep room c₅ >>= moreArguments (expression deep room) bound (ts.length + 2) := by
    rw [moreArguments, hComma.1, ← hComma.eq_advance, Nat.add_comm 1]
    rfl
  refine ⟨bound, by omega, fun stack => ?_⟩
  have hAll : call (expression deep room) f start c₂ = Tree.emitAll (t :: ts) >>= fun _ =>
      expression deep room c₅ >>= fun c =>
        moreArguments (expression deep room) bound (ts.length + 2) c >>= fun (count, c) =>
          callEnd f start count c := by
    rw [call_eq_callEnd, hRead, bind_assoc]
    simp only [pure_bind, hOthers, hNext, Tree.emitAll, bind_assoc]
  rw [hAll, execute_bind, Tree.execute_all, hValues]
  rfl

theorem Agrees.nextArgument {c₃ c₄ c₅ d₃ d₄ d₅ : Cursor} {word : String} {f : Builtin} {t : Tree}
    {ts : List Tree} {xs : List Number} (h : Agrees A deep .expression room c₅ d₅)
    (hVisits : Visits A levels text .primary (room + 1) c) (hWord : c.Word word c₁)
    (hWord' : d.Word word d₁) (hFunction : Builtin.ofName? word = some f) (hOpen : c₁.Token ['('] c₂)
    (hOpen' : d₁.Token ['('] d₂) (hFirst : Derives .expression c₂ t c₃)
    (hFirst' : Derives .expression d₂ t d₃) (hMore : Arguments c₃ ts c₄) (hMore' : Arguments d₃ ts d₄)
    (hDepths : Tree.depthAll (t :: ts) < room) (hValues : Tree.evalAll A (t :: ts) = .ok xs)
    (hComma : c₄.Token [','] c₅) (hComma' : d₄.Token [','] d₅) :
    Agrees A deep .primary (room + 1) c d := by
  intro stack
  obtain ⟨bound, hBound, hRead⟩ := exists_moreArguments hFirst hMore hDepths hValues hComma deep f
    c.skipBlanks.position
  obtain ⟨bound', hBound', hRead'⟩ := exists_moreArguments hFirst' hMore' hDepths hValues
    hComma' deep f d.skipBlanks.position
  have hExpression := h (xs.reverse ++ stack)
  rw [readerOf_expression] at hExpression
  change sameRest.Matches sameRest.near (execute A (primary (expression deep room) c.skipBlanks) stack)
    (execute A (primary (expression deep room) d.skipBlanks) stack)
  rw [primary_of_call hWord hFunction hOpen, primary_of_call hWord' hFunction hOpen', hRead, hRead']
  refine hExpression.bind fun c₆' d₆ stack' hFirm hOk hOk' => ?_
  -- The argument just read belongs to those before the next comma or the closing bracket.
  obtain ⟨t', c₆, x, rfl, hAhead, hBefore, hDepths', hValues'⟩ :=
    exists_argument hMore hDepths hValues hComma hOk
  have hShorter := (hAhead.trans c₆.ahead_skipBlanks).length_le
  have hShorter' := ((forward_expression deep room _).ahead (execute_eq_ok_iff.mp hOk').2).length_le
  exact (lawful_sameRest A deep levels text).matches_callRest
    (simulates_expression_sameRest A deep levels text room) hVisits hWord hFunction hOpen hFirst
    hBefore hDepths' hValues' trivial hFirm
    (Nat.le_trans hShorter hBound) (Nat.le_trans hShorter' hBound') _ stack'

end Agrees

/-! ## Along the way of a run -/

section Along

variable {A : Arithmetic} {deep : Cause} {levels room : Nat} {text old new : List Char} {level : Level}
  {c : Cursor}

/-- The text that is exchanged stands at the cursor or behind it, for a primary behind its first token. -/
def Keeps (old : List Char) : Level → Cursor → Prop
  | .primary, c => ∃ first token c', c.Token (first :: token) c' ∧ old <:+ c'.rest
  | _, c => old <:+ c.rest

theorem Keeps.of_word {c₁ : Cursor} {word : String} (h : c.Word word c₁) (hOld : old <:+ c₁.rest) :
    Keeps old .primary c := by
  obtain ⟨first, letters, hLetters⟩ := List.exists_cons_of_ne_nil h.nonempty
  exact ⟨first, letters, c₁, hLetters ▸ h.token, hOld⟩

theorem head_replace_slash (hSlash : new.head? ≠ some '/') (hOld : old <:+ c.rest)
    (h : (c.replace old new).rest.head? = some '/') : c.rest.head? = some '/' := by
  obtain ⟨position, rest⟩ := c
  obtain ⟨l, rfl⟩ := hOld
  rw [Cursor.replace_append] at h
  cases l with
  | nil => exact absurd h hSlash
  | cons next l => exact h

theorem productOperator?_of_token {op : Operator} {c₁ d d₁ : Cursor} {width : Nat}
    (hMember : op ∈ productOperators) (hSign : c.Token op.token c₁)
    (hFound : productOperator? c.skipBlanks.rest = some (op, width)) (hSign' : d.Token op.token d₁)
    (hSlash : d₁.rest.head? = some '/' → c₁.rest.head? = some '/') :
    productOperator? d.skipBlanks.rest = some (op, op.token.length) := by
  rw [hSign.1] at hFound
  rw [hSign'.1]
  rcases mem_productOperators hMember with rfl | rfl | rfl
  · rfl
  · apply productOperator?_div
    intro hHead
    obtain ⟨more, hRest⟩ := List.head?_eq_some_iff.mp (hSlash hHead)
    rw [hRest] at hFound
    cases hFound
  · rfl

theorem sumOperator?_of_token {op : Operator} {c₁ : Cursor} (hMember : op ∈ sumOperators)
    (hSign : c.Token op.token c₁) : sumOperator? c.skipBlanks.rest = some (op, op.token.length) := by
  rw [hSign.1]
  rcases mem_sumOperators hMember with rfl | rfl <;> rfl

theorem Derives.replace_operator {c₁ c₂ : Cursor} {a : Tree} {op : Operator} (new : List Char)
    (h : Derives level c a c₁) (hSign : c₁.Token op.token c₂) (hOld : old <:+ c₂.rest) :
    Derives level (c.replace old new) a (c₁.replace old new) ∧
      (c₁.replace old new).Token op.token (c₂.replace old new) := by
  cases op <;> exact ⟨h.replace_before new hSign (by decide) hOld, hSign.replace_behind new hOld⟩

/-- If the operand to which a run comes is read alike with another text behind the cursor, the whole
    expression is. -/
theorem Visits.exchange (hSlash : new.head? ≠ some '/') (h : Visits A levels text level room c)
    (hKeeps : Keeps old level c) (hHere : Agrees A deep level room c (c.replace old new)) :
    Agrees A deep .expression levels ⟨0, text⟩ (Cursor.replace old new ⟨0, text⟩) := by
  -- The way is taken back step by step: what contains the operand is read alike as well.
  induction h with
  | start => exact hHere
  | summand hVisits ih => exact ih hKeeps (hHere.summand hVisits)
  | single hVisits ih => exact ih hKeeps (hHere.single hVisits)
  | base hVisits ih => exact ih hKeeps (hHere.base hVisits)
  | sum hVisits hLeft hDepth hValue hFound ih =>
    obtain ⟨hMember, rfl, rest, hText⟩ := chains_sum.found hFound
    have hSign := Cursor.token_advance hText
    obtain ⟨hLeft', hSign'⟩ := hLeft.replace_operator new hSign hKeeps
    have hFound' := sumOperator?_of_token hMember hSign'
    exact ih (hKeeps.trans (hSign.suffix.trans hLeft.suffix))
      (hHere.sum hVisits hLeft hLeft' hDepth hValue hMember hSign hSign' hFound hFound')
  | product hVisits hLeft hDepth hValue hFound ih =>
    obtain ⟨hMember, rfl, rest, hText⟩ := chains_product.found hFound
    have hSign := Cursor.token_advance hText
    obtain ⟨hLeft', hSign'⟩ := hLeft.replace_operator new hSign hKeeps
    have hFound' := productOperator?_of_token hMember hSign hFound hSign' (head_replace_slash hSlash hKeeps)
    exact ih (hKeeps.trans (hSign.suffix.trans hLeft.suffix))
      (hHere.product hVisits hLeft hLeft' hDepth hValue hMember hSign hSign' hFound hFound')
  | exponent hVisits hBase hDepth hValue hSign ih =>
    have hBase' := hBase.replace_before new hSign (by decide) hKeeps
    exact ih (hKeeps.trans (hSign.suffix.trans hBase.suffix))
      (hHere.exponent hBase hBase' hDepth hValue hSign (hSign.replace_behind new hKeeps))
  | factor hVisits hSigns hLast ih =>
    obtain ⟨first, token, c', hToken, hOld⟩ := hKeeps
    have hSame := (hToken.replace_behind new hOld).head_eq.trans hToken.head_eq.symm
    exact ih (hOld.trans (hToken.suffix.trans hSigns.suffix))
      (hHere.factor hSigns (hSigns.replace_before new hToken hOld) hLast (hSame ▸ hLast))
  | group hVisits hOpen ih =>
    exact ih ⟨_, _, _, hOpen, hKeeps⟩ (hHere.group hOpen (hOpen.replace_behind new hKeeps))
  | argument hVisits hWord hFunction hOpen ih =>
    exact ih (.of_word hWord (hKeeps.trans hOpen.suffix))
      (hHere.argument hVisits hWord (hWord.replace_before new hOpen hKeeps) hFunction hOpen
        (hOpen.replace_behind new hKeeps))
  | nextArgument hVisits hWord hFunction hOpen hFirst hMore hDepths hValues hComma ih =>
    have hOld₄ := hKeeps.trans hComma.suffix
    have hOld₃ := hOld₄.trans hMore.suffix
    have hOld₂ := hOld₃.trans hFirst.suffix
    have hMore' := hMore.replace_before new hComma (by decide) hKeeps
    refine ih (.of_word hWord (hOld₂.trans hOpen.suffix))
      (hHere.nextArgument hVisits hWord (hWord.replace_before new hOpen hOld₂) hFunction hOpen
        (hOpen.replace_behind new hOld₂) hFirst ?_ hMore hMore' hDepths hValues hComma
        (hComma.replace_behind new hKeeps))
    -- The first argument ends before the comma behind it.
    cases hMore with
    | none => exact hFirst.replace_before new hComma (by decide) hKeeps
    | comma hNext hSecond hOthers =>
      exact hFirst.replace_before new hNext (by decide) (hOld₄.trans (hSecond.ahead.trans hOthers.ahead).suffix)

end Along

end Reckon.Expression
