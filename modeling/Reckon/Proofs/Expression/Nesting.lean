import Reckon.Proofs.Expression.Stops

/-! # How deep a reading goes

A reading with `room` levels comes to every operand that stands at the end of a way down, and has then as
many levels left as the way has not opened; or it ended before for want of levels.
-/
namespace Reckon.Expression
set_option autoImplicit false
open Text (isBlank)

/-! ## Going on -/

section Going

variable {α β : Type} {A : Arithmetic} {m m₁ m₂ : Reading α} {stack stack₁ stack₂ : Stack}

/-- The reading goes on as the second one when the code before it has been run. -/
def Reaches (A : Arithmetic) (m : Reading α) (stack : Stack) (m' : Reading α) (stack' : Stack) : Prop :=
  ∃ code, m = m'.behind code ∧ run A code stack = .ok stack'

theorem Reaches.refl (m : Reading α) (stack : Stack) : Reaches A m stack m stack :=
  ⟨[], rfl, rfl⟩

theorem Reaches.trans (h : Reaches A m stack m₁ stack₁) (h' : Reaches A m₁ stack₁ m₂ stack₂) :
    Reaches A m stack m₂ stack₂ := by
  obtain ⟨code, rfl, hRun⟩ := h
  obtain ⟨more, rfl, hRun'⟩ := h'
  refine ⟨code ++ more, Reading.behind_behind code more m₂, ?_⟩
  rw [run_append, hRun, ok_bind, hRun']

theorem Reaches.bind (h : Reaches A m stack m₁ stack₁) (f : α → Reading β) :
    Reaches A (m >>= f) stack (m₁ >>= f) stack₁ := by
  obtain ⟨code, rfl, hRun⟩ := h
  exact ⟨code, Reading.behind_bind code m₁ f, hRun⟩

theorem reaches_of_execute {a : α} (h : execute A m stack = .ok (a, stack₁)) (f : α → Reading β) :
    Reaches A (m >>= f) stack (f a) stack₁ := by
  obtain ⟨hRun, hOutcome⟩ := execute_eq_ok_iff.mp h
  exact ⟨m.code, Reading.bind_eq_behind hOutcome f, hRun⟩

theorem Reaches.execute (h : Reaches A m stack m₁ stack₁) : execute A m stack = execute A m₁ stack₁ := by
  obtain ⟨code, rfl, hRun⟩ := h
  rw [execute_behind, hRun, ok_bind]

end Going

/-! ## Complete operands -/

section Operands

variable {α β : Type} {A : Arithmetic} {deep : Cause} {level upper lower : Level}

/-- The reading ends for want of levels, at `p` or before. -/
def Cuts (A : Arithmetic) (deep : Cause) (m : Reading α) (stack : Stack) (p : Nat) : Prop :=
  ∃ q ≤ p, execute A m stack = .error ⟨.cause deep, q, q⟩

theorem Cuts.mono {m : Reading α} {stack : Stack} {p q : Nat} (h : Cuts A deep m stack p) (hp : p ≤ q) :
    Cuts A deep m stack q := by
  obtain ⟨r, hr, hStop⟩ := h
  exact ⟨r, Nat.le_trans hr hp, hStop⟩

theorem Cuts.of_reaches {m m' : Reading α} {stack stack' : Stack} {p : Nat} (h : Cuts A deep m' stack' p)
    (hReaches : Reaches A m stack m' stack') : Cuts A deep m stack p := by
  obtain ⟨q, hq, hStop⟩ := h
  exact ⟨q, hq, hReaches.execute.trans hStop⟩

theorem Cuts.bind {m : Reading α} {stack : Stack} {p : Nat} (h : Cuts A deep m stack p)
    (f : α → Reading β) : Cuts A deep (m >>= f) stack p := by
  obtain ⟨q, hq, hStop⟩ := h
  refine ⟨q, hq, ?_⟩
  rw [execute_bind, hStop, error_bind]

/-- The reader takes expressions of the level that have a value, or has not levels enough for them. -/
def Tame (A : Arithmetic) (deep : Cause) (level : Level) (reader : Reader) : Prop :=
  ∀ c t c' x, Derives level c t c' → t.eval A = .ok x → Ended level c' → ∀ stack,
    execute A (reader c) stack = .ok (c'.skipBlanks, x :: stack) ∨
      Cuts A deep (reader c) stack c'.skipBlanks.position

theorem tame_of_cut {reader : Reader} (room : Nat) (wider : Nat → Reader)
    (hCut : ∀ room', room ≤ room' → ∀ c, Cut deep (reader c) (wider room' c))
    (hWider : ∀ room', Complete level (room' + 1) (wider room')) : Tame A deep level reader := by
  intro c t c' x hDerives hValue hEnded stack
  have hRead := hWider (max room t.depth) c t c' hDerives (by omega) hEnded
  have hExecute : execute A (wider (max room t.depth) c) stack = .ok (c'.skipBlanks, x :: stack) := by
    rw [hRead, execute_bind, Tree.execute_tree, hValue]
    rfl
  rcases (hCut _ (Nat.le_max_left _ _) c).execute (A := A) stack with hSame | ⟨p, hStop, hPlace, -⟩
  · exact .inl (hSame.trans hExecute)
  · exact .inr ⟨p, hPlace _ _ hExecute, hStop⟩

theorem tame_powerWithin (deep : Cause) (room : Nat) : Tame A deep .power (powerWithin deep room) :=
  tame_of_cut room (fun room' => powerWithin deep (room' + 1))
    (fun _ hRoom => cut_powerWithin deep deep (Nat.le_succ_of_le hRoom))
    fun room' => (faithful_powerWithin deep (room' + 1)).complete

theorem tame_expression (deep : Cause) (room : Nat) : Tame A deep .expression (expression deep room) :=
  tame_of_cut room (fun room' => expression deep (room' + 1))
    (fun _ hRoom => cut_expression deep deep (Nat.le_succ_of_le hRoom))
    fun room' => (faithful_expression deep (room' + 1)).complete

theorem tame_product (deep : Cause) (room : Nat) :
    Tame A deep .product (productsOf (powerWithin deep room)) := by
  have hForward (room : Nat) := forward_chain standing_productOperator? (forward_powerWithin deep room)
  refine tame_of_cut room (fun room' => productsOf (powerWithin deep (room' + 1))) (fun room' hRoom => ?_)
    fun room' => (faithful_productsOf (faithful_powerWithin deep (room' + 1))).complete
  exact cut_of_parallel (fun _ => parallel_chain short_productOperator? standing_productOperator?
    (parallel_powerWithin (.cut deep deep (Nat.le_succ_of_le hRoom))) (forward_powerWithin _ _)
    (forward_powerWithin _ _)) (hForward _) (hForward _)

theorem tame_factor (deep : Cause) (room : Nat) : Tame A deep .factor (factor (expression deep room)) := by
  have hForward (room : Nat) := forward_expression deep room
  refine tame_of_cut room (fun room' => factor (expression deep room')) (fun room' hRoom => ?_)
    fun room' => (faithful_factor (faithful_expression deep room')).complete
  exact cut_of_parallel (fun _ => parallel_factor (parallel_expression (.cut deep deep hRoom)) (hForward _)
    (hForward _)) (forward_factor (hForward _)) (forward_factor (hForward _))

/-- The operands of a chain are taken one by one, up to the operator behind those that are complete. -/
theorem reaches_chain {operators : List Operator} {operator? : List Char → Option (Operator × Nat)}
    {reader : Reader} (hChains : Chains upper lower operators operator?) (hTame : Tame A deep lower reader)
    {c c' : Cursor} {t : Tree} {x : Number} (h : Derives upper c t c') (hValue : t.eval A = .ok x)
    (hEnded : Ended lower c') (stack : Stack) :
    (∃ bound, c'.skipBlanks.rest.length ≤ bound ∧ Reaches A (chain operator? reader c) stack
        (links operator? reader bound c'.skipBlanks) (x :: stack)) ∨
      Cuts A deep (chain operator? reader c) stack c'.skipBlanks.position := by
  rcases hChains.cases h with h | ⟨c₁, c₂, a, b, op, rfl, hLeft, hMember, hSign, hRight⟩
  · rcases hTame c t c' x h hValue hEnded stack with hRead | hCuts
    · exact .inl ⟨_, Nat.le_refl _, reaches_of_execute hRead _⟩
    · exact .inr (hCuts.bind _)
  · rw [Tree.eval] at hValue
    obtain ⟨y, hLeftValue, hRest⟩ := bind_eq_ok_iff.mp hValue
    obtain ⟨z, hRightValue, hResult⟩ := bind_eq_ok_iff.mp hRest
    have hPlace : c₁.skipBlanks.position ≤ c₂.position := hSign.ahead_skipBlanks.position_le
    have hAfter := (hRight.ahead.trans c'.ahead_skipBlanks).position_le
    rcases reaches_chain hChains hTame hLeft hLeftValue (hChains.ended hMember hSign) stack with
      ⟨bound, hBound, hChain⟩ | hCuts
    · have hLength := hRight.length_lt
      have hSkip := c'.length_skipBlanks
      rw [hSign.1, List.length_append] at hBound
      obtain ⟨bound, rfl⟩ : ∃ less, bound = less + 1 := ⟨bound - 1, by omega⟩
      have hLinks : links operator? reader (bound + 1) c₁.skipBlanks = reader c₂ >>= fun c =>
          c.emit (.binary op) >>= fun _ => links operator? reader bound c := by
        rw [links, hChains.finds hMember hSign hRight, ← hSign.eq_advance]
      rw [hLinks] at hChain
      rcases hTame c₂ b c' z hRight hRightValue hEnded (y :: stack) with hRead | hCuts
      · have hTree : (Tree.binary op a b c'.skipBlanks.position).eval A = .ok x := by
          rw [Tree.eval]
          exact hValue
        have hEmit : execute A (c'.skipBlanks.emit (.binary op)) (z :: y :: stack) =
            .ok ((), x :: stack) := by
          rw [execute_binary _ hLeftValue hRightValue, hTree]
          rfl
        exact .inl ⟨bound, by omega,
          (hChain.trans (reaches_of_execute hRead _)).trans (reaches_of_execute hEmit _)⟩
      · exact .inr ((hCuts.bind _).of_reaches hChain)
    · exact .inr (hCuts.mono (Nat.le_trans hPlace hAfter))
termination_by t

end Operands

/-! ## Coming to an operand -/

section Coming

variable {α β : Type} {A : Arithmetic} {deep : Cause} {room k : Nat} {c c₁ c₂ o : Cursor}

/-- The reading ends for want of levels before the cursor `o`, or it goes on by reading a power there, with
    the levels that are left when `k` of `room` have been opened. -/
def Comes (A : Arithmetic) (deep : Cause) (room k : Nat) (o : Cursor) (m : Reading α) (stack : Stack) :
    Prop :=
  Cuts A deep m stack o.position ∨ k ≤ room ∧ ∃ (next : Cursor → Reading α) (stack' : Stack),
    Reaches A m stack (powerWithin deep (room - k) o >>= next) stack'

theorem Comes.bind {m : Reading α} {stack : Stack} (h : Comes A deep room k o m stack)
    (f : α → Reading β) : Comes A deep room k o (m >>= f) stack := by
  rcases h with hCuts | ⟨hRoom, next, stack', hReaches⟩
  · exact .inl (hCuts.bind f)
  · refine .inr ⟨hRoom, fun c => next c >>= f, stack', ?_⟩
    rw [← bind_assoc]
    exact hReaches.bind f

theorem Comes.within {m : Reading α} {stack : Stack} (h : Comes A deep room k o m stack) :
    Comes A deep (room + 1) (k + 1) o m stack := by
  rcases h with hCuts | ⟨hRoom, next, stack', hReaches⟩
  · exact .inl hCuts
  · refine .inr ⟨Nat.succ_le_succ hRoom, next, stack', ?_⟩
    rwa [Nat.add_sub_add_right]

theorem Comes.of_reaches {m m' : Reading α} {stack stack' : Stack} (h : Comes A deep room k o m' stack')
    (hReaches : Reaches A m stack m' stack') : Comes A deep room k o m stack := by
  rcases h with hCuts | ⟨hRoom, next, stack'', hNext⟩
  · exact .inl (hCuts.of_reaches hReaches)
  · exact .inr ⟨hRoom, next, stack'', hReaches.trans hNext⟩

theorem Comes.after {m : Reading α} {f : α → Reading β} {a : α} {stack stack' : Stack}
    (hRead : execute A m stack = .ok (a, stack')) (h : Comes A deep room k o (f a) stack') :
    Comes A deep room k o (m >>= f) stack :=
  h.of_reaches (reaches_of_execute hRead f)

theorem comes_refuse (hAhead : c.Ahead o) (stack : Stack) :
    Comes A deep 0 k o (refuse deep c) stack :=
  .inl ⟨c.position, hAhead.position_le, rfl⟩

/-- The reader of a level that may open `room` levels, one of them for the expression itself. -/
def readerOf (deep : Cause) : Level → Nat → Reader
  | _, 0 => refuse deep
  | .primary, room + 1 => fun c => primary (expression deep room) c.skipBlanks
  | .suffixed _, room + 1 | .factor, room + 1 => factor (expression deep room)
  | .power, room + 1 => powerWithin deep (room + 1)
  | .product, room + 1 => productsOf (powerWithin deep (room + 1))
  | .expression, room + 1 => expression deep (room + 1)

theorem readerOf_power (deep : Cause) (room : Nat) : readerOf deep .power room = powerWithin deep room := by
  cases room <;> rfl

theorem readerOf_product (deep : Cause) (room : Nat) :
    readerOf deep .product room = productsOf (powerWithin deep room) := by
  cases room <;> rfl

theorem readerOf_expression (deep : Cause) (room : Nat) :
    readerOf deep .expression room = expression deep room := by
  cases room <;> rfl

/-- Reading at the level comes to the operand. -/
def Leads (A : Arithmetic) (deep : Cause) (level : Level) (c : Cursor) (k : Nat) (o : Cursor) : Prop :=
  ∀ room stack, Comes A deep room k o (readerOf deep level room c) stack

theorem leads_here (A : Arithmetic) (deep : Cause) (c : Cursor) : Leads A deep .power c 0 c := by
  intro room stack
  rw [readerOf_power]
  refine .inr ⟨Nat.zero_le room, pure, stack, ?_⟩
  rw [bind_pure, Nat.sub_zero]
  exact .refl _ stack

theorem Leads.single (h : Leads A deep .power c k o) : Leads A deep .product c k o := by
  intro room stack
  have hPower := h room stack
  rw [readerOf_power] at hPower
  rw [readerOf_product]
  exact hPower.bind _

theorem Leads.summand (h : Leads A deep .product c k o) : Leads A deep .expression c k o := by
  intro room stack
  have hProduct := h room stack
  rw [readerOf_product] at hProduct
  rw [readerOf_expression, expression_eq_sumsOf]
  exact hProduct.bind _

theorem comes_chain {upper lower : Level} {operators : List Operator}
    {operator? : List Char → Option (Operator × Nat)} {reader : Reader}
    (hChains : Chains upper lower operators operator?) (hTame : Tame A deep lower reader)
    {op : Operator} {width : Nat} {a : Tree} {x : Number} (hLeft : Derives upper c a c₁)
    (hValue : a.eval A = .ok x) (hFound : operator? c₁.skipBlanks.rest = some (op, width))
    (hAhead : c₁.skipBlanks.Ahead o)
    (h : ∀ stack, Comes A deep room k o (reader (c₁.skipBlanks.advance width)) stack) (stack : Stack) :
    Comes A deep room k o (chain operator? reader c) stack := by
  obtain ⟨hMember, rfl, rest, hText⟩ := hChains.found hFound
  have hEnded := hChains.ended hMember (Cursor.token_advance hText)
  rcases reaches_chain hChains hTame hLeft hValue hEnded stack with ⟨bound, hBound, hChain⟩ | hCuts
  · have hLength : 0 < op.token.length := by cases op <;> decide
    rw [hText, List.length_append] at hBound
    obtain ⟨bound, rfl⟩ : ∃ less, bound = less + 1 := ⟨bound - 1, by omega⟩
    refine Comes.of_reaches ?_ hChain
    rw [links, hFound]
    exact (h _).bind _
  · exact .inl (hCuts.mono hAhead.position_le)

theorem Leads.product {op : Operator} {width : Nat} {a : Tree} {x : Number}
    (h : Leads A deep .power (c₁.skipBlanks.advance width) k o) (hLeft : Derives .product c a c₁)
    (hValue : a.eval A = .ok x) (hFound : productOperator? c₁.skipBlanks.rest = some (op, width))
    (hAhead : c₁.skipBlanks.Ahead o) : Leads A deep .product c k o := by
  intro room stack
  rw [readerOf_product]
  refine comes_chain chains_product (tame_powerWithin deep room) hLeft hValue hFound hAhead (fun stack => ?_)
    stack
  have hPower := h room stack
  rwa [readerOf_power] at hPower

theorem Leads.sum {op : Operator} {width : Nat} {a : Tree} {x : Number}
    (h : Leads A deep .product (c₁.skipBlanks.advance width) k o) (hLeft : Derives .expression c a c₁)
    (hValue : a.eval A = .ok x) (hFound : sumOperator? c₁.skipBlanks.rest = some (op, width))
    (hAhead : c₁.skipBlanks.Ahead o) : Leads A deep .expression c k o := by
  intro room stack
  rw [readerOf_expression, expression_eq_sumsOf]
  refine comes_chain chains_sum (tame_product deep room) hLeft hValue hFound hAhead (fun stack => ?_) stack
  have hProduct := h room stack
  rwa [readerOf_product] at hProduct

theorem powerEnd_of_token {exponent : Reader} (hSign : c₁.Token ['^'] c₂) :
    powerEnd exponent c₁.skipBlanks =
      exponent c₂ >>= fun c => c.emit (.binary .pow) >>= fun _ => pure c := by
  rw [powerEnd, hSign.1, ← hSign.eq_advance]
  rfl

theorem Leads.base (h : Leads A deep .factor c k o) : Leads A deep .power c k o := by
  intro room stack
  cases room with
  | zero => exact h 0 stack
  | succ room =>
    rw [readerOf_power, powerWithin_succ, powerOf_eq_powerEnd]
    exact (h (room + 1) stack).bind _

theorem Leads.exponent {a : Tree} {x : Number} (h : Leads A deep .power c₂ k o)
    (hBase : Derives .factor c a c₁) (hValue : a.eval A = .ok x) (hSign : c₁.Token ['^'] c₂)
    (hAhead : c₁.skipBlanks.Ahead o) : Leads A deep .power c (k + 1) o := by
  intro room stack
  have hFirst : c.Ahead o := (hBase.ahead.trans c₁.ahead_skipBlanks).trans hAhead
  cases room with
  | zero => exact comes_refuse hFirst stack
  | succ room =>
    have hEnded : Ended .factor c₁ := .of_head hSign.1 (by decide)
    rw [readerOf_power, powerWithin_succ, powerOf_eq_powerEnd]
    rcases tame_factor deep room c a c₁ x hBase hValue hEnded stack with hRead | hCuts
    · have hPower := h room (x :: stack)
      rw [readerOf_power] at hPower
      refine Comes.after hRead ?_
      rw [powerEnd_of_token hSign]
      exact (hPower.bind _).within
    · exact .inl ((hCuts.mono hAhead.position_le).bind _)

theorem Leads.factor {odd : Bool} (h : Leads A deep .primary c₁ k o) (hSigns : c.Signs odd c₁)
    (hHead : c₁.skipBlanks.rest.head? ≠ some '-') (hAhead : c.Ahead o) : Leads A deep .factor c k o := by
  intro room stack
  cases room with
  | zero => exact comes_refuse hAhead stack
  | succ room =>
    change Comes A deep (room + 1) k o (Expression.factor (expression deep room) c) stack
    rw [factor_eq_operand, minusSigns_of_signs hSigns hHead]
    exact (h (room + 1) stack).bind _

theorem Leads.group {b : Bracket} (h : Leads A deep .expression c₁ k o) (hOpen : c.Token [b.opener] c₁)
    (hAhead : c.Ahead o) : Leads A deep .primary c (k + 1) o := by
  intro room stack
  cases room with
  | zero => exact comes_refuse hAhead stack
  | succ room =>
    have hExpression := h room stack
    rw [readerOf_expression, ← hOpen.eq_advance] at hExpression
    change Comes A deep (room + 1) (k + 1) o (primary (expression deep room) c.skipBlanks) stack
    rw [primary_of_opener hOpen, group_eq_groupEnd]
    exact (hExpression.bind _).within

/-- The reading of a call with a known function, behind its opening bracket. -/
theorem Leads.call {word : String} {f : Builtin} (hWord : c.Word word c₁)
    (hFunction : Builtin.ofName? word = some f) (hOpen : c₁.Token ['('] c₂) (hAhead : c.Ahead o)
    (h : ∀ room stack,
      Comes A deep room k o (call (expression deep room) f c.skipBlanks.position c₂) stack) :
    Leads A deep .primary c (k + 1) o := by
  intro room stack
  cases room with
  | zero => exact comes_refuse hAhead stack
  | succ room =>
    change Comes A deep (room + 1) (k + 1) o (primary (expression deep room) c.skipBlanks) stack
    rw [primary_of_call hWord hFunction hOpen]
    exact (h room stack).within

theorem Leads.argument {word : String} {f : Builtin} (h : Leads A deep .expression c₂ k o)
    (hWord : c.Word word c₁) (hFunction : Builtin.ofName? word = some f) (hOpen : c₁.Token ['('] c₂)
    (hAhead : c.Ahead o) : Leads A deep .primary c (k + 1) o := by
  refine Leads.call hWord hFunction hOpen hAhead fun room stack => ?_
  have hExpression := h room stack
  rw [readerOf_expression] at hExpression
  rw [call_eq_callEnd]
  exact hExpression.bind _

theorem Arguments.ahead_skipBlanks {ts : List Tree} {token : List Char} (h : Arguments c ts c₁)
    (hToken : c₁.Token token c₂) : c.skipBlanks.Ahead c₂ := by
  cases h with
  | none => exact hToken.ahead_skipBlanks
  | comma hComma hNext hMore =>
    exact ((hComma.ahead_skipBlanks.trans hNext.ahead).trans hMore.ahead).trans hToken.ahead

theorem comes_moreArguments {inside : Reader} {c₄ c₅ : Cursor} {ts : List Tree} {xs : List Number}
    (hTame : Tame A deep .expression inside) (h : ∀ stack, Comes A deep room k o (inside c₅) stack)
    (hMore : Arguments c ts c₄) (hValues : Tree.evalAll A ts = .ok xs) (hComma : c₄.Token [','] c₅)
    (hAhead : c₅.Ahead o) {bound : Nat} (hBound : c.skipBlanks.rest.length ≤ bound) (count : Nat)
    (stack : Stack) : Comes A deep room k o (moreArguments inside bound count c.skipBlanks) stack := by
  have hStep {c c₁ : Cursor} (hToken : c.Token [','] c₁) (bound count : Nat) :
      moreArguments inside (bound + 1) count c.skipBlanks =
        inside c₁ >>= moreArguments inside bound (count + 1) := by
    rw [moreArguments, hToken.1, ← hToken.eq_advance]
    rfl
  induction ts generalizing c xs bound count stack with
  | nil =>
    cases hMore
    cases hValues
    rw [hComma.1, List.length_append] at hBound
    obtain ⟨bound, rfl⟩ : ∃ less, bound = less + 1 := ⟨bound - 1, by simp at hBound; omega⟩
    rw [hStep hComma]
    exact (h stack).bind _
  | cons t ts ih =>
    cases hMore with
    | @comma _ c₁ c₂ _ _ _ hFirst hNext hOthers =>
      obtain ⟨x, xs', hValue, hValues', -⟩ := Tree.evalAll_cons_eq_ok_iff.mp hValues
      have hLength := hNext.length_lt
      have hSkip := c₂.length_skipBlanks
      rw [hFirst.1, List.length_append, List.length_singleton] at hBound
      obtain ⟨bound, rfl⟩ : ∃ less, bound = less + 1 := ⟨bound - 1, by omega⟩
      rw [hStep hFirst]
      have hEnded : Ended .expression c₂ := ended_of_arguments hOthers hComma.1 (by decide)
      rcases hTame c₁ t c₂ x hNext hValue hEnded stack with hRead | hCuts
      · have hRest : c₂.skipBlanks.rest.length ≤ bound := by omega
        exact Comes.after hRead (ih hOthers hValues' hRest (count + 1) (x :: stack))
      · have hPlace := ((hOthers.ahead_skipBlanks hComma).trans hAhead).position_le
        exact .inl ((hCuts.mono hPlace).bind _)

theorem Leads.nextArgument {c₃ c₄ c₅ : Cursor} {word : String} {f : Builtin} {t : Tree} {ts : List Tree}
    {xs : List Number} (h : Leads A deep .expression c₅ k o) (hWord : c.Word word c₁)
    (hFunction : Builtin.ofName? word = some f) (hOpen : c₁.Token ['('] c₂)
    (hFirst : Derives .expression c₂ t c₃) (hMore : Arguments c₃ ts c₄)
    (hValues : Tree.evalAll A (t :: ts) = .ok xs) (hComma : c₄.Token [','] c₅) (hLast : c₅.Ahead o)
    (hAhead : c.Ahead o) : Leads A deep .primary c (k + 1) o := by
  refine Leads.call hWord hFunction hOpen hAhead fun room stack => ?_
  obtain ⟨x, xs', hValue, hValues', -⟩ := Tree.evalAll_cons_eq_ok_iff.mp hValues
  have hTame := tame_expression (A := A) deep room
  have hEnded : Ended .expression c₃ := ended_of_arguments hMore hComma.1 (by decide)
  have hInside (stack : Stack) : Comes A deep room k o (expression deep room c₅) stack := by
    have hExpression := h room stack
    rwa [readerOf_expression] at hExpression
  rw [call_eq_callEnd]
  rcases hTame c₂ t c₃ x hFirst hValue hEnded stack with hRead | hCuts
  · have hOthers := comes_moreArguments hTame hInside hMore hValues' hComma hLast (Nat.le_refl _) 1
      (x :: stack)
    exact Comes.after hRead (hOthers.bind _)
  · have hPlace := ((hMore.ahead_skipBlanks hComma).trans hLast).position_le
    exact .inl ((hCuts.mono hPlace).bind _)

theorem Awaits.head_ne_minus (h : Awaits A .primary c k .power o) :
    c.skipBlanks.rest.head? ≠ some '-' := by
  cases h with
  | @group _ _ _ _ _ b hOpen =>
    rw [hOpen.1]
    cases b <;> nofun
  | argument hWord | nextArgument hWord =>
    obtain ⟨next, rest, hRest, hAlpha⟩ := hWord.head
    rw [hRest]
    rintro ⟨⟩
    exact absurd hAlpha (by decide)

/-- At every operand at the end of a way down the levels that are left are those that the way has not
    opened. -/
theorem Awaits.leads (deep : Cause) {level : Level} (h : Awaits A level c k .power o) :
    Leads A deep level c k o := by
  generalize hTarget : Level.power = target at h
  induction h with
  | here level c =>
    subst hTarget
    exact leads_here A deep c
  | group hOpen hInner ih =>
    subst hTarget
    exact (ih rfl).group hOpen (hOpen.ahead.trans hInner.ahead)
  | argument hWord hFunction hOpen hInner ih =>
    subst hTarget
    exact (ih rfl).argument hWord hFunction hOpen ((hWord.token.ahead.trans hOpen.ahead).trans hInner.ahead)
  | nextArgument hWord hFunction hOpen hFirst hMore hValues hComma hInner ih =>
    subst hTarget
    have hBefore := ((hWord.token.ahead.trans hOpen.ahead).trans hFirst.ahead).trans hMore.ahead
    exact (ih rfl).nextArgument hWord hFunction hOpen hFirst hMore hValues hComma hInner.ahead
      ((hBefore.trans hComma.ahead).trans hInner.ahead)
  | factor hSigns hPrimary ih =>
    subst hTarget
    exact (ih rfl).factor hSigns hPrimary.head_ne_minus (hSigns.ahead.trans hPrimary.ahead)
  | base _ ih => exact (ih hTarget).base
  | exponent hBase hValue hSign hPower ih =>
    exact (ih hTarget).exponent hBase hValue hSign (hSign.ahead_skipBlanks.trans hPower.ahead)
  | single _ ih => exact (ih hTarget).single
  | @product _ _ c₁ _ _ _ _ _ _ hLeft hValue hFound hPower ih =>
    have hSign := Cursor.ahead_advance (standing_productOperator? _ _ _ hFound).2
    exact (ih hTarget).product hLeft hValue hFound (hSign.trans hPower.ahead)
  | summand _ ih => exact (ih hTarget).summand
  | sum hLeft hValue hFound hProduct ih =>
    have hSign := Cursor.ahead_advance (standing_sumOperator? _ _ _ hFound).2
    exact (ih hTarget).sum hLeft hValue hFound (hSign.trans hProduct.ahead)

end Coming

end Reckon.Expression
