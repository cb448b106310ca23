import Reckon.Proofs.Expression.Boundaries

/-! # What has a derivation is read

Each reader emits the code of the tree that its level of the grammar derives, if the readers of its
parts do and if nothing behind the text could extend it. The code also of a tree that is not known
is the one emitted, up to the call that has none.
-/
namespace Reckon.Expression
set_option autoImplicit false
open Text (isBlank)

/-- An expression of the level that nests less deep than `room` is read up to the token behind it. -/
def Complete (level : Level) (room : Nat) (reader : Reader) : Prop :=
  ∀ c t c', Derives level c t c' → t.depth < room → Ended level c' →
    reader c = t.emit >>= fun _ => pure c'.skipBlanks

theorem complete_zero (level : Level) (reader : Reader) : Complete level 0 reader := by
  intro c t c' h hDepth
  cases hDepth

/-! ## Signs around a primary -/

theorem minusSigns_skipBlanks (negated : Bool) (position : Nat) (rest : List Char) :
    minusSigns negated (Cursor.skipBlanks ⟨position, rest⟩).position
      (Cursor.skipBlanks ⟨position, rest⟩).rest = minusSigns negated position rest := by
  induction rest generalizing position with
  | nil => rfl
  | cons next rest ih =>
    cases hBlank : isBlank next with
    | true => rw [Cursor.skipBlanks_blank hBlank, ih, minusSigns, if_pos hBlank]
    | false => rw [Cursor.skipBlanks_of_head (by simpa using hBlank)]

theorem suffixes_skipBlanks (negated : Bool) (position : Nat) (rest : List Char) :
    suffixes negated (Cursor.skipBlanks ⟨position, rest⟩).position
      (Cursor.skipBlanks ⟨position, rest⟩).rest = suffixes negated position rest := by
  induction rest generalizing position with
  | nil => rfl
  | cons next rest ih =>
    cases hBlank : isBlank next with
    | true => rw [Cursor.skipBlanks_blank hBlank, ih, suffixes, if_pos hBlank]
    | false => rw [Cursor.skipBlanks_of_head (by simpa using hBlank)]

theorem suffixes_congr {c d : Cursor} (negated : Bool) (h : c.skipBlanks = d.skipBlanks) :
    suffixes negated c.position c.rest = suffixes negated d.position d.rest := by
  rw [← suffixes_skipBlanks negated c.position, ← suffixes_skipBlanks negated d.position]
  exact congrArg (fun e : Cursor => suffixes negated e.position e.rest) h

theorem minusSigns_of_ne {negated : Bool} {c : Cursor} (h : c.skipBlanks.rest.head? ≠ some '-') :
    minusSigns negated c.position c.rest = (negated, c.skipBlanks) := by
  rw [← minusSigns_skipBlanks]
  have hHead := c.head_skipBlanks
  change minusSigns negated c.skipBlanks.position c.skipBlanks.rest = _
  generalize c.skipBlanks = d at h hHead ⊢
  obtain ⟨position, rest⟩ := d
  cases rest with
  | nil => rfl
  | cons next rest =>
    rw [minusSigns, if_neg (by simp [hHead next rfl]), if_neg (fun hMinus => h (congrArg some hMinus))]

theorem minusSigns_of_signs {c c' : Cursor} {odd : Bool} (hSigns : c.Signs odd c')
    (hEnd : c'.skipBlanks.rest.head? ≠ some '-') (negated : Bool) :
    minusSigns negated c.position c.rest = (negated ^^ odd, c'.skipBlanks) := by
  induction hSigns generalizing negated with
  | none => rw [minusSigns_of_ne hEnd, Bool.xor_false]
  | minus hSign h ih =>
    rename_i c c₁ c' odd
    rw [← minusSigns_skipBlanks]
    change minusSigns negated c.skipBlanks.position c.skipBlanks.rest = _
    rw [hSign.1, List.singleton_append, minusSigns, if_neg (by decide), if_pos rfl]
    rw [show c.skipBlanks.position + 1 = c₁.position from hSign.2.symm, ih hEnd]
    cases negated <;> cases odd <;> rfl

theorem suffixes_of_ended {c : Cursor} (negated : Bool) (h : Ended .factor c) :
    suffixes negated c.position c.rest = pure c.skipBlanks := by
  rw [← suffixes_skipBlanks]
  have hHead := c.head_skipBlanks
  change suffixes negated c.skipBlanks.position c.skipBlanks.rest = _
  rw [Ended] at h
  generalize c.skipBlanks = d at h hHead ⊢
  obtain ⟨position, rest⟩ := d
  cases rest with
  | nil => rfl
  | cons next rest =>
    have hNext := h next rfl
    simp only [Level.extenders, List.mem_cons, List.not_mem_nil, or_false, not_or] at hNext
    rw [suffixes, if_neg (by simp [hHead next rfl]), if_neg hNext.1, if_neg hNext.2]

theorem suffixes_of_token {c c' : Cursor} {negated : Bool} {next : Char} (hSign : c.Token [next] c') :
    suffixes negated c.position c.rest =
      suffixes negated c.skipBlanks.position (next :: c'.rest) := by
  rw [← suffixes_skipBlanks]
  exact congrArg _ hSign.1

theorem suffixes_factorial {c c' : Cursor} {negated : Bool} (hSign : c.Token ['!'] c') :
    suffixes negated c.position c.rest =
      c'.emit (.factorial negated) >>= fun _ => suffixes negated c'.position c'.rest := by
  rw [suffixes_of_token hSign, suffixes, if_neg (by decide), if_pos rfl, ← hSign.eq_advance]
  simp [Cursor.advance, Cursor.emit, hSign.1]

theorem suffixes_percent {c c' : Cursor} {negated : Bool} (hSign : c.Token ['%'] c') :
    suffixes negated c.position c.rest =
      c'.emit .percent >>= fun _ => suffixes negated c'.position c'.rest := by
  rw [suffixes_of_token hSign, suffixes, if_neg (by decide), if_neg (by decide), if_pos rfl,
    ← hSign.eq_advance]
  simp [Cursor.advance, Cursor.emit, hSign.1]

/-! ## Primaries -/

variable {room : Nat} {inside : Reader}

theorem ended_of_arguments {c c' : Cursor} {ts : List Tree} {next : Char} {rest : List Char}
    (h : Arguments c ts c') (hNext : c'.skipBlanks.rest = next :: rest)
    (hEnd : next ∉ Level.expression.extenders) : Ended .expression c := by
  cases h with
  | none => exact .of_head hNext hEnd
  | comma hComma => exact .of_head hComma.1 (by decide)

/-- Arguments behind commas are taken one by one, and rounds are left for all that follows. -/
theorem moreArguments_of_arguments (hInside : Complete .expression room inside) {c c' : Cursor}
    {ts : List Tree} {next : Char} {rest : List Char} (h : Arguments c ts c')
    (hDepth : Tree.depthAll ts < room) (hNext : c'.skipBlanks.rest = next :: rest)
    (hEnd : next ∉ Level.expression.extenders) {bound : Nat} (hBound : c.skipBlanks.rest.length ≤ bound)
    (count : Nat) :
    ∃ less, c'.skipBlanks.rest.length ≤ less ∧ moreArguments inside bound count c.skipBlanks =
      Tree.emitAll ts >>= fun _ => moreArguments inside less (count + ts.length) c'.skipBlanks := by
  induction ts generalizing c bound count with
  | nil =>
    cases h
    exact ⟨bound, hBound, rfl⟩
  | cons t ts ih =>
    cases h with
    | @comma _ c₁ c₂ _ _ _ hComma hFirst hMore =>
      rw [Tree.depthAll] at hDepth
      have hLength := hFirst.length_lt
      have hSkip := c₂.length_skipBlanks
      rw [hComma.1, List.length_append, List.length_singleton] at hBound
      cases bound with
      | zero => omega
      | succ bound =>
        have hRead := hInside c₁ t c₂ hFirst (by omega) (ended_of_arguments hMore hNext hEnd)
        have hRest : c₂.skipBlanks.rest.length ≤ bound := by omega
        obtain ⟨less, hLess, hOthers⟩ := ih hMore (by omega) hRest (count + 1)
        refine ⟨less, hLess, ?_⟩
        rw [moreArguments, hComma.1]
        simp only [List.singleton_append, ← hComma.eq_advance] at hRead ⊢
        rw [List.length_singleton] at hRead
        rw [hRead, Tree.emitAll, List.length_cons, bind_assoc, bind_assoc]
        simp only [pure_bind, hOthers, Nat.add_assoc, Nat.add_comm 1]

theorem complete_moreArguments (hInside : Complete .expression room inside) {c c' : Cursor}
    {ts : List Tree} {rest : List Char} (h : Arguments c ts c') (hDepth : Tree.depthAll ts < room)
    (hClose : c'.skipBlanks.rest = ')' :: rest) {bound : Nat}
    (hBound : c.skipBlanks.rest.length ≤ bound) (count : Nat) :
    moreArguments inside bound count c.skipBlanks =
      Tree.emitAll ts >>= fun _ => pure (count + ts.length, c'.skipBlanks) := by
  obtain ⟨less, -, hRead⟩ := moreArguments_of_arguments hInside h hDepth hClose (by decide) hBound count
  rw [hRead]
  cases less with
  | zero => rfl
  | succ less => simp [moreArguments, hClose]

theorem complete_call (hInside : Complete .expression room inside) {f : Builtin}
    {c₂ c₃ c₄ c' : Cursor} {t : Tree} {ts : List Tree} (hFirst : Derives .expression c₂ t c₃)
    (hMore : Arguments c₃ ts c₄) (hClose : c₄.Token [')'] c')
    (hDepth : Tree.depthAll (t :: ts) < room) (start : Nat) :
    call inside f start c₂ = (do
      Tree.emitAll (t :: ts)
      if (t :: ts).length = f.arity then do
        c'.emit (.call f)
        pure c'
      else .fail ⟨.arityMismatch f (t :: ts).length, start, c'.position⟩) := by
  rw [Tree.depthAll] at hDepth
  have hRest : c₄.skipBlanks.rest = ')' :: c'.rest := hClose.1
  have hReadFirst := hInside c₂ t c₃ hFirst (by omega) (ended_of_arguments hMore hRest (by decide))
  have hReadMore := complete_moreArguments hInside hMore (by omega) hRest (Nat.le_refl _) 1
  have hAfter : c₄.skipBlanks.advance 1 = c' := hClose.eq_advance
  simp only [call, hReadFirst, bind_assoc, pure_bind, hReadMore, hRest, hAfter, Tree.emitAll,
    List.length_cons, Nat.add_comm 1]

theorem primary_of_word {c c' : Cursor} {word : String} (h : c.Word word c') :
    primary inside c.skipBlanks = name inside c.skipBlanks := by
  obtain ⟨next, rest, hRest, hAlpha⟩ := h.head
  rw [primary, hRest]
  exact if_pos hAlpha

theorem takeWhile_word {c c' : Cursor} {word : String} (h : c.Word word c') :
    c.skipBlanks.rest.takeWhile Char.isAlpha = word.toList := by
  rw [h.token.1]
  exact takeWhile_run h.letters h.longest

theorem primary_of_call {c c₁ c₂ : Cursor} {word : String} {f : Builtin} (hWord : c.Word word c₁)
    (hFunction : Builtin.ofName? word = some f) (hOpen : c₁.Token ['('] c₂) :
    primary inside c.skipBlanks = call inside f c.skipBlanks.position c₂ := by
  have hRest : c₁.skipBlanks.rest = '(' :: c₂.rest := hOpen.1
  have hAfter : c₁.skipBlanks.advance 1 = c₂ := hOpen.eq_advance
  rw [primary_of_word hWord, name]
  simp only [takeWhile_word hWord, hWord.token.eq_advance, String.ofList_toList, hRest, hAfter, hFunction]

theorem complete_name {c c' : Cursor} {word : String} (hWord : c.Word word c')
    (hBare : c'.skipBlanks.rest.head? ≠ some '(') :
    name inside c.skipBlanks =
      (Tree.name word c.skipBlanks.position c'.skipBlanks.position).emit >>= fun _ =>
        pure c'.skipBlanks := by
  rw [name]
  simp only [takeWhile_word hWord, hWord.token.eq_advance, String.ofList_toList]
  split
  · rename_i hOpen
    exact absurd (congrArg List.head? hOpen) hBare
  · rfl

theorem complete_name_call (hInside : Complete .expression room inside)
    {c c₁ c₂ c₃ c₄ c' : Cursor} {word : String} {t : Tree} {ts : List Tree} (hWord : c.Word word c₁)
    (hOpen : c₁.Token ['('] c₂) (hFirst : Derives .expression c₂ t c₃) (hMore : Arguments c₃ ts c₄)
    (hClose : c₄.Token [')'] c') (hDepth : Tree.depthAll (t :: ts) < room) :
    name inside c.skipBlanks =
      (Tree.call word (t :: ts) c.skipBlanks.position c₁.skipBlanks.position c'.position).emit >>=
        fun _ => pure c' := by
  have hRest : c₁.skipBlanks.rest = '(' :: c₂.rest := hOpen.1
  have hAfter : c₁.skipBlanks.advance 1 = c₂ := hOpen.eq_advance
  rw [name]
  simp only [takeWhile_word hWord, hWord.token.eq_advance, String.ofList_toList, hRest, hAfter]
  rw [Tree.emit]
  cases Builtin.ofName? word with
  | none => rfl
  | some f =>
    simp only [complete_call hInside hFirst hMore hClose hDepth, bind_assoc]
    split <;> rfl

theorem not_isAlpha_of_isDigit {c : Char} (h : c.isDigit = true) : c.isAlpha = false := by
  have hNine : c.toNat ≤ '9'.toNat := (Char.isDigit_iff_toNat.mp h).2
  rw [Bool.eq_false_iff]
  intro hAlpha
  rcases Bool.or_eq_true_iff.mp hAlpha with hUpper | hLower
  · have hFirst : 'A'.toNat ≤ c.toNat := UInt32.le_iff_toNat_le.mp (of_decide_eq_true hUpper).1
    exact absurd (hFirst.trans hNine) (by decide)
  · have hFirst : 'a'.toNat ≤ c.toNat :=
      UInt32.le_iff_toNat_le.mp (of_decide_eq_true (Bool.and_eq_true_iff.mp hLower).1)
    exact absurd (hFirst.trans hNine) (by decide)

theorem complete_numeral {c c' : Cursor} {n : Numeral} (hLongest : n.Longest c.skipBlanks.rest)
    (hToken : c.Token n.text c') :
    primary inside c.skipBlanks =
      (Tree.literal n.value c'.position).emit >>= fun _ => pure c' := by
  obtain ⟨next, rest, hText, hNext⟩ := Numeral.head_text_of_proper hLongest.1
  have hRest : c.skipBlanks.rest = next :: (rest ++ c'.rest) := by rw [hToken.1, hText]; rfl
  have hScan := Numeral.scan?_eq_some_iff.mpr ⟨hLongest, hToken.1⟩
  have hAlpha : next.isAlpha = false := by
    rcases hNext with hDigit | rfl
    · exact not_isAlpha_of_isDigit hDigit
    · rfl
  rw [primary, hRest]
  simp only [hAlpha, Bool.or_eq_true, decide_eq_true_eq, if_pos hNext]
  rw [if_neg Bool.false_ne_true, numeral, hScan]
  simp only [hToken.eq_advance]
  rfl

theorem primary_of_opener {c c₁ : Cursor} {b : Bracket} (hOpen : c.Token [b.opener] c₁) :
    primary inside c.skipBlanks = group inside b c.skipBlanks := by
  rw [primary, hOpen.1]
  cases b <;> rfl

theorem complete_group (hInside : Complete .expression room inside) {c c₁ c₂ c' : Cursor} {b : Bracket}
    {t : Tree} (hOpen : c.Token [b.opener] c₁) (hInner : Derives .expression c₁ t c₂)
    (hClose : c₂.Token [b.closer] c') (hDepth : t.depth < room) :
    primary inside c.skipBlanks = t.emit >>= fun _ => pure c' := by
  have hRest : c₂.skipBlanks.rest = b.closer :: c'.rest := hClose.1
  have hEnded : Ended .expression c₂ := .of_head hRest (by cases b <;> decide)
  have hReadInner := hInside c₁ t c₂ hInner hDepth hEnded
  rw [primary_of_opener hOpen, group]
  have hOpened : c.skipBlanks.advance 1 = c₁ := hOpen.eq_advance
  have hClosed : c₂.skipBlanks.advance 1 = c' := hClose.eq_advance
  simp only [hOpened, hReadInner, bind_assoc, pure_bind, hRest, if_pos, hClosed]

theorem complete_primary (hInside : Complete .expression room inside) {c c' : Cursor} {t : Tree}
    (h : Derives .primary c t c') (hDepth : t.depth < room + 1) :
    ∃ c'', c''.skipBlanks = c'.skipBlanks ∧
      primary inside c.skipBlanks = t.emit >>= fun _ => pure c'' := by
  cases h with
  | literal hLongest hToken => exact ⟨c', rfl, complete_numeral hLongest hToken⟩
  | name hWord hBare =>
    exact ⟨_, c'.skipBlanks_skipBlanks, (primary_of_word hWord).trans (complete_name hWord hBare)⟩
  | call hWord hOpen hFirst hMore hClose =>
    rw [Tree.depth] at hDepth
    refine ⟨c', rfl, (primary_of_word hWord).trans ?_⟩
    exact complete_name_call hInside hWord hOpen hFirst hMore hClose (by omega)
  | group hOpen hInner hClose =>
    rw [Tree.depth] at hDepth
    have hRead := complete_group hInside hOpen hInner hClose (by omega)
    exact ⟨c', rfl, hRead⟩

/-! ## Factors, powers and chains -/

theorem complete_suffixed (hInside : Complete .expression room inside) {negated : Bool} {c c' : Cursor}
    {t : Tree} (h : Derives (.suffixed negated) c t c') (hDepth : t.depth < room + 1) :
    (primary inside c.skipBlanks >>= fun d => suffixes negated d.position d.rest) =
      t.emit >>= fun _ => suffixes negated c'.position c'.rest := by
  cases h with
  | operand _ h =>
    obtain ⟨c'', hSame, hRead⟩ := complete_primary hInside h hDepth
    rw [hRead, bind_assoc]
    simp only [pure_bind, suffixes_congr negated hSame]
  | factorial hOperand hSign =>
    rw [Tree.depth] at hDepth
    rw [complete_suffixed hInside hOperand hDepth, suffixes_factorial hSign, Tree.emit, bind_assoc]
    rfl
  | percent hOperand hSign =>
    rw [Tree.depth] at hDepth
    rw [complete_suffixed hInside hOperand hDepth, suffixes_percent hSign, Tree.emit, bind_assoc]
    rfl
termination_by t

theorem complete_factor (hInside : Complete .expression room inside) :
    Complete .factor (room + 1) (factor inside) := by
  intro c t c' h hDepth hEnded
  cases h with
  | @factor _ c₁ _ t odd hSigns hOperand =>
    rw [Tree.depth_signed] at hDepth
    have hMinus : c₁.skipBlanks.rest.head? ≠ some '-' := by
      intro hHead
      obtain ⟨next, hNext, hStart⟩ := head_suffixed hOperand
      rw [hHead] at hNext
      cases hNext
      revert hStart
      decide
    have hRead := complete_suffixed hInside hOperand hDepth
    rw [suffixes_of_ended odd hEnded] at hRead
    rw [factor, minusSigns_of_signs hSigns hMinus, Bool.false_xor]
    dsimp only
    rw [← bind_assoc, hRead, bind_assoc]
    cases odd with
    | false => simp only [pure_bind, Tree.signed]; rfl
    | true => simp only [pure_bind, Tree.signed, Tree.emit, if_true, bind_assoc]; rfl

theorem complete_powerOf {exponent : Reader} (hInside : Complete .expression room inside)
    (hExponent : Complete .power room exponent) :
    Complete .power (room + 1) (powerOf inside exponent) := by
  intro c t c' h hDepth hEnded
  cases h with
  | base h =>
    have hRead := complete_factor hInside c t c' h hDepth (hEnded.mono (by decide))
    rw [powerOf, hRead, bind_assoc]
    simp only [pure_bind]
    split
    · rename_i hRest
      exact absurd (hEnded.ne hRest) (by decide)
    · rfl
  | @power _ c₁ c₂ _ a b hBase hSign hRight =>
    rw [Tree.depth_pow] at hDepth
    have hRest : c₁.skipBlanks.rest = '^' :: c₂.rest := hSign.1
    have hAfter : c₁.skipBlanks.advance 1 = c₂ := hSign.eq_advance
    have hReadBase := complete_factor hInside c a c₁ hBase (by omega) (.of_head hRest (by decide))
    have hReadRight := hExponent c₂ b c' hRight (by omega) hEnded
    simp only [powerOf, hReadBase, bind_assoc, pure_bind, hRest, hAfter, hReadRight, Tree.emit]
    rfl

/-- The chain has emitted the tree and stands behind it, with rounds left for all that follows. -/
def Chained (operator? : List Char → Option (Operator × Nat)) (operand : Reader) (c : Cursor) (t : Tree)
    (c' : Cursor) : Prop :=
  ∃ bound, c'.skipBlanks.rest.length ≤ bound ∧
    chain operator? operand c = t.emit >>= fun _ => links operator? operand bound c'.skipBlanks

section Chains

variable {upper lower : Level} {operators : List Operator}
  {operator? : List Char → Option (Operator × Nat)} {operand : Reader}

theorem chained_operand {c c' : Cursor} {t : Tree}
    (hRead : operand c = t.emit >>= fun _ => pure c'.skipBlanks) : Chained operator? operand c t c' := by
  refine ⟨c'.skipBlanks.rest.length, Nat.le_refl _, ?_⟩
  simp only [chain, hRead, bind_assoc, pure_bind]

theorem Chained.link {c c₁ c₂ c' : Cursor} {a b : Tree} {op : Operator}
    (h : Chained operator? operand c a c₁) (hSign : c₁.Token op.token c₂)
    (hFound : operator? c₁.skipBlanks.rest = some (op, op.token.length))
    (hRead : operand c₂ = b.emit >>= fun _ => pure c'.skipBlanks)
    (hLength : c'.rest.length < c₂.rest.length) :
    Chained operator? operand c (.binary op a b c'.skipBlanks.position) c' := by
  obtain ⟨bound, hBound, hChain⟩ := h
  have hSkip := c'.length_skipBlanks
  rw [hSign.1, List.length_append] at hBound
  cases bound with
  | zero => omega
  | succ bound =>
    refine ⟨bound, by omega, ?_⟩
    rw [hChain]
    simp only [links, hFound, hSign.eq_advance, hRead, bind_assoc, pure_bind, Tree.emit]
    rfl

theorem Chained.read {c c' : Cursor} {t : Tree} (h : Chained operator? operand c t c')
    (hEnd : operator? c'.skipBlanks.rest = none) :
    chain operator? operand c = t.emit >>= fun _ => pure c'.skipBlanks := by
  obtain ⟨bound, -, hChain⟩ := h
  rw [hChain]
  cases bound with
  | zero => rfl
  | succ bound => simp only [links, hEnd]

theorem Chains.chained (hChains : Chains upper lower operators operator?)
    (hOperand : Complete lower room operand) {c c' : Cursor} {t : Tree} (h : Derives upper c t c')
    (hDepth : t.depth < room) (hEnded : Ended lower c') : Chained operator? operand c t c' := by
  rcases hChains.cases h with h | ⟨c₁, c₂, a, b, op, rfl, hLeft, hMember, hSign, hRight⟩
  · exact chained_operand (hOperand c t c' h hDepth hEnded)
  · rw [Tree.depth_binary (hChains.ne_pow hMember)] at hDepth
    -- The left operand is the shorter chain, and the operator behind it ends its last operand.
    have hChain := hChains.chained hOperand hLeft (by omega) (hChains.ended hMember hSign)
    have hRead := hOperand c₂ b c' hRight (by omega) hEnded
    exact hChain.link hSign (hChains.finds hMember hSign hRight) hRead hRight.length_lt
termination_by t

theorem Chains.complete (hChains : Chains upper lower operators operator?)
    (hOperand : Complete lower room operand) : Complete upper room (chain operator? operand) := by
  intro c t c' h hDepth hEnded
  exact (hChains.chained hOperand h hDepth (hEnded.mono hChains.extenders)).read (hChains.done hEnded)

end Chains

/-! ## Levels of nesting -/

theorem complete_power (deep : Cause) (levels : Nat) :
    Complete .power (levels + 1) (power deep levels) := by
  induction levels with
  | zero => exact complete_powerOf (complete_zero _ _) (complete_zero _ _)
  | succ levels ih => exact complete_powerOf (chains_sum.complete (chains_product.complete ih)) ih

theorem complete_expression (deep : Cause) (levels : Nat) :
    Complete .expression levels (expression deep levels) := by
  cases levels with
  | zero => exact complete_zero _ _
  | succ levels => exact chains_sum.complete (chains_product.complete (complete_power deep levels))

/-- A text with a tree is read as the code of the tree, if there are levels enough. -/
theorem read_of_parses [Interpreter] {limit : Int} {text : List Char} {t : Tree} (h : Parses text t)
    (hNesting : t.nesting ≤ levels limit) : read limit text = t.emit := by
  obtain ⟨c', hExpression, hEnd⟩ := h
  have hEnded : Ended .expression c' := by
    intro next hNext
    rw [hEnd] at hNext
    cases hNext
  have hDepth : t.depth < levels limit := by
    rw [Tree.nesting] at hNesting
    omega
  rw [read, complete_expression _ _ _ t c' hExpression hDepth hEnded, bind_assoc]
  simp only [pure_bind, hEnd]
  exact bind_pure t.emit

end Reckon.Expression
