import Reckon.Proofs.Expression.Boundaries

/-! # What is read has a derivation

Each reader is sound for its level of the grammar if the readers of its parts are. The room of a
reader bounds the nesting of what it takes in.
-/
namespace Reckon.Expression
set_option autoImplicit false
open Text (isBlank)

theorem Reading.outcome_bind_eq_ok {α β : Type} {m : Reading α} {f : α → Reading β} {b : β}
    (h : (m >>= f).outcome = .ok b) : ∃ a, m.outcome = .ok a ∧ (f a).outcome = .ok b := by
  cases hOutcome : m.outcome with
  | error complaint => rw [Reading.bind_of_error hOutcome] at h; cases h
  | ok a => rw [Reading.bind_of_ok hOutcome] at h; exact ⟨a, rfl, h⟩

/-- Where the reader comes to an end, an expression of the level has ended that nests less deep than
    `room`, and the blanks behind it have been skipped. -/
def Sound (level : Level) (room : Nat) (reader : Reader) : Prop :=
  ∀ c c'' : Cursor, (reader c).outcome = .ok c'' →
    ∃ t c', Derives level c t c' ∧ c'' = c'.skipBlanks ∧ t.depth < room

theorem sound_refuse (level : Level) (room : Nat) (cause : Cause) : Sound level room (refuse cause) := by
  intro c c'' h
  cases h

/-! ## Signs around a primary -/

theorem Cursor.Signs.of_skipBlanks {c d c' : Cursor} {odd : Bool} (h : c.Signs odd c')
    (hSame : d.skipBlanks = c.skipBlanks) : ∃ d', d.Signs odd d' ∧ d'.skipBlanks = c'.skipBlanks := by
  cases h with
  | none => exact ⟨d, .none d, hSame⟩
  | minus hSign h =>
    refine ⟨c', .minus ?_ h, rfl⟩
    rw [Cursor.Token, hSame]
    exact hSign

theorem signs_minusSigns (negated : Bool) (position : Nat) (rest : List Char) :
    ∃ odd c', Cursor.Signs ⟨position, rest⟩ odd c' ∧
      minusSigns negated position rest = (negated ^^ odd, c'.skipBlanks) := by
  induction rest generalizing negated position with
  | nil => exact ⟨false, _, .none _, by simp [minusSigns, Cursor.skipBlanks_nil]⟩
  | cons next rest ih =>
    rw [minusSigns]
    split
    · rename_i hBlank
      obtain ⟨odd, c', hSigns, hResult⟩ := ih negated (position + 1)
      obtain ⟨d', hSigns, hSame⟩ := hSigns.of_skipBlanks (Cursor.skipBlanks_blank hBlank)
      exact ⟨odd, d', hSigns, by rw [hResult, hSame]⟩
    · rename_i hBlank
      have hHere : Cursor.skipBlanks ⟨position, next :: rest⟩ = ⟨position, next :: rest⟩ :=
        Cursor.skipBlanks_of_head (by simpa using hBlank)
      split
      · rename_i hMinus
        obtain ⟨odd, c', hSigns, hResult⟩ := ih (!negated) (position + 1)
        refine ⟨!odd, c', .minus ?_ hSigns, ?_⟩
        · rw [Cursor.Token, hHere, hMinus]
          exact ⟨rfl, rfl⟩
        · rw [hResult]
          cases negated <;> cases odd <;> rfl
      · exact ⟨false, _, .none _, by rw [hHere]; simp⟩

theorem derives_suffixes {negated : Bool} {c c₁ c'' : Cursor} {t : Tree} {position : Nat}
    {rest : List Char} (h : Derives (.suffixed negated) c t c₁)
    (hHere : c₁.skipBlanks = Cursor.skipBlanks ⟨position, rest⟩)
    (hRead : (suffixes negated position rest).outcome = .ok c'') :
    ∃ t' c', Derives (.suffixed negated) c t' c' ∧ c'' = c'.skipBlanks ∧ t'.depth = t.depth := by
  induction rest generalizing c₁ t position with
  | nil =>
    cases hRead
    exact ⟨t, c₁, h, hHere.symm, rfl⟩
  | cons next rest ih =>
    rw [suffixes] at hRead
    split at hRead
    · rename_i hBlank
      exact ih h (hHere.trans (Cursor.skipBlanks_blank hBlank)) hRead
    · rename_i hBlank
      have hStay : Cursor.skipBlanks ⟨position, next :: rest⟩ = ⟨position, next :: rest⟩ :=
        Cursor.skipBlanks_of_head (by simpa using hBlank)
      rw [hStay] at hHere
      have hToken : c₁.Token [next] ⟨position + 1, rest⟩ := by
        rw [Cursor.Token, hHere]
        exact ⟨rfl, rfl⟩
      split at hRead
      · rename_i hSign
        subst hSign
        obtain ⟨-, -, hRead⟩ := Reading.outcome_bind_eq_ok hRead
        exact ih (t := .factorial negated t (position + 1)) (h.factorial hToken) rfl hRead
      · split at hRead
        · rename_i hSign
          subst hSign
          obtain ⟨-, -, hRead⟩ := Reading.outcome_bind_eq_ok hRead
          exact ih (t := .percent t (position + 1)) (h.percent hToken) rfl hRead
        · cases hRead
          exact ⟨t, c₁, h, hHere.symm, rfl⟩

/-! ## Primaries -/

theorem derives_numeral {c c'' : Cursor} (h : (numeral c.skipBlanks).outcome = .ok c'') :
    ∃ t, Derives .primary c t c'' ∧ t.depth = 0 := by
  rw [numeral] at h
  split at h
  · cases h
  · rename_i n rest hScan
    obtain ⟨-, -, hEnd⟩ := Reading.outcome_bind_eq_ok h
    cases hEnd
    obtain ⟨hLongest, hText⟩ := Numeral.scan?_eq_some_iff.mp hScan
    exact ⟨_, .literal hLongest (Cursor.token_advance hText), rfl⟩

variable {room : Nat} {inside : Reader}

theorem derives_moreArguments (hInside : Sound .expression room inside) (hRoom : 0 < room)
    {bound count count' : Nat} {c c'' : Cursor}
    (h : (moreArguments inside bound count c.skipBlanks).outcome = .ok (count', c'')) :
    ∃ ts c', Arguments c ts c' ∧ c'' = c'.skipBlanks ∧ Tree.depthAll ts < room := by
  induction bound generalizing count c with
  | zero =>
    cases h
    exact ⟨[], c, .none c, rfl, hRoom⟩
  | succ bound ih =>
    rw [moreArguments] at h
    split at h
    · rename_i rest hComma
      obtain ⟨c₂', hRead, hRest⟩ := Reading.outcome_bind_eq_ok h
      obtain ⟨t, c₂, hNext, rfl, hDepth⟩ := hInside _ _ hRead
      obtain ⟨ts, c', hMore, hEnd, hDepths⟩ := ih hRest
      refine ⟨t :: ts, c', .comma (Cursor.token_advance hComma) hNext hMore, hEnd, ?_⟩
      rw [Tree.depthAll]
      omega
    · cases h
      exact ⟨[], c, .none c, rfl, hRoom⟩

theorem derives_call (hInside : Sound .expression room inside) {f : Builtin} {word : String}
    {c c₁ c₂ c'' : Cursor} (hWord : c.Word word c₁) (hOpen : c₁.Token ['('] c₂)
    (h : (call inside f c.skipBlanks.position c₂).outcome = .ok c'') :
    ∃ t, Derives .primary c t c'' ∧ t.depth < room + 1 := by
  rw [call] at h
  obtain ⟨c₃', hReadFirst, h⟩ := Reading.outcome_bind_eq_ok h
  obtain ⟨t, c₃, hFirst, rfl, hDepth⟩ := hInside _ _ hReadFirst
  obtain ⟨⟨count, c₄'⟩, hReadMore, h⟩ := Reading.outcome_bind_eq_ok h
  obtain ⟨ts, c₄, hMore, rfl, hDepths⟩ := derives_moreArguments hInside (by omega) hReadMore
  dsimp only at h
  split at h
  · rename_i rest hClose
    split at h
    · obtain ⟨-, -, hEnd⟩ := Reading.outcome_bind_eq_ok h
      cases hEnd
      refine ⟨_, .call hWord hOpen hFirst hMore (Cursor.token_advance hClose), ?_⟩
      simp only [Tree.depth, Tree.depthAll]
      omega
    · cases h
  · cases h

theorem word_of_head {c : Cursor} {first : Char} {rest : List Char}
    (hRest : c.skipBlanks.rest = first :: rest) (hFirst : first.isAlpha = true) :
    c.Word (String.ofList (c.skipBlanks.rest.takeWhile Char.isAlpha))
      (c.skipBlanks.advance (c.skipBlanks.rest.takeWhile Char.isAlpha).length) where
  token := by
    rw [String.toList_ofList]
    apply Cursor.token_advance
    exact (List.takeWhile_append_dropWhile (p := Char.isAlpha)).symm
  nonempty := by simp [hRest, hFirst]
  letters := by
    intro l hLetter
    rw [String.toList_ofList] at hLetter
    exact List.mem_takeWhile_imp hLetter
  longest := by
    intro next hNext
    have hAfter : (c.skipBlanks.advance (c.skipBlanks.rest.takeWhile Char.isAlpha).length).rest =
        c.skipBlanks.rest.dropWhile Char.isAlpha := calc
      _ = (c.skipBlanks.rest.takeWhile Char.isAlpha ++ c.skipBlanks.rest.dropWhile Char.isAlpha).drop
          (c.skipBlanks.rest.takeWhile Char.isAlpha).length := by
        rw [List.takeWhile_append_dropWhile]
        rfl
      _ = c.skipBlanks.rest.dropWhile Char.isAlpha := List.drop_left
    have hHead := List.head?_dropWhile_not Char.isAlpha c.skipBlanks.rest
    rw [← hAfter, Option.mem_def.mp hNext] at hHead
    simpa using hHead

theorem derives_name (hInside : Sound .expression room inside) {c c'' : Cursor} {first : Char}
    {rest : List Char} (hRest : c.skipBlanks.rest = first :: rest) (hFirst : first.isAlpha = true)
    (h : (name inside c.skipBlanks).outcome = .ok c'') :
    ∃ t c', Derives .primary c t c' ∧ c''.skipBlanks = c'.skipBlanks ∧ t.depth < room + 1 := by
  have hWord := word_of_head hRest hFirst
  rw [name] at h
  split at h
  · rename_i after hOpen
    split at h
    · cases h
    · obtain ⟨t, hCall, hDepth⟩ := derives_call hInside hWord (Cursor.token_advance hOpen) h
      exact ⟨t, c'', hCall, rfl, hDepth⟩
  · rename_i hBare
    obtain ⟨-, -, hEnd⟩ := Reading.outcome_bind_eq_ok h
    cases hEnd
    refine ⟨_, _, .name hWord ?_, Cursor.skipBlanks_skipBlanks _, Nat.succ_pos room⟩
    intro hHead
    obtain ⟨after, hOpen⟩ := List.head?_eq_some_iff.mp hHead
    exact hBare after hOpen

theorem derives_group (hInside : Sound .expression room inside) {b : Bracket} {c c'' : Cursor}
    {rest : List Char} (hOpen : c.skipBlanks.rest = b.opener :: rest)
    (h : (group inside b c.skipBlanks).outcome = .ok c'') :
    ∃ t, Derives .primary c t c'' ∧ t.depth < room + 1 := by
  rw [group] at h
  obtain ⟨c₂', hReadInner, h⟩ := Reading.outcome_bind_eq_ok h
  obtain ⟨t, c₂, hInner, rfl, hDepth⟩ := hInside _ _ hReadInner
  split at h
  · rename_i closer after hClose
    split at h
    · rename_i hCloser
      subst hCloser
      cases h
      refine ⟨_, .group (Cursor.token_advance hOpen) hInner (Cursor.token_advance hClose), ?_⟩
      rw [Tree.depth]
      omega
    · cases h
  · cases h

theorem derives_primary (hInside : Sound .expression room inside) {c c'' : Cursor}
    (h : (primary inside c.skipBlanks).outcome = .ok c'') :
    ∃ t c', Derives .primary c t c' ∧ c''.skipBlanks = c'.skipBlanks ∧ t.depth < room + 1 := by
  rw [primary] at h
  split at h
  · cases h
  · rename_i first rest hRest
    split at h
    · rename_i hAlpha
      exact derives_name hInside hRest hAlpha h
    · split at h
      · obtain ⟨t, hNumeral, hDepth⟩ := derives_numeral h
        exact ⟨t, c'', hNumeral, rfl, by omega⟩
      · split at h
        · rename_i b hBracket
          obtain rfl := Bracket.ofOpener?_eq_some_iff.mp hBracket
          obtain ⟨t, hGroup, hDepth⟩ := derives_group hInside hRest h
          exact ⟨t, c'', hGroup, rfl, hDepth⟩
        · cases h

/-! ## Factors, powers and chains -/

theorem sound_factor (hInside : Sound .expression room inside) :
    Sound .factor (room + 1) (factor inside) := by
  intro c c'' h
  obtain ⟨odd, c₁, hSigns, hMinus⟩ := signs_minusSigns false c.position c.rest
  rw [factor, hMinus, Bool.false_xor] at h
  obtain ⟨c₂', hReadPrimary, h⟩ := Reading.outcome_bind_eq_ok h
  obtain ⟨t, c₂, hPrimary, hSame, hDepth⟩ := derives_primary hInside hReadPrimary
  obtain ⟨c₃', hReadSuffixes, h⟩ := Reading.outcome_bind_eq_ok h
  obtain ⟨t', c', hOperand, rfl, hEqual⟩ :=
    derives_suffixes (.operand odd hPrimary) hSame.symm hReadSuffixes
  refine ⟨_, c', .factor hSigns hOperand, ?_, ?_⟩
  · cases odd <;> (cases h; rfl)
  · rw [Tree.depth_signed, hEqual]
    exact hDepth

theorem sound_powerOf {exponent : Reader} (hInside : Sound .expression room inside)
    (hExponent : Sound .power room exponent) : Sound .power (room + 1) (powerOf inside exponent) := by
  intro c c'' h
  rw [powerOf] at h
  obtain ⟨c₁', hReadBase, h⟩ := Reading.outcome_bind_eq_ok h
  obtain ⟨a, c₁, hBase, rfl, hDepth⟩ := sound_factor hInside _ _ hReadBase
  split at h
  · rename_i rest hSign
    obtain ⟨c₃', hReadRight, h⟩ := Reading.outcome_bind_eq_ok h
    obtain ⟨b, c', hRight, rfl, hDepths⟩ := hExponent _ _ hReadRight
    cases h
    refine ⟨_, c', .power hBase (Cursor.token_advance hSign) hRight, rfl, ?_⟩
    rw [Tree.depth_pow]
    omega
  · cases h
    exact ⟨a, c₁, .base hBase, rfl, hDepth⟩

section Chains

variable {upper lower : Level} {operators : List Operator}
  {operator? : List Char → Option (Operator × Nat)} {operand : Reader}

theorem Chains.derives_links (hChains : Chains upper lower operators operator?)
    (hOperand : Sound lower room operand) {bound : Nat} {c c₁ c'' : Cursor} {a : Tree}
    (hLeft : Derives upper c a c₁) (hDepth : a.depth < room)
    (h : (links operator? operand bound c₁.skipBlanks).outcome = .ok c'') :
    ∃ t c', Derives upper c t c' ∧ c'' = c'.skipBlanks ∧ t.depth < room := by
  induction bound generalizing c₁ a with
  | zero =>
    cases h
    exact ⟨a, c₁, hLeft, rfl, hDepth⟩
  | succ bound ih =>
    rw [links] at h
    split at h
    · cases h
      exact ⟨a, c₁, hLeft, rfl, hDepth⟩
    · rename_i op width hFound
      obtain ⟨hMember, rfl, rest, hText⟩ := hChains.found hFound
      obtain ⟨c₂', hReadRight, h⟩ := Reading.outcome_bind_eq_ok h
      obtain ⟨b, c₂, hRight, rfl, hDepths⟩ := hOperand _ _ hReadRight
      obtain ⟨-, -, h⟩ := Reading.outcome_bind_eq_ok h
      -- The operand just read goes to the right of all that was read before.
      refine ih (hChains.link hLeft hMember (Cursor.token_advance hText) hRight) ?_ h
      rw [Tree.depth_binary (hChains.ne_pow hMember)]
      omega

theorem Chains.sound (hChains : Chains upper lower operators operator?)
    (hOperand : Sound lower room operand) : Sound upper room (chain operator? operand) := by
  intro c c'' h
  obtain ⟨c₁', hReadFirst, h⟩ := Reading.outcome_bind_eq_ok h
  obtain ⟨a, c₁, hFirst, rfl, hDepth⟩ := hOperand _ _ hReadFirst
  exact hChains.derives_links hOperand (hChains.operand hFirst) hDepth h

end Chains

/-! ## Levels of nesting -/

theorem sound_power (deep : Cause) (levels : Nat) : Sound .power (levels + 1) (power deep levels) := by
  induction levels with
  | zero => exact sound_powerOf (sound_refuse _ _ _) (sound_refuse _ _ _)
  | succ levels ih => exact sound_powerOf (chains_sum.sound (chains_product.sound ih)) ih

theorem sound_expression (deep : Cause) (levels : Nat) :
    Sound .expression levels (expression deep levels) := by
  cases levels with
  | zero => exact sound_refuse _ _ _
  | succ levels => exact chains_sum.sound (chains_product.sound (sound_power deep levels))

/-- A text that is read whole has a tree that nests no deeper than the levels there are. -/
theorem parses_of_read [Interpreter] {limit : Int} {text : List Char} (h : (read limit text).outcome = .ok ()) :
    ∃ t, Parses text t ∧ t.nesting ≤ levels limit := by
  rw [read] at h
  obtain ⟨c'', hReadExpression, h⟩ := Reading.outcome_bind_eq_ok h
  obtain ⟨t, c', hExpression, rfl, hDepth⟩ := sound_expression _ _ _ _ hReadExpression
  split at h
  · rename_i hEnd
    refine ⟨t, ⟨c', hExpression, hEnd⟩, ?_⟩
    rw [Tree.nesting]
    omega
  · cases h

end Reckon.Expression
