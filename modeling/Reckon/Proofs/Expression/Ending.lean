import Reckon.Proofs.Expression.Completeness
import Reckon.Proofs.Expression.Progress
import Reckon.Proofs.Expression.Soundness

/-! # Where a reading ends

A reader takes all that it can: it ends behind blanks, before a character that extends no expression of
its level. Such a reader has read exactly the code of a tree.
-/
namespace Reckon.Expression
set_option autoImplicit false
open Text (isBlank)

/-- Where the reader comes to an end, blanks have been skipped and nothing extends what was read. -/
def Exhausts (level : Level) (reader : Reader) : Prop :=
  ∀ c c'' : Cursor, (reader c).outcome = .ok c'' → c''.skipBlanks = c'' ∧ Ended level c''

theorem exhausts_refuse (level : Level) (cause : Cause) : Exhausts level (refuse cause) := by
  intro c c'' h
  cases h

theorem Ended.of_skipBlanks {level : Level} {c : Cursor} (h : Ended level c.skipBlanks) : Ended level c := by
  rw [Ended, Cursor.skipBlanks_skipBlanks] at h
  exact h

theorem ended_of_rest_nil {level : Level} {c : Cursor} (h : c.rest = []) : Ended level c := by
  obtain ⟨position, rest⟩ := c
  obtain rfl : rest = [] := h
  intro next hNext
  cases hNext

/-! ## Factors and powers -/

theorem exhausts_suffixes {negated : Bool} {position : Nat} {rest : List Char} {c'' : Cursor}
    (h : (suffixes negated position rest).outcome = .ok c'') :
    c''.skipBlanks = c'' ∧ Ended .factor c'' := by
  induction rest generalizing position with
  | nil =>
    cases h
    exact ⟨rfl, ended_of_rest_nil rfl⟩
  | cons next rest ih =>
    rw [suffixes] at h
    split at h
    · exact ih h
    · rename_i hBlank
      split at h
      · obtain ⟨-, -, h⟩ := Reading.outcome_bind_eq_ok h
        exact ih h
      · rename_i hFactorial
        split at h
        · obtain ⟨-, -, h⟩ := Reading.outcome_bind_eq_ok h
          exact ih h
        · rename_i hPercent
          cases h
          have hHere : Cursor.skipBlanks ⟨position, next :: rest⟩ = ⟨position, next :: rest⟩ :=
            Cursor.skipBlanks_of_head (by simpa using hBlank)
          refine ⟨hHere, .of_head (congrArg Cursor.rest hHere) ?_⟩
          simp [Level.extenders, hFactorial, hPercent]

theorem exhausts_factor (inside : Reader) : Exhausts .factor (factor inside) := by
  intro c c'' h
  rw [factor] at h
  generalize minusSigns false c.position c.rest = signs at h
  obtain ⟨negated, c₁⟩ := signs
  obtain ⟨c₂, -, h⟩ := Reading.outcome_bind_eq_ok h
  obtain ⟨c₃, hSuffixes, h⟩ := Reading.outcome_bind_eq_ok h
  have hEnd := exhausts_suffixes hSuffixes
  cases negated <;> (cases h; exact hEnd)

theorem exhausts_powerOf (inside : Reader) {exponent : Reader} (hExponent : Exhausts .power exponent) :
    Exhausts .power (powerOf inside exponent) := by
  intro c c'' h
  rw [powerOf] at h
  obtain ⟨c₁, hBase, h⟩ := Reading.outcome_bind_eq_ok h
  split at h
  · obtain ⟨c₂, hRight, h⟩ := Reading.outcome_bind_eq_ok h
    cases h
    exact hExponent _ _ hRight
  · rename_i hSign
    cases h
    obtain ⟨hHere, hEnded⟩ := exhausts_factor inside _ _ hBase
    refine ⟨hHere, fun next hNext => ?_⟩
    have hFactor : next ∉ Level.factor.extenders := hEnded next hNext
    rw [hHere] at hNext
    obtain ⟨rest, hRest⟩ := List.head?_eq_some_iff.mp hNext
    have hPower : next ≠ '^' := by
      rintro rfl
      exact hSign rest hRest
    simp only [Level.extenders, List.mem_cons, List.not_mem_nil, or_false, not_or] at hFactor ⊢
    exact ⟨hFactor.1, hFactor.2, hPower⟩

/-! ## Chains -/

section Chains

variable {upper lower : Level} {operator? : List Char → Option (Operator × Nat)} {operand : Reader}

/-- Where no operator of the chain stands, nothing extends the chain. -/
def Finishes (upper lower : Level) (operator? : List Char → Option (Operator × Nat)) : Prop :=
  ∀ c : Cursor, c.skipBlanks = c → Ended lower c → operator? c.rest = none → Ended upper c

theorem finishes_product : Finishes .product .power productOperator? := by
  intro c hHere hEnded hNone next hNext
  have hPower : next ∉ Level.power.extenders := hEnded next hNext
  rw [hHere] at hNext
  obtain ⟨rest, hRest⟩ := List.head?_eq_some_iff.mp hNext
  rw [hRest] at hNone
  have hTimes : next ≠ 'x' := by
    rintro rfl
    cases hNone
  have hOver : next ≠ '/' := by
    rintro rfl
    rw [productOperator?.eq_def] at hNone
    split at hNone <;> simp_all
  simp only [Level.extenders, List.mem_cons, List.not_mem_nil, or_false, not_or] at hPower ⊢
  exact ⟨hPower.1, hPower.2.1, hPower.2.2, hTimes, hOver⟩

theorem finishes_sum : Finishes .expression .product sumOperator? := by
  intro c hHere hEnded hNone next hNext
  have hProduct : next ∉ Level.product.extenders := hEnded next hNext
  rw [hHere] at hNext
  obtain ⟨rest, hRest⟩ := List.head?_eq_some_iff.mp hNext
  rw [hRest] at hNone
  have hPlus : next ≠ '+' := by
    rintro rfl
    cases hNone
  have hMinus : next ≠ '-' := by
    rintro rfl
    cases hNone
  simp only [Level.extenders, List.mem_cons, List.not_mem_nil, or_false, not_or] at hProduct ⊢
  exact ⟨hProduct.1, hProduct.2.1, hProduct.2.2.1, hProduct.2.2.2.1, hProduct.2.2.2.2, hPlus, hMinus⟩

theorem exhausts_links (hStanding : Standing operator?) (hFinishes : Finishes upper lower operator?)
    (hForward : Forward operand) (hOperand : Exhausts lower operand) {bound : Nat} {c c'' : Cursor}
    (hBound : c.rest.length ≤ bound) (hHere : c.skipBlanks = c) (hEnded : Ended lower c)
    (h : (links operator? operand bound c).outcome = .ok c'') : c''.skipBlanks = c'' ∧ Ended upper c'' := by
  induction bound generalizing c with
  | zero =>
    cases h
    exact ⟨hHere, ended_of_rest_nil (List.length_eq_zero_iff.mp (Nat.le_zero.mp hBound))⟩
  | succ bound ih =>
    rw [links] at h
    split at h
    · rename_i hNone
      cases h
      exact ⟨hHere, hFinishes _ hHere hEnded hNone⟩
    · rename_i op width hFound
      obtain ⟨c₁, hRead, h⟩ := Reading.outcome_bind_eq_ok h
      obtain ⟨-, -, h⟩ := Reading.outcome_bind_eq_ok h
      obtain ⟨hHere₁, hEnded₁⟩ := hOperand _ _ hRead
      obtain ⟨hWidth, hLength⟩ := hStanding _ _ _ hFound
      have hShorter : c₁.rest.length ≤ (c.rest.drop width).length :=
        ((hForward _).ahead hRead).length_le
      rw [List.length_drop] at hShorter
      exact ih (by omega) hHere₁ hEnded₁ h

theorem exhausts_chain (hStanding : Standing operator?) (hFinishes : Finishes upper lower operator?)
    (hForward : Forward operand) (hOperand : Exhausts lower operand) :
    Exhausts upper (chain operator? operand) := by
  intro c c'' h
  obtain ⟨c₁, hFirst, h⟩ := Reading.outcome_bind_eq_ok h
  obtain ⟨hHere, hEnded⟩ := hOperand _ _ hFirst
  exact exhausts_links hStanding hFinishes hForward hOperand (Nat.le_refl _) hHere hEnded h

end Chains

/-! ## Readers of a level -/

/-- The reader takes expressions of the level that nest less deep than `room`, all of them, and as much
    of the text as such an expression can take. -/
structure Faithful (level : Level) (room : Nat) (reader : Reader) : Prop where
  sound : Sound level room reader
  complete : Complete level room reader
  exhausts : Exhausts level reader
  forward : Forward reader

theorem faithful_refuse (level : Level) (cause : Cause) : Faithful level 0 (refuse cause) where
  sound := sound_refuse level 0 cause
  complete := complete_zero level _
  exhausts := exhausts_refuse level cause
  forward := forward_refuse cause

section Readers

variable {room : Nat} {inside exponent reader : Reader}

theorem faithful_factor (hInside : Faithful .expression room inside) :
    Faithful .factor (room + 1) (factor inside) where
  sound := sound_factor hInside.sound
  complete := complete_factor hInside.complete
  exhausts := exhausts_factor inside
  forward := forward_factor hInside.forward

theorem faithful_powerOf (hInside : Faithful .expression room inside)
    (hExponent : Faithful .power room exponent) :
    Faithful .power (room + 1) (powerOf inside exponent) where
  sound := sound_powerOf hInside.sound hExponent.sound
  complete := complete_powerOf hInside.complete hExponent.complete
  exhausts := exhausts_powerOf inside hExponent.exhausts
  forward := forward_powerOf hInside.forward hExponent.forward

theorem faithful_productsOf (h : Faithful .power room reader) :
    Faithful .product room (productsOf reader) where
  sound := chains_product.sound h.sound
  complete := chains_product.complete h.complete
  exhausts := exhausts_chain standing_productOperator? finishes_product h.forward h.exhausts
  forward := forward_chain standing_productOperator? h.forward

theorem faithful_sumsOf (h : Faithful .power room reader) : Faithful .expression room (sumsOf reader) where
  sound := chains_sum.sound (faithful_productsOf h).sound
  complete := chains_sum.complete (faithful_productsOf h).complete
  exhausts := exhausts_chain standing_sumOperator? finishes_sum (faithful_productsOf h).forward
    (faithful_productsOf h).exhausts
  forward := forward_sumsOf h.forward

theorem faithful_power (deep : Cause) (levels : Nat) :
    Faithful .power (levels + 1) (power deep levels) := by
  induction levels with
  | zero => exact faithful_powerOf (faithful_refuse _ deep) (faithful_refuse _ deep)
  | succ levels ih => exact faithful_powerOf (faithful_sumsOf ih) ih

theorem faithful_expression (deep : Cause) (levels : Nat) :
    Faithful .expression levels (expression deep levels) := by
  cases levels with
  | zero => exact faithful_refuse _ deep
  | succ levels => exact faithful_sumsOf (faithful_power deep levels)

/-- What the reader takes is derived, ends where nothing extends it, and has given its code. -/
theorem Faithful.read {level : Level} (h : Faithful level room reader) {c c'' : Cursor}
    (hRead : (reader c).outcome = .ok c'') :
    ∃ t c', Derives level c t c' ∧ c'' = c'.skipBlanks ∧ t.depth < room ∧ Ended level c' ∧
      reader c = t.emit >>= fun _ => pure c'.skipBlanks := by
  obtain ⟨t, c', hDerives, rfl, hDepth⟩ := h.sound c c'' hRead
  have hEnded := (h.exhausts c _ hRead).2.of_skipBlanks
  exact ⟨t, c', hDerives, rfl, hDepth, hEnded, h.complete c t c' hDerives hDepth hEnded⟩

end Readers

end Reckon.Expression
