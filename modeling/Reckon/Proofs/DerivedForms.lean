import Reckon.Proofs.Alike
import Reckon.Proofs.Expression.Shift
import Reckon.Proofs.NumberTypes

/-! # Forms that stand for others

A root is a power with the reciprocal exponent, a percentage a quotient by one hundred, and a negation in
complex mode a difference from zero. Either form gives the same number, or fails in the same way, for every
operand that the grammar admits.
-/
namespace Reckon
set_option autoImplicit false
open Expression
open Text (isBlank)

/-! ## Operations -/

namespace Arithmetic

variable {A : Arithmetic} {x n : Number}

/-- Beside a number of the mode's type a real number counts as the number that it becomes in the mode. -/
theorem lift_coerce {f : Float → Float → Float} {g : Complex → Complex → Complex} {r : Float} {c : Number}
    (hCoerce : A.coerce (.real r) = .ok c) (hx : x.mode = A.mode) :
    Number.lift f g c x = Number.lift f g (.real r) x ∧
      Number.lift f g x c = Number.lift f g x (.real r) := by
  unfold coerce at hCoerce
  rw [← hx] at hCoerce
  cases x <;> (cases hCoerce; exact ⟨rfl, rfl⟩)

theorem exists_coerce_real (A : Arithmetic) (r : Float) : ∃ c, A.coerce (.real r) = .ok c := by
  unfold coerce
  cases A.mode <;> exact ⟨_, rfl⟩

/-- The root is the power with the quotient of one and the degree. -/
theorem root_eq_pow {one : Number} (hOne : A.coerce (.real 1) = .ok one) (hn : n.mode = A.mode) :
    A.root x n = A.div one n >>= A.pow x := by
  have hSame : one.div n = (Number.real 1).div n := (lift_coerce hOne hn).1
  rw [root, div, div, hSame]

theorem sub_eq_negate {zero : Number} (hMode : A.mode = .complex) (hZero : A.coerce (.real 0) = .ok zero)
    (hx : x.mode = A.mode) : A.sub zero x = A.negate x := by
  have hSame : zero - x = Number.real 0 - x := (lift_coerce hZero hx).1
  rw [sub, hSame, negate, hMode]

/-- One hundred does not count as zero. -/
theorem isZero_hundred {hundred : Number} (hEpsilon : A.epsilon ≤ 100)
    (hHundred : A.coerce (.real 100) = .ok hundred) : A.isZero hundred = .ok false := by
  unfold coerce at hHundred
  unfold isZero
  cases hMode : A.mode with
  | real =>
    rw [hMode] at hHundred
    cases hHundred
    exact congrArg Except.ok (by decide +kernel)
  | complex =>
    rw [hMode] at hHundred
    cases hHundred
    have hNumber : (Number.complex (.ofReal 100)).isZero = false := by decide +kernel
    have hMagnitude : magnitude (.complex (.ofReal 100)) = .ok 100 := by decide +kernel
    have hFar : ¬ (100 : Float) < A.epsilon := fun hLess => Binary64.not_le_iff.mpr (.inl hLess) hEpsilon
    change (if (Number.complex (.ofReal 100)).isZero then _ else magnitude (.complex (.ofReal 100)) >>= _) = _
    rw [hNumber, if_neg Bool.false_ne_true, hMagnitude, ok_bind]
    exact congrArg Except.ok (decide_eq_false hFar)

theorem div_eq_percent {hundred : Number} (hEpsilon : A.epsilon ≤ 100)
    (hHundred : A.coerce (.real 100) = .ok hundred) (hx : x.mode = A.mode) :
    A.div x hundred = A.percent x := by
  have hSame : x.div hundred = x.div (.real 100) := (lift_coerce hHundred hx).2
  rw [div, isZero_hundred hEpsilon hHundred, ok_bind, hSame, percent]
  rfl

end Arithmetic

/-! ## Parts of a text by their meaning -/

namespace Expression

variable {A : Arithmetic} {level : Level} {c c₁ c₂ c₃ c' : Cursor} {m m' : Except Failure Number}

/-- Between the cursors stands an expression of the level that means so much. -/
def Means (A : Arithmetic) (level : Level) (c c' : Cursor) (m : Except Failure Number) : Prop :=
  ∃ t, Derives level c t c' ∧ t.meaning A = m

theorem Means.factor (h : Means A .primary c c' m) : Means A .factor c c' m := by
  obtain ⟨t, hDerives, hMeaning⟩ := h
  exact ⟨t, .factor (.none c) (.operand false hDerives), hMeaning⟩

theorem Means.power (h : Means A .primary c c' m) : Means A .power c c' m := by
  obtain ⟨t, hDerives, hMeaning⟩ := h.factor
  exact ⟨t, .base hDerives, hMeaning⟩

theorem Means.expression (h : Means A .power c c' m) : Means A .expression c c' m := by
  obtain ⟨t, hDerives, hMeaning⟩ := h
  exact ⟨t, .summand (.single hDerives), hMeaning⟩

theorem Means.group {b : Bracket} (hOpen : c.Token [b.opener] c₁) (h : Means A .expression c₁ c₂ m)
    (hClose : c₂.Token [b.closer] c') : Means A .primary c c' m := by
  obtain ⟨t, hDerives, rfl⟩ := h
  exact ⟨_, .group hOpen hDerives hClose, Tree.meaning_group b t⟩

theorem Means.percent (h : Means A .primary c c₁ m) (hSign : c₁.Token ['%'] c') :
    Means A .power c c' (m >>= A.percent) := by
  obtain ⟨t, hDerives, rfl⟩ := h
  exact ⟨_, .base (.factor (.none c) (.percent (.operand false hDerives) hSign)),
    Tree.meaning_percent t _⟩

theorem Means.negate (hSign : c.Token ['-'] c₁) (h : Means A .primary c₁ c' m) :
    Means A .power c c' (m >>= A.negate) := by
  obtain ⟨t, hDerives, rfl⟩ := h
  exact ⟨_, .base (.factor (.minus hSign (.none c₁)) (.operand true hDerives)),
    Tree.meaning_negate t _⟩

theorem Means.pow (hBase : Means A .primary c c₁ m) (hSign : c₁.Token ['^'] c₂)
    (hExponent : Means A .power c₂ c' m') :
    Means A .power c c' (m >>= fun x => m' >>= A.pow x) := by
  obtain ⟨a, hDerives, rfl⟩ := hBase.factor
  obtain ⟨b, hDerives', rfl⟩ := hExponent
  exact ⟨_, .power hDerives hSign hDerives', Tree.meaning_binary .pow a b _⟩

theorem Means.div (hLeft : Means A .power c c₁ m) (hSign : c₁.Token ['/'] c₂)
    (hRight : Means A .power c₂ c' m') :
    Means A .expression c c' (m >>= fun x => m' >>= A.div x) := by
  obtain ⟨a, hDerives, rfl⟩ := hLeft
  obtain ⟨b, hDerives', rfl⟩ := hRight
  have hOperator : Operator.div ∈ productOperators := by decide
  exact ⟨_, .summand (.product (.single hDerives) hOperator hSign hDerives'),
    Tree.meaning_binary .div a b _⟩

theorem Means.sub (hLeft : Means A .power c c₁ m) (hSign : c₁.Token ['-'] c₂)
    (hRight : Means A .power c₂ c' m') :
    Means A .expression c c' (m >>= fun x => m' >>= A.sub x) := by
  obtain ⟨a, hDerives, rfl⟩ := hLeft
  obtain ⟨b, hDerives', rfl⟩ := hRight
  have hOperator : Operator.sub ∈ sumOperators := by decide
  exact ⟨_, .sum (.summand (.single hDerives)) hOperator hSign (.single hDerives'),
    Tree.meaning_binary .sub a b _⟩

theorem Means.root (hWord : c.Word "root" c₁) (hOpen : c₁.Token ['('] c₂)
    (hFirst : Means A .expression c₂ c₃ m) {c₄ c₅ : Cursor} (hComma : c₃.Token [','] c₄)
    (hSecond : Means A .expression c₄ c₅ m') (hClose : c₅.Token [')'] c') :
    Means A .primary c c' (m >>= fun x => m' >>= A.root x) := by
  obtain ⟨a, hDerives, rfl⟩ := hFirst
  obtain ⟨b, hDerives', rfl⟩ := hSecond
  refine ⟨_, .call hWord hOpen hDerives (.comma hComma hDerives' (.none c₅)) hClose, ?_⟩
  have hRoot : Builtin.ofName? "root" = some .root := by decide
  rw [Tree.meaning_call, hRoot, Tree.meanings_cons, Tree.meanings_cons]
  cases a.meaning A with
  | error failure => rfl
  | ok x =>
    cases b.meaning A with
    | error failure => rfl
    | ok y => rfl

theorem derives_literal {n : Numeral} (h : n.Proper) {rest : List Char}
    (hRest : ∀ next ∈ rest.head?, Numeral.continues next = false) (p : Nat) :
    Derives .primary ⟨p, n.text ++ rest⟩ (.literal n.value (p + n.text.length)) ⟨p + n.text.length, rest⟩ := by
  have hHere : Cursor.skipBlanks ⟨p, n.text ++ rest⟩ = ⟨p, n.text ++ rest⟩ := by
    obtain ⟨first, more, hText, hFirst⟩ := Numeral.head_text_of_proper h
    apply Cursor.skipBlanks_of_head
    rw [hText]
    rintro next ⟨⟩
    rw [Bool.eq_false_iff]
    intro hBlank
    obtain ⟨hDigit, hPoint, -⟩ := Numeral.continues_eq_false_iff.mp (continues_of_isBlank hBlank)
    rcases hFirst with hSame | hSame
    · rw [hDigit] at hSame
      cases hSame
    · exact hPoint hSame
  refine @Derives.literal _ ⟨p + n.text.length, rest⟩ n ?_ ?_
  · rw [hHere]
    exact Numeral.longest_text_append h hRest
  · rw [Cursor.Token, hHere]
    exact ⟨rfl, rfl⟩

/-- A numeral of digits alone. -/
theorem means_digits (digits rest : List Char) (hDigits : digits.all Char.isDigit = true)
    (hSome : digits ≠ []) (hRest : ∀ next ∈ rest.head?, Numeral.continues next = false) (p : Nat) :
    Means A .power ⟨p, digits ++ rest⟩ ⟨p + digits.length, rest⟩
      (A.coerce (.real (Numeral.mk digits none none).value.toFloat)) := by
  have hText : (Numeral.mk digits none none).text = digits := by simp [Numeral.text]
  have hProper : (Numeral.mk digits none none).Proper :=
    ⟨List.all_eq_true.mp hDigits, by simp, .inl hSome, by simp⟩
  have hLiteral := derives_literal hProper hRest p
  rw [hText] at hLiteral
  exact Means.power ⟨_, hLiteral, Tree.meaning_literal _ _⟩

theorem Cursor.token_first {first : Char} (h : isBlank first = false) (p : Nat) (rest : List Char) :
    Token ⟨p, first :: rest⟩ [first] ⟨p + 1, rest⟩ := by
  have hHere : skipBlanks ⟨p, first :: rest⟩ = ⟨p, first :: rest⟩ := by
    apply skipBlanks_of_head
    rintro next ⟨⟩
    exact h
  rw [Token, hHere]
  exact ⟨rfl, rfl⟩

/-! ## Whole texts -/

theorem endMark_comma : EndMark ',' := ⟨by decide, by decide, by decide, by decide⟩

section Texts

variable {text inner degree : List Char} {t u : Tree}

/-- A text in round brackets. -/
theorem means_round (h : Parses inner t) (p : Nat) (after : List Char) :
    Means A .primary ⟨p, '(' :: (inner ++ ')' :: after)⟩ ⟨p + 1 + inner.length + 1, after⟩
      (t.meaning A) := by
  obtain ⟨c, hInner, hClose⟩ := h.inside (endMark_closer .round) (p + 1) after
  exact .group (b := .round) (Cursor.token_first (by decide) _ _)
    ⟨_, hInner, Tree.meaning_shift A _ t⟩ hClose

/-- The whole text means so much. -/
def TextMeans (A : Arithmetic) (text : List Char) (m : Except Failure Number) : Prop :=
  ∃ t, Parses text t ∧ t.meaning A = m

theorem Means.whole {p : Nat} (h : Means A .expression ⟨0, text⟩ ⟨p, []⟩ m) : TextMeans A text m := by
  obtain ⟨t, hDerives, hMeaning⟩ := h
  exact ⟨t, ⟨_, hDerives, rfl⟩, hMeaning⟩

theorem textMeans_root (h : Parses inner t) (h' : Parses degree u) :
    TextMeans A ("root".toList ++ '(' :: (inner ++ ',' :: ' ' :: (degree ++ [')'])))
      (t.meaning A >>= fun x => u.meaning A >>= A.root x) := by
  obtain ⟨c, hInner, hComma⟩ := h.inside endMark_comma 5 (' ' :: (degree ++ [')']))
  obtain ⟨d, hDegree, hClose⟩ := h'.inside (endMark_closer .round) (5 + inner.length + 1 + 1) []
  have hWord : Cursor.Word ⟨0, "root".toList ++ '(' :: (inner ++ ',' :: ' ' :: (degree ++ [')']))⟩
      "root" ⟨4, '(' :: (inner ++ ',' :: ' ' :: (degree ++ [')']))⟩ := by
    refine ⟨⟨rfl, rfl⟩, by decide, List.all_eq_true.mp (by decide), ?_⟩
    rintro next ⟨⟩
    decide
  have hSecond := hDegree.from (d := ⟨5 + inner.length + 1, ' ' :: (degree ++ [')'])⟩)
    (Cursor.skipBlanks_blank (by decide))
  have hRoot := Means.root hWord (Cursor.token_first (by decide) _ _)
    ⟨_, hInner, Tree.meaning_shift A _ t⟩ hComma ⟨_, hSecond, Tree.meaning_shift A _ u⟩ hClose
  exact hRoot.power.expression.whole

theorem textMeans_reciprocal (h : Parses inner t) (h' : Parses degree u) :
    TextMeans A ('(' :: (inner ++ ')' :: '^' :: '(' :: '1' :: '/' :: '(' :: (degree ++ ')' :: [')'])))
      (t.meaning A >>= fun x => (A.coerce (.real 1) >>= fun one => u.meaning A >>= A.div one) >>= A.pow x) := by
  have hBase := means_round (A := A) h 0 ('^' :: '(' :: '1' :: '/' :: '(' :: (degree ++ ')' :: [')']))
  have hOne := means_digits (A := A) ['1'] ('/' :: '(' :: (degree ++ ')' :: [')']))
    (by decide) nofun (by rintro next ⟨⟩; decide) (0 + 1 + inner.length + 1 + 1 + 1)
  have hValue : (Numeral.mk ['1'] none none).value.toFloat = 1 := by decide +kernel
  have hDegree := means_round (A := A) h' (0 + 1 + inner.length + 1 + 1 + 1 + 1 + 1) [')']
  have hQuotient := hOne.div (Cursor.token_first (by decide) _ _) hDegree.power
  have hExponent := Means.group (b := .round) (Cursor.token_first (by decide) _ _) hQuotient
    (Cursor.token_first (by decide) _ _)
  rw [hValue] at hExponent
  exact (hBase.pow (Cursor.token_first (by decide) _ _) hExponent.power).expression.whole

theorem textMeans_percent (h : Parses inner t) :
    TextMeans A ('(' :: (inner ++ ')' :: ['%'])) (t.meaning A >>= A.percent) :=
  ((means_round h 0 ['%']).percent (Cursor.token_first (by decide) _ _)).expression.whole

theorem textMeans_hundredth (h : Parses inner t) :
    TextMeans A ('(' :: (inner ++ ')' :: '/' :: ['1', '0', '0']))
      (t.meaning A >>= fun x => A.coerce (.real 100) >>= A.div x) := by
  have hLeft := means_round (A := A) h 0 ('/' :: ['1', '0', '0'])
  have hHundred := means_digits (A := A) ['1', '0', '0'] []
    (by decide) nofun nofun (0 + 1 + inner.length + 1 + 1)
  have hValue : (Numeral.mk ['1', '0', '0'] none none).value.toFloat = 100 := by decide +kernel
  rw [hValue] at hHundred
  exact (hLeft.power.div (Cursor.token_first (by decide) _ _) hHundred).whole

theorem textMeans_negate (h : Parses inner t) :
    TextMeans A ('-' :: '(' :: (inner ++ [')'])) (t.meaning A >>= A.negate) :=
  ((means_round h 1 []).negate (Cursor.token_first (by decide) 0 _)).expression.whole

theorem textMeans_difference (h : Parses inner t) :
    TextMeans A ('0' :: '-' :: '(' :: (inner ++ [')']))
      (A.coerce (.real 0) >>= fun zero => t.meaning A >>= A.sub zero) := by
  have hZero := means_digits (A := A) ['0'] ('-' :: '(' :: (inner ++ [')']))
    (by decide) nofun (by rintro next ⟨⟩; decide) 0
  have hValue : (Numeral.mk ['0'] none none).value.toFloat = 0 := by decide +kernel
  rw [hValue] at hZero
  exact (hZero.sub (Cursor.token_first (by decide) _ _) (means_round h _ []).power).whole

end Texts

/-! ## Equal meanings -/

section Meanings

variable {t u : Tree}

theorem mode_of_meaning {x : Number} (h : t.meaning A = .ok x) : x.mode = A.mode :=
  Tree.mode_of_eval (mapError_eq_ok_iff.mp h)

theorem meaning_root_eq (A : Arithmetic) (t u : Tree) :
    (t.meaning A >>= fun x => u.meaning A >>= A.root x) =
      t.meaning A >>= fun x =>
        (A.coerce (.real 1) >>= fun one => u.meaning A >>= A.div one) >>= A.pow x := by
  obtain ⟨one, hOne⟩ := A.exists_coerce_real 1
  rw [hOne, ok_bind]
  cases t.meaning A with
  | error failure => rfl
  | ok x =>
    cases hDegree : u.meaning A with
    | error failure => rfl
    | ok n => exact Arithmetic.root_eq_pow hOne (mode_of_meaning hDegree)

theorem meaning_percent_eq (hEpsilon : A.epsilon ≤ 100) (t : Tree) :
    t.meaning A >>= A.percent = t.meaning A >>= fun x => A.coerce (.real 100) >>= A.div x := by
  obtain ⟨hundred, hHundred⟩ := A.exists_coerce_real 100
  rw [hHundred]
  cases hOperand : t.meaning A with
  | error failure => rfl
  | ok x => exact (Arithmetic.div_eq_percent hEpsilon hHundred (mode_of_meaning hOperand)).symm

theorem meaning_negate_eq (hMode : A.mode = .complex) (t : Tree) :
    t.meaning A >>= A.negate = A.coerce (.real 0) >>= fun zero => t.meaning A >>= A.sub zero := by
  obtain ⟨zero, hZero⟩ := A.exists_coerce_real 0
  rw [hZero, ok_bind]
  cases hOperand : t.meaning A with
  | error failure => rfl
  | ok x => exact (Arithmetic.sub_eq_negate hMode hZero (mode_of_meaning hOperand)).symm

end Meanings

end Expression

/-! ## Evaluation -/

/-- A text that is not refused for its nesting has the outcome that it means. -/
theorem exists_outcome_of_means [Interpreter] {settings : Settings} {text : String} {m : Except Failure Number}
    (h : TextMeans settings.arithmetic text.toList m) (hDeep : ¬ DeepFault (evaluate settings text)) :
    ∃ result, result.mapError Stop.failure = m ∧ evaluate settings text = outcomeOf text result := by
  obtain ⟨t, hParses, hMeaning⟩ := h
  rw [evaluate_eq_outcomeOf, ← value_eq_valueWithin] at hDeep ⊢
  rcases value_of_parses_or settings.arithmetic settings.maxDepth hParses with hValue | ⟨p, hStop⟩
  · exact ⟨t.eval settings.arithmetic, hMeaning, by rw [hValue]⟩
  · rw [hStop] at hDeep
    exact absurd ⟨_, _, rfl, kind_tooDeep settings.maxDepth⟩ hDeep

/-- Texts with one meaning are evaluated alike, unless one of them is refused for its nesting. -/
theorem alike_of_means [Interpreter] {settings : Settings} {text text' : String} {m m' : Except Failure Number}
    (h : TextMeans settings.arithmetic text.toList m) (h' : TextMeans settings.arithmetic text'.toList m')
    (hSame : m = m') (hDeep : ¬ DeepFault (evaluate settings text))
    (hDeep' : ¬ DeepFault (evaluate settings text')) :
    Alike (fun _ _ => True) (evaluate settings text) (evaluate settings text') := by
  obtain ⟨result, hResult, hOutcome⟩ := exists_outcome_of_means h hDeep
  obtain ⟨result', hResult', hOutcome'⟩ := exists_outcome_of_means h' hDeep'
  rw [← hResult, ← hResult'] at hSame
  rw [hOutcome, hOutcome']
  cases result with
  | ok x =>
    obtain rfl := mapError_eq_ok_iff.mp hSame.symm
    exact .value x
  | error stop =>
    obtain ⟨stop', rfl, hFailure⟩ := mapError_eq_error_iff.mp hSame.symm
    obtain ⟨failure, position, reached⟩ := stop
    obtain ⟨failure', position', reached'⟩ := stop'
    obtain rfl : failure' = failure := hFailure
    cases failure' with
    | cause cause => exact .of_cause _ cause trivial
    | modulusOverflow => exact .interruption .modulusOverflow

/-- For texts that are expressions by the grammar: a root is evaluated as the power that it stands for, in
    complex mode a negation as a difference, and a percentage as a quotient by one hundred, unless that
    counts as zero; and if one form fails, so does the other, for the same reason. Only a limit on nesting
    can tell the forms apart. -/
theorem evaluate_derived_forms [Interpreter] (settings : Settings) (a n : String) (h : ∃ t, Parses a.toList t)
    (hDegree : ∃ u, Parses n.toList u) :
    (¬ DeepFault (evaluate settings ("root(" ++ a ++ ", " ++ n ++ ")")) →
      ¬ DeepFault (evaluate settings ("(" ++ a ++ ")^(1/(" ++ n ++ "))")) →
        Alike (fun _ _ => True) (evaluate settings ("root(" ++ a ++ ", " ++ n ++ ")"))
          (evaluate settings ("(" ++ a ++ ")^(1/(" ++ n ++ "))"))) ∧
    (settings.epsilon ≤ 100 → ¬ DeepFault (evaluate settings ("(" ++ a ++ ")%")) →
      ¬ DeepFault (evaluate settings ("(" ++ a ++ ")/100")) →
        Alike (fun _ _ => True) (evaluate settings ("(" ++ a ++ ")%"))
          (evaluate settings ("(" ++ a ++ ")/100"))) ∧
    (settings.mode = .complex → ¬ DeepFault (evaluate settings ("-(" ++ a ++ ")")) →
      ¬ DeepFault (evaluate settings ("0-(" ++ a ++ ")")) →
        Alike (fun _ _ => True) (evaluate settings ("-(" ++ a ++ ")"))
          (evaluate settings ("0-(" ++ a ++ ")"))) := by
  obtain ⟨t, hParses⟩ := h
  obtain ⟨u, hParses'⟩ := hDegree
  refine ⟨alike_of_means ?_ ?_ (meaning_root_eq settings.arithmetic t u), fun hEpsilon =>
    alike_of_means ?_ ?_ (meaning_percent_eq (A := settings.arithmetic) hEpsilon t), fun hMode =>
      alike_of_means ?_ ?_ (meaning_negate_eq (A := settings.arithmetic) hMode t)⟩
  · simpa using textMeans_root (A := settings.arithmetic) hParses hParses'
  · simpa using textMeans_reciprocal (A := settings.arithmetic) hParses hParses'
  · simpa using textMeans_percent (A := settings.arithmetic) hParses
  · simpa using textMeans_hundredth (A := settings.arithmetic) hParses
  · simpa using textMeans_negate (A := settings.arithmetic) hParses
  · simpa using textMeans_difference (A := settings.arithmetic) hParses

theorem evaluate_derived_forms_four :
    (∃ t, Parses "2x2".toList t) ∧ (∃ u, Parses "0.5".toList u) ∧
      evaluate {} "root(2x2, 0.5)" = .ok ⟨"root(2x2, 0.5)", .ok (.complex ⟨16, 0⟩)⟩ ∧
      Alike (fun _ _ => True) (evaluate {} "root(2x2, 0.5)") (evaluate {} "(2x2)^(1/(0.5))") ∧
      (defaultEpsilon ≤ 100 ∧ Alike (fun _ _ => True) (evaluate {} "(2x2)%") (evaluate {} "(2x2)/100")) ∧
      Alike (fun _ _ => True) (evaluate {} "-(2x2)") (evaluate {} "0-(2x2)") := by
  have hParses : ∃ t, Parses "2x2".toList t := by
    obtain ⟨t, hParses, -⟩ := @parses_of_read _ 100 "2x2".toList (by decide +kernel)
    exact ⟨t, hParses⟩
  have hDegree : ∃ u, Parses "0.5".toList u := by
    obtain ⟨u, hParses, -⟩ := @parses_of_read _ 100 "0.5".toList (by decide +kernel)
    exact ⟨u, hParses⟩
  have hRoot : evaluate {} "root(2x2, 0.5)" = .ok ⟨"root(2x2, 0.5)", .ok (.complex ⟨16, 0⟩)⟩ := by
    decide +kernel
  have hPower : evaluate {} "(2x2)^(1/(0.5))" = .ok ⟨"(2x2)^(1/(0.5))", .ok (.complex ⟨16, 0⟩)⟩ := by
    decide +kernel
  have hPercent : evaluate {} "(2x2)%" = .ok ⟨"(2x2)%", .ok (.complex ⟨0.04, 0⟩)⟩ := by decide +kernel
  have hQuotient : evaluate {} "(2x2)/100" = .ok ⟨"(2x2)/100", .ok (.complex ⟨0.04, 0⟩)⟩ := by
    decide +kernel
  have hNegation : evaluate {} "-(2x2)" = .ok ⟨"-(2x2)", .ok (.complex ⟨-4, 0⟩)⟩ := by decide +kernel
  have hDifference : evaluate {} "0-(2x2)" = .ok ⟨"0-(2x2)", .ok (.complex ⟨-4, 0⟩)⟩ := by decide +kernel
  have hEpsilon : defaultEpsilon ≤ 100 := by decide +kernel
  obtain ⟨hRoots, hHundredths, hNegations⟩ := evaluate_derived_forms {} "2x2" "0.5" hParses hDegree
  refine ⟨hParses, hDegree, hRoot, hRoots ?_ ?_, ⟨hEpsilon, hHundredths hEpsilon ?_ ?_⟩,
    hNegations rfl ?_ ?_⟩
  · exact hRoot ▸ not_deepFault_of_value
  · exact hPower ▸ not_deepFault_of_value
  · exact hPercent ▸ not_deepFault_of_value
  · exact hQuotient ▸ not_deepFault_of_value
  · exact hNegation ▸ not_deepFault_of_value
  · exact hDifference ▸ not_deepFault_of_value

end Reckon
