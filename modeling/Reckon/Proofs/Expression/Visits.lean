import Reckon.Proofs.Expression.Stops

/-! # Where a run comes

A run with a limit on nesting comes to an operand when all that was read before is complete, had room and
has a value. From there it takes numerals, words and signs off the text.
-/
namespace Reckon.Expression
set_option autoImplicit false

variable {A : Arithmetic} {levels room : Nat} {text : List Char}

/-- The run comes to read an expression of the level at the cursor and may still open so many levels. Each
    rule adds the last step of the way. -/
inductive Visits (A : Arithmetic) (levels : Nat) (text : List Char) : Level → Nat → Cursor → Prop
  | start : Visits A levels text .expression levels ⟨0, text⟩
  | summand {room : Nat} {c : Cursor} (h : Visits A levels text .expression room c) :
      Visits A levels text .product room c
  | sum {room width : Nat} {c c₁ : Cursor} {a : Tree} {x : Number} {op : Operator}
      (h : Visits A levels text .expression room c) (hLeft : Derives .expression c a c₁)
      (hDepth : a.depth < room) (hValue : a.eval A = .ok x)
      (hFound : sumOperator? c₁.skipBlanks.rest = some (op, width)) :
      Visits A levels text .product room (c₁.skipBlanks.advance width)
  | single {room : Nat} {c : Cursor} (h : Visits A levels text .product room c) :
      Visits A levels text .power room c
  | product {room width : Nat} {c c₁ : Cursor} {a : Tree} {x : Number} {op : Operator}
      (h : Visits A levels text .product room c) (hLeft : Derives .product c a c₁)
      (hDepth : a.depth < room) (hValue : a.eval A = .ok x)
      (hFound : productOperator? c₁.skipBlanks.rest = some (op, width)) :
      Visits A levels text .power room (c₁.skipBlanks.advance width)
  | base {room : Nat} {c : Cursor} (h : Visits A levels text .power (room + 1) c) :
      Visits A levels text .factor (room + 1) c
  | exponent {room : Nat} {c c₁ c₂ : Cursor} {a : Tree} {x : Number}
      (h : Visits A levels text .power (room + 1) c) (hBase : Derives .factor c a c₁)
      (hDepth : a.depth < room + 1) (hValue : a.eval A = .ok x) (hSign : c₁.Token ['^'] c₂) :
      Visits A levels text .power room c₂
  | factor {room : Nat} {c c₁ : Cursor} {odd : Bool} (h : Visits A levels text .factor room c)
      (hSigns : c.Signs odd c₁) (hLast : c₁.skipBlanks.rest.head? ≠ some '-') :
      Visits A levels text .primary room c₁
  | group {room : Nat} {c c₁ : Cursor} {b : Bracket} (h : Visits A levels text .primary (room + 1) c)
      (hOpen : c.Token [b.opener] c₁) : Visits A levels text .expression room c₁
  | argument {room : Nat} {c c₁ c₂ : Cursor} {word : String} {f : Builtin}
      (h : Visits A levels text .primary (room + 1) c) (hWord : c.Word word c₁)
      (hFunction : Builtin.ofName? word = some f) (hOpen : c₁.Token ['('] c₂) :
      Visits A levels text .expression room c₂
  | nextArgument {room : Nat} {c c₁ c₂ c₃ c₄ c₅ : Cursor} {word : String} {f : Builtin} {t : Tree}
      {ts : List Tree} {xs : List Number} (h : Visits A levels text .primary (room + 1) c)
      (hWord : c.Word word c₁) (hFunction : Builtin.ofName? word = some f) (hOpen : c₁.Token ['('] c₂)
      (hFirst : Derives .expression c₂ t c₃) (hMore : Arguments c₃ ts c₄)
      (hDepths : Tree.depthAll (t :: ts) < room) (hValues : Tree.evalAll A (t :: ts) = .ok xs)
      (hComma : c₄.Token [','] c₅) : Visits A levels text .expression room c₅

theorem Visits.ahead {level : Level} {c : Cursor} (h : Visits A levels text level room c) :
    Cursor.Ahead ⟨0, text⟩ c := by
  induction h with
  | start => exact Cursor.ahead_refl _
  | summand _ ih | single _ ih | base _ ih => exact ih
  | sum _ hLeft _ _ hFound ih =>
    exact (ih.trans hLeft.ahead).trans (standing_sumOperator?.ahead hFound)
  | product _ hLeft _ _ hFound ih =>
    exact (ih.trans hLeft.ahead).trans (standing_productOperator?.ahead hFound)
  | exponent _ hBase _ _ hSign ih => exact (ih.trans hBase.ahead).trans hSign.ahead
  | factor _ hSigns _ ih => exact ih.trans hSigns.ahead
  | group _ hOpen ih => exact ih.trans hOpen.ahead
  | argument _ hWord _ hOpen ih => exact (ih.trans hWord.token.ahead).trans hOpen.ahead
  | nextArgument _ hWord _ hOpen hFirst hMore _ _ hComma ih =>
    exact ((((ih.trans hWord.token.ahead).trans hOpen.ahead).trans hFirst.ahead).trans hMore.ahead).trans
      hComma.ahead

end Reckon.Expression
