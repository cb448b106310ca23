import Reckon.Proofs.Expression.Tree

/-! # The first failure of a tree

The operations of a tree are taken in post-order: operands before their operation, the left one before
the right one, arguments in their order. An operation fails first if all operations before it succeed.
-/
namespace Reckon.Expression.Tree
set_option autoImplicit false

/-- The operation that fails first does so with this failure, and is reported at this offset. -/
inductive FirstFailure (A : Arithmetic) : Tree → Failure → Nat → Prop
  | literal {d : Decimal} {next : Nat} {failure : Failure}
      (h : A.coerce (.real d.toFloat) = .error failure) : FirstFailure A (.literal d next) failure next
  | argument {word : String} {before after : List Tree} {t : Tree} {start opening next offset : Nat}
      {failure : Failure} {values : List Number} (hBefore : evalAll A before = .ok values)
      (h : FirstFailure A t failure offset) :
      FirstFailure A (.call word (before ++ t :: after) start opening next) failure offset
  | call {word : String} {args : List Tree} {start opening next : Nat} {f : Builtin}
      {failure : Failure} {values : List Number} (hArguments : evalAll A args = .ok values)
      (hFunction : Builtin.ofName? word = some f) (h : f.apply A values = .error failure) :
      FirstFailure A (.call word args start opening next) failure next
  | group {b : Bracket} {t : Tree} {failure : Failure} {offset : Nat}
      (h : FirstFailure A t failure offset) : FirstFailure A (.group b t) failure offset
  | factorialOperand {negated : Bool} {t : Tree} {next offset : Nat} {failure : Failure}
      (h : FirstFailure A t failure offset) : FirstFailure A (.factorial negated t next) failure offset
  | factorial {negated : Bool} {t : Tree} {next : Nat} {failure : Failure} {x : Number}
      (hOperand : t.eval A = .ok x) (h : A.factorial x negated = .error failure) :
      FirstFailure A (.factorial negated t next) failure next
  | percentOperand {t : Tree} {next offset : Nat} {failure : Failure}
      (h : FirstFailure A t failure offset) : FirstFailure A (.percent t next) failure offset
  | percent {t : Tree} {next : Nat} {failure : Failure} {x : Number} (hOperand : t.eval A = .ok x)
      (h : A.percent x = .error failure) : FirstFailure A (.percent t next) failure next
  | negateOperand {t : Tree} {next offset : Nat} {failure : Failure}
      (h : FirstFailure A t failure offset) : FirstFailure A (.negate t next) failure offset
  | negate {t : Tree} {next : Nat} {failure : Failure} {x : Number} (hOperand : t.eval A = .ok x)
      (h : A.negate x = .error failure) : FirstFailure A (.negate t next) failure next
  | left {op : Operator} {a b : Tree} {next offset : Nat} {failure : Failure}
      (h : FirstFailure A a failure offset) : FirstFailure A (.binary op a b next) failure offset
  | right {op : Operator} {a b : Tree} {next offset : Nat} {failure : Failure} {x : Number}
      (hLeft : a.eval A = .ok x) (h : FirstFailure A b failure offset) :
      FirstFailure A (.binary op a b next) failure offset
  | binary {op : Operator} {a b : Tree} {next : Nat} {failure : Failure} {x y : Number}
      (hLeft : a.eval A = .ok x) (hRight : b.eval A = .ok y) (h : op.apply A x y = .error failure) :
      FirstFailure A (.binary op a b next) failure next

variable {A : Arithmetic}

theorem reportedAt_eq_error_iff {offset : Nat} {result : Except Failure Number} {stop : Stop} :
    reportedAt offset result = .error stop ↔
      ∃ failure, result = .error failure ∧ stop = ⟨failure, offset, offset⟩ := by
  rw [reportedAt, mapError_eq_error_iff]
  simp only [eq_comm]

theorem evalAll_append (before after : List Tree) :
    evalAll A (before ++ after) = (do
      let xs ← evalAll A before
      let ys ← evalAll A after
      .ok (xs ++ ys)) := by
  induction before with
  | nil => simp only [List.nil_append, evalAll, ok_bind]; cases evalAll A after <;> rfl
  | cons t before ih =>
    simp only [List.cons_append, evalAll, ih]
    cases t.eval A with
    | error stop => rfl
    | ok x =>
      cases evalAll A before with
      | error stop => rfl
      | ok xs => cases evalAll A after <;> rfl

theorem known_call {mode : Mode} {word : String} {args : List Tree} {start opening next : Nat}
    (h : (call word args start opening next).known mode = true) :
    ∃ f, Builtin.ofName? word = some f ∧ args.length = f.arity ∧ allKnown mode args = true := by
  rw [known, Bool.and_eq_true, Option.any_eq_true] at h
  obtain ⟨⟨f, hFunction, hArity⟩, hArguments⟩ := h
  exact ⟨f, hFunction, eq_of_beq hArity, hArguments⟩

theorem eval_call {word : String} {args : List Tree} {f : Builtin} (hFunction : Builtin.ofName? word = some f)
    (hArity : args.length = f.arity) (start opening next : Nat) :
    (call word args start opening next).eval A =
      evalAll A args >>= fun values => reportedAt next (f.apply A values) := by
  simp only [eval, hFunction, if_pos hArity]

theorem allKnown_append {mode : Mode} (before after : List Tree) :
    allKnown mode (before ++ after) = (allKnown mode before && allKnown mode after) := by
  induction before with
  | nil => rfl
  | cons t before ih => rw [List.cons_append, allKnown, allKnown, ih, Bool.and_assoc]

theorem FirstFailure.eval_eq {t : Tree} {failure : Failure} {offset : Nat}
    (h : FirstFailure A t failure offset) (hKnown : t.known A.mode = true) :
    t.eval A = .error ⟨failure, offset, offset⟩ := by
  induction h with
  | literal h => rw [eval, h]; rfl
  | argument hBefore _ ih =>
    obtain ⟨f, hFunction, hArity, hArguments⟩ := known_call hKnown
    rw [allKnown_append, allKnown, Bool.and_eq_true, Bool.and_eq_true] at hArguments
    rw [eval_call hFunction hArity, evalAll_append, hBefore, ok_bind, evalAll, ih hArguments.2.1]
    rfl
  | call hArguments hFunction h =>
    obtain ⟨f, hWord, hArity, -⟩ := known_call hKnown
    obtain rfl := Option.some.inj (hWord.symm.trans hFunction)
    rw [eval_call hFunction hArity, hArguments, ok_bind, h]
    rfl
  | group _ ih => exact ih hKnown
  | factorialOperand _ ih | percentOperand _ ih | negateOperand _ ih => rw [eval, ih hKnown]; rfl
  | factorial hOperand h | percent hOperand h | negate hOperand h =>
    rw [eval, hOperand, ok_bind, h]
    rfl
  | left _ ih =>
    rw [known, Bool.and_eq_true] at hKnown
    rw [eval, ih hKnown.1]
    rfl
  | right hLeft _ ih =>
    rw [known, Bool.and_eq_true] at hKnown
    rw [eval, hLeft, ok_bind, ih hKnown.2]
    rfl
  | binary hLeft hRight h =>
    rw [eval, hLeft, ok_bind, hRight, ok_bind, h]
    rfl

mutual
theorem firstFailure_of_eval {t : Tree} {stop : Stop} (hKnown : t.known A.mode = true)
    (h : t.eval A = .error stop) : FirstFailure A t stop.failure stop.position := by
  cases t with
  | literal d next =>
    obtain ⟨failure, hFailure, rfl⟩ := reportedAt_eq_error_iff.mp h
    exact .literal hFailure
  | name word start next =>
    rw [known, Option.isSome_iff_exists] at hKnown
    obtain ⟨c, hConstant⟩ := hKnown
    simp only [eval, hConstant] at h
    cases h
  | call word args start opening next =>
    obtain ⟨f, hFunction, hArity, hArguments⟩ := known_call hKnown
    rw [eval_call hFunction hArity] at h
    rcases bind_eq_error_iff.mp h with h | ⟨values, hValues, h⟩
    · obtain ⟨before, t, after, values, rfl, hBefore, hFirst⟩ := firstFailure_of_evalAll hArguments h
      exact .argument hBefore hFirst
    · obtain ⟨failure, hFailure, rfl⟩ := reportedAt_eq_error_iff.mp h
      exact .call hValues hFunction hFailure
  | group b t => exact .group (firstFailure_of_eval (t := t) hKnown h)
  | factorial negated t next =>
    rcases bind_eq_error_iff.mp h with h | ⟨x, hOperand, h⟩
    · exact .factorialOperand (firstFailure_of_eval (t := t) hKnown h)
    · obtain ⟨failure, hFailure, rfl⟩ := reportedAt_eq_error_iff.mp h
      exact .factorial hOperand hFailure
  | percent t next =>
    rcases bind_eq_error_iff.mp h with h | ⟨x, hOperand, h⟩
    · exact .percentOperand (firstFailure_of_eval (t := t) hKnown h)
    · obtain ⟨failure, hFailure, rfl⟩ := reportedAt_eq_error_iff.mp h
      exact .percent hOperand hFailure
  | negate t next =>
    rcases bind_eq_error_iff.mp h with h | ⟨x, hOperand, h⟩
    · exact .negateOperand (firstFailure_of_eval (t := t) hKnown h)
    · obtain ⟨failure, hFailure, rfl⟩ := reportedAt_eq_error_iff.mp h
      exact .negate hOperand hFailure
  | binary op a b next =>
    rw [known, Bool.and_eq_true] at hKnown
    rcases bind_eq_error_iff.mp h with h | ⟨x, hLeft, h⟩
    · exact .left (firstFailure_of_eval hKnown.1 h)
    · rcases bind_eq_error_iff.mp h with h | ⟨y, hRight, h⟩
      · exact .right hLeft (firstFailure_of_eval hKnown.2 h)
      · obtain ⟨failure, hFailure, rfl⟩ := reportedAt_eq_error_iff.mp h
        exact .binary hLeft hRight hFailure

theorem firstFailure_of_evalAll {ts : List Tree} {stop : Stop} (hKnown : allKnown A.mode ts = true)
    (h : evalAll A ts = .error stop) : ∃ before t after values, ts = before ++ t :: after ∧
      evalAll A before = .ok values ∧ FirstFailure A t stop.failure stop.position := by
  cases ts with
  | nil => cases h
  | cons t ts =>
    rw [allKnown, Bool.and_eq_true] at hKnown
    rcases bind_eq_error_iff.mp h with h | ⟨x, hFirst, h⟩
    · exact ⟨[], t, ts, [], rfl, rfl, firstFailure_of_eval hKnown.1 h⟩
    · rcases bind_eq_error_iff.mp h with h | ⟨xs, hMore, h⟩
      · obtain ⟨before, t', after, values, rfl, hBefore, hFailure⟩ := firstFailure_of_evalAll hKnown.2 h
        refine ⟨t :: before, t', after, x :: values, rfl, ?_, hFailure⟩
        rw [evalAll, hFirst, ok_bind, hBefore, ok_bind]
      · cases h
end

/-- A known tree has a value or a first failure, and stops at the latter. -/
theorem eval_eq_error_iff {t : Tree} (hKnown : t.known A.mode = true) {stop : Stop} :
    t.eval A = .error stop ↔
      FirstFailure A t stop.failure stop.position ∧ stop.reached = stop.position := by
  constructor
  · intro h
    have hFirst := firstFailure_of_eval hKnown h
    have hSame := h.symm.trans (hFirst.eval_eq hKnown)
    exact ⟨hFirst, congrArg Stop.reached (Except.error.inj hSame)⟩
  · rintro ⟨hFirst, hReached⟩
    rw [hFirst.eval_eq hKnown]
    obtain ⟨failure, position, reached⟩ := stop
    cases hReached
    rfl

end Reckon.Expression.Tree
