import Reckon.Evaluation
import Reckon.Proofs.Except

/-! # Expression trees and their values

A tree says what a text means: its operands, and where each operation is reported if it fails. The
value of a tree is taken in post-order, operands from the left and then the operation on them; the
first operation that fails ends it.
-/
namespace Reckon
set_option autoImplicit false

/-- A function on as many values as it takes. -/
def Builtin.apply (A : Arithmetic) : Builtin → List Number → Except Failure Number
  | .unary f, [a] => A.unary f a
  | .root, [a, n] => A.root a n
  | f, values => .error (.cause (.arityMismatch f values.length))

namespace Expression

/-- `next` is the offset at which a failure of the node itself is reported; names and calls are
    reported at their `start` if they are unknown. -/
inductive Tree
  | literal (value : Decimal) (next : Nat)
  | name (word : String) (start next : Nat)
  | call (word : String) (args : List Tree) (start opening next : Nat)
  | group (b : Bracket) (inner : Tree)
  | factorial (negated : Bool) (operand : Tree) (next : Nat)
  | percent (operand : Tree) (next : Nat)
  | negate (operand : Tree) (next : Nat)
  | binary (op : Operator) (left right : Tree) (next : Nat)

def reportedAt (offset : Nat) (result : Except Failure Number) : Except Stop Number :=
  result.mapError (⟨·, offset, offset⟩)

namespace Tree

def signed (odd : Bool) (t : Tree) (next : Nat) : Tree := if odd then t.negate next else t

mutual
def eval (A : Arithmetic) : Tree → Except Stop Number
  | literal d next => reportedAt next (A.coerce (.real d.toFloat))
  | name word start next =>
    match Constant.ofName? A.mode word with
    | some c => .ok (A.constant c)
    | none => .error ⟨.cause (.unknownIdentifier word), start, next⟩
  | call word args start opening next =>
    match Builtin.ofName? word with
    | none => .error ⟨.cause (.unknownFunction word), start, opening⟩
    | some f => do
      let values ← evalAll A args
      if args.length = f.arity then reportedAt next (f.apply A values)
      else .error ⟨.cause (.arityMismatch f args.length), start, next⟩
  | group _ inner => inner.eval A
  | factorial negated t next => do
    let x ← t.eval A
    reportedAt next (A.factorial x negated)
  | percent t next => do
    let x ← t.eval A
    reportedAt next (A.percent x)
  | negate t next => do
    let x ← t.eval A
    reportedAt next (A.negate x)
  | binary op a b next => do
    let x ← a.eval A
    let y ← b.eval A
    reportedAt next (op.apply A x y)

def evalAll (A : Arithmetic) : List Tree → Except Stop (List Number)
  | [] => .ok []
  | t :: ts => do
    let x ← t.eval A
    let xs ← evalAll A ts
    .ok (x :: xs)
end

mutual
/-- Whether every name without a bracket is a constant of the mode, and every name with one a
    function that is given as many arguments as it takes. -/
def known (mode : Mode) : Tree → Bool
  | literal .. => true
  | name word .. => (Constant.ofName? mode word).isSome
  | call word args .. =>
    (Builtin.ofName? word).any (fun f => args.length == f.arity) && allKnown mode args
  | group _ t | factorial _ t _ | percent t _ | negate t _ => t.known mode
  | binary _ a b _ => a.known mode && b.known mode

def allKnown (mode : Mode) : List Tree → Bool
  | [] => true
  | t :: ts => t.known mode && allKnown mode ts
end

mutual
/-- How many levels are opened inside: by a bracket, by a call and by the right side of a power. -/
def depth : Tree → Nat
  | literal .. | name .. => 0
  | call _ args .. => 1 + depthAll args
  | group _ t => 1 + t.depth
  | factorial _ t _ | percent t _ | negate t _ => t.depth
  | binary op a b _ => max a.depth (if op = .pow then 1 + b.depth else b.depth)

def depthAll : List Tree → Nat
  | [] => 0
  | t :: ts => max t.depth (depthAll ts)
end

theorem depth_signed (odd : Bool) (t : Tree) (next : Nat) : (t.signed odd next).depth = t.depth := by
  cases odd <;> rfl

theorem depth_pow (a b : Tree) (next : Nat) :
    (Tree.binary .pow a b next).depth = max a.depth (1 + b.depth) := by
  rw [depth, if_pos rfl]

theorem depth_binary {op : Operator} (h : op ≠ .pow) (a b : Tree) (next : Nat) :
    (Tree.binary op a b next).depth = max a.depth b.depth := by
  rw [depth, if_neg h]

/-- The most levels that are open at once; the tree itself takes up one. -/
def nesting (t : Tree) : Nat := 1 + t.depth

mutual
/-- The code of a tree, up to the first call that has no code. -/
def emit : Tree → Reading Unit
  | literal d next => .emit ⟨.literal d, next, next⟩
  | name word start next => .emit ⟨.constant word, start, next⟩
  | call word args start opening next =>
    match Builtin.ofName? word with
    | none => .fail ⟨.unknownFunction word, start, opening⟩
    | some f => do
      emitAll args
      if args.length = f.arity then .emit ⟨.call f, next, next⟩
      else .fail ⟨.arityMismatch f args.length, start, next⟩
  | group _ inner => inner.emit
  | factorial negated t next => do
    t.emit
    .emit ⟨.factorial negated, next, next⟩
  | percent t next => do
    t.emit
    .emit ⟨.percent, next, next⟩
  | negate t next => do
    t.emit
    .emit ⟨.negate, next, next⟩
  | binary op a b next => do
    a.emit
    b.emit
    .emit ⟨.binary op, next, next⟩

def emitAll : List Tree → Reading Unit
  | [] => pure ()
  | t :: ts => do
    t.emit
    emitAll ts
end

theorem evalAll_cons_eq_ok_iff {A : Arithmetic} {t : Tree} {ts : List Tree} {xs : List Number} :
    evalAll A (t :: ts) = .ok xs ↔
      ∃ y ys, t.eval A = .ok y ∧ evalAll A ts = .ok ys ∧ xs = y :: ys := by
  constructor
  · intro h
    obtain ⟨y, hFirst, hRest⟩ := bind_eq_ok_iff.mp h
    obtain ⟨ys, hOthers, hList⟩ := bind_eq_ok_iff.mp hRest
    exact ⟨y, ys, hFirst, hOthers, (Except.ok.inj hList).symm⟩
  · rintro ⟨y, ys, hFirst, hOthers, rfl⟩
    rw [evalAll, hFirst, ok_bind, hOthers, ok_bind]

mutual
theorem known_of_eval {A : Arithmetic} {t : Tree} {x : Number} (h : t.eval A = .ok x) :
    t.known A.mode = true := by
  cases t with
  | literal d next => rfl
  | name word start next =>
    simp only [eval] at h
    split at h
    · rename_i c hConstant
      simp [known, hConstant]
    · cases h
  | call word args start opening next =>
    simp only [eval] at h
    split at h
    · cases h
    · rename_i f hFunction
      obtain ⟨values, hValues, hCall⟩ := bind_eq_ok_iff.mp h
      split at hCall
      · rename_i hArity
        simp [known, hFunction, hArity, allKnown_of_evalAll hValues]
      · cases hCall
  | group b t => exact known_of_eval (t := t) h
  | factorial negated t next | percent t next | negate t next =>
    obtain ⟨y, hOperand, -⟩ := bind_eq_ok_iff.mp h
    exact known_of_eval (t := t) hOperand
  | binary op a b next =>
    obtain ⟨y, hLeft, hRest⟩ := bind_eq_ok_iff.mp h
    obtain ⟨z, hRight, -⟩ := bind_eq_ok_iff.mp hRest
    simp [known, known_of_eval hLeft, known_of_eval hRight]

theorem allKnown_of_evalAll {A : Arithmetic} {ts : List Tree} {xs : List Number}
    (h : evalAll A ts = .ok xs) : allKnown A.mode ts = true := by
  cases ts with
  | nil => rfl
  | cons t ts =>
    obtain ⟨y, ys, hFirst, hOthers, -⟩ := evalAll_cons_eq_ok_iff.mp h
    simp [allKnown, known_of_eval hFirst, allKnown_of_evalAll hOthers]
end

theorem length_of_evalAll {A : Arithmetic} {ts : List Tree} {xs : List Number}
    (h : evalAll A ts = .ok xs) : xs.length = ts.length := by
  induction ts generalizing xs with
  | nil => cases h; rfl
  | cons t ts ih =>
    obtain ⟨y, ys, -, hOthers, rfl⟩ := evalAll_cons_eq_ok_iff.mp h
    simp [ih hOthers]

end Tree
end Expression
end Reckon
