import Reckon.Cause
import Reckon.Decimal

/-! # Code of an expression

Reading turns an expression into instructions for a stack, operands before their operator. Each
instruction knows the offset at which its failure is reported, and how far the text had been read
when it was emitted.
-/
namespace Reckon.Expression
set_option autoImplicit false

inductive Operator
  | add | sub | mul | div | floorDiv | pow
  deriving DecidableEq, Repr

inductive Action
  | literal (value : Decimal)
  | constant (name : String)
  | binary (op : Operator)
  | negate
  | factorial (negated : Bool)
  | percent
  | call (f : Builtin)
  deriving DecidableEq, Repr

structure Instruction where
  action : Action
  position : Nat
  reached : Nat
  deriving DecidableEq, Repr

structure Complaint where
  cause : Cause
  position : Nat
  reached : Nat
  deriving DecidableEq, Repr

/-- What reading a part of a text gives: the code emitted on the way, and a value or a complaint. -/
structure Reading (α : Type) where
  code : List Instruction
  outcome : Except Complaint α

namespace Reading

def bind {α β : Type} (m : Reading α) (f : α → Reading β) : Reading β :=
  match m.outcome with
  | .ok a => ⟨m.code ++ (f a).code, (f a).outcome⟩
  | .error complaint => ⟨m.code, .error complaint⟩

instance : Monad Reading where
  pure a := ⟨[], .ok a⟩
  bind := bind

@[simp] theorem code_pure {α : Type} (a : α) : (pure a : Reading α).code = [] := rfl

@[simp] theorem outcome_pure {α : Type} (a : α) : (pure a : Reading α).outcome = .ok a := rfl

theorem bind_of_ok {α β : Type} {m : Reading α} {a : α} (h : m.outcome = .ok a) (f : α → Reading β) :
    m >>= f = ⟨m.code ++ (f a).code, (f a).outcome⟩ := by
  change bind m f = _
  rw [bind, h]

theorem bind_of_error {α β : Type} {m : Reading α} {c : Complaint} (h : m.outcome = .error c)
    (f : α → Reading β) : m >>= f = ⟨m.code, .error c⟩ := by
  change bind m f = _
  rw [bind, h]

theorem bind_assoc {α β γ : Type} (m : Reading α) (f : α → Reading β) (g : β → Reading γ) :
    m >>= f >>= g = m >>= fun a => f a >>= g := by
  cases hm : m.outcome with
  | error c =>
    have hf : (m >>= f).outcome = .error c := by rw [bind_of_error hm]
    rw [bind_of_error hf, bind_of_error hm, bind_of_error hm]
  | ok a =>
    rw [bind_of_ok hm (fun a => f a >>= g)]
    cases hfa : (f a).outcome with
    | error c =>
      have hf : (m >>= f).outcome = .error c := by rw [bind_of_ok hm, hfa]
      rw [bind_of_error hf, bind_of_ok hm, bind_of_error hfa]
    | ok b =>
      have hf : (m >>= f).outcome = .ok b := by rw [bind_of_ok hm, hfa]
      rw [bind_of_ok hf, bind_of_ok hm, bind_of_ok hfa, List.append_assoc]

instance : LawfulMonad Reading := .mk' Reading
  (fun ⟨_, outcome⟩ => by cases outcome <;> simp [Functor.map, bind])
  (fun a f => by simp [bind_of_ok (outcome_pure a)])
  bind_assoc

def fail {α : Type} (complaint : Complaint) : Reading α := ⟨[], .error complaint⟩

def emit (instruction : Instruction) : Reading Unit := ⟨[instruction], .ok ()⟩

end Reading

/-- What is left of a text, and the offset at which it begins. -/
structure Cursor where
  position : Nat
  rest : List Char
  deriving DecidableEq, Repr

def Cursor.advance (c : Cursor) (n : Nat) : Cursor := ⟨c.position + n, c.rest.drop n⟩

def Cursor.fail {α : Type} (c : Cursor) (cause : Cause) : Reading α :=
  .fail ⟨cause, c.position, c.position⟩

def Cursor.emit (c : Cursor) (action : Action) : Reading Unit :=
  .emit ⟨action, c.position, c.position⟩

end Reckon.Expression
