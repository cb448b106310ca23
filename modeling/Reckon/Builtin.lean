import Reckon.Unary
import Reckon.Mode

/-! # The functions and constants that an expression may use -/
namespace Reckon
set_option autoImplicit false

inductive Builtin
  | unary (f : Unary)
  | root
  deriving DecidableEq, Repr

namespace Builtin

def all : List Builtin := Unary.all.map unary ++ [root]

def name : Builtin → String
  | unary f => f.name
  | root => "root"

def arity : Builtin → Nat
  | unary _ => 1
  | root => 2

def description : Builtin → String
  | unary f => f.description
  | root => "n-th root: root(x, n) = x^(1/n)"

def ofName? (name : String) : Option Builtin := all.find? (·.name == name)

end Builtin

inductive Constant
  | pi | e | i
  deriving DecidableEq, Repr

namespace Constant

def name : Constant → String
  | pi => "pi"
  | e => "e"
  | i => "i"

def all : Mode → List Constant
  | .real => [pi, e]
  | .complex => [pi, e, i]

def ofName? (mode : Mode) (name : String) : Option Constant := (all mode).find? (·.name == name)

end Constant
end Reckon
