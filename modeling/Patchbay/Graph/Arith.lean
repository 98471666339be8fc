import Patchbay.Double.Binary

/-!
# Arithmetic operators

The five operators that a node chains over its operands, from left to right.
-/

namespace Patchbay

/-- An operator of two numbers. -/
inductive Arith where
  | add | sub | mul | div | mod
deriving DecidableEq

namespace Arith

/-- The operators, in the order in which they are listed. -/
def all : List Arith := [add, sub, mul, div, mod]

/-- The symbol that stands between operands. -/
def symbol : Arith → String
  | add => "+"
  | sub => "-"
  | mul => "*"
  | div => "/"
  | mod => "%"

/-- The name under which a node of the operator is constructed. -/
def name : Arith → String
  | add => "add"
  | sub => "sub"
  | mul => "mul"
  | div => "div"
  | mod => "mod"

/-- The operator of a name, ASCII letters in either case. -/
def ofName? (name : String) : Option Arith :=
  let lowered := String.ofList (name.toList.map Char.toLower)
  all.find? (·.name = lowered)

/-- The result of the operator. -/
def apply : Arith → Float → Float → Float
  | add, x, y => x + y
  | sub, x, y => x - y
  | mul, x, y => x * y
  | div, x, y => x / y
  | mod, x, y => Double.remainder x y

end Arith

end Patchbay
