import Patchbay.Double.Binary
import Patchbay.Double.Reading

/-!
# Property keys

A property stands at a position or under a name. In text both look alike, and a text made of
digits is a position:

* `Key.parse`: the key that a text names; one leading plus and leading zeros do not matter, and a
  number beyond `2 ^ 64 - 1` is a name;
* `Key.text`: the key as text; `Key.ofDouble?`: the position that a number stands for.
-/

namespace Patchbay

/-- The place of a property: a position, or a name. -/
inductive Key where
  | index (position : UInt64)
  | named (name : String)
deriving DecidableEq

namespace Key

/-- Whether a key is the name. -/
def isNamed (name : String) : Key → Bool
  | index _ => false
  | named other => other = name

/-- The position that decimal digits stand for, if there are any and it is below `2 ^ 64`. -/
def position? (digits : List Char) : Option UInt64 :=
  let n := Double.digitsValue digits
  if !digits.isEmpty && digits.all Char.isDigit && n < 2 ^ 64 then some (UInt64.ofNat n) else none

/-- A text without one leading plus. -/
def dropPlus : List Char → List Char
  | '+' :: cs => cs
  | cs => cs

/-- The key that a text names. -/
def parse (text : String) : Key :=
  match position? (dropPlus text.toList) with
  | some n => .index n
  | none => .named text

/-- The key as text. -/
def text : Key → String
  | index n => Nat.repr n.toNat
  | named name => name

/-- The position that a number stands for: a natural number does, the largest position standing
for all beyond it, and both zeros stand for 0. -/
def ofDouble? (x : Float) : Option Key :=
  (Double.nat? x).map fun n => .index (UInt64.ofNat (min n (2 ^ 64 - 1)))

end Key

end Patchbay
