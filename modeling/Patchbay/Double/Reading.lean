import Patchbay.Double.Shortest

/-!
# Reading decimals

* `Literal.double`: the double nearest to a decimal of any length and exponent;
* `read?`: the double that a text names: a sign, then digits with an optional point and exponent,
  or a word for infinity or for what is not a number, in any case.
-/

namespace Patchbay.Double

/-- The natural number that decimal digits stand for. -/
def digitsValue (digits : List Char) : Nat :=
  digits.foldl (fun n d => 10 * n + (d.toNat - '0'.toNat)) 0

/-- A decimal with a sign: `± coefficient * 10 ^ exponent`. -/
structure Literal where
  negative : Bool
  coefficient : Nat
  exponent : Int
deriving DecidableEq

/-- The bit pattern of the magnitude nearest to a decimal. What is certainly beyond the largest
double, or below half the smallest, is decided by its number of digits alone. -/
def nearestBits (coefficient : Nat) (exponent : Int) : Nat :=
  let order := exponent + (natWidth coefficient : Int)
  if coefficient = 0 then 0
  else if 400 < order then infinityBits
  else if order < -400 then 0
  else
    let m := match exponent with
      | .ofNat e => Magnitude.nearest (coefficient * 10 ^ e * 2 ^ 1074) 1
      | .negSucc e => Magnitude.nearest (coefficient * 2 ^ 1074) (10 ^ (e + 1))
    min m.toBits infinityBits
where
  /-- An upper bound, off by one at most, on the number of digits. -/
  natWidth (n : Nat) : Nat := (n.log2 + 1) * 28 / 93 + 1

/-- The double nearest to a decimal, an infinity if it is too large. -/
def Literal.double (l : Literal) : Float :=
  ofSignBits l.negative (nearestBits l.coefficient l.exponent)

/-- The double nearest to an integer. -/
def ofInt (i : Int) : Float := Literal.double ⟨decide (i < 0), i.natAbs, 0⟩

/-- The literal with the given digits before and after the point. -/
def Literal.ofDigits (negative : Bool) (whole fraction : List Char) (exponent : Int) : Literal :=
  ⟨negative, digitsValue (whole ++ fraction), exponent - fraction.length⟩

/-- An optional sign: whether it is a minus, and the rest. -/
def splitSign : List Char → Bool × List Char
  | '-' :: cs => (true, cs)
  | '+' :: cs => (false, cs)
  | cs => (false, cs)

/-- The exponent part of a decimal: nothing, or the letter, a sign and digits. -/
def readExponent? : List Char → Option Int
  | [] => some 0
  | c :: cs =>
    let (negative, digits) := splitSign cs
    if (c == 'e' || c == 'E') && !digits.isEmpty && digits.all Char.isDigit then
      some (if negative then -(digitsValue digits : Int) else digitsValue digits)
    else none

/-- The double that a text names. -/
def read? (text : String) : Option Float :=
  let (negative, cs) := splitSign text.toList
  let word := String.ofList (cs.map Char.toLower)
  if word = "inf" || word = "infinity" then some (ofSignBits negative infinityBits)
  else if word = "nan" then some nan
  else
    let whole := cs.takeWhile Char.isDigit
    let afterWhole := cs.dropWhile Char.isDigit
    let (fraction, rest) := match afterWhole with
      | '.' :: more => (more.takeWhile Char.isDigit, more.dropWhile Char.isDigit)
      | _ => ([], afterWhole)
    if whole.isEmpty && fraction.isEmpty then none
    else (readExponent? rest).map fun exponent =>
      (Literal.ofDigits negative whole fraction exponent).double

end Patchbay.Double
