import Patchbay.Double.Reading

/-!
# Ways to read a number

A number in a text has a sign, digits before and after the point, and an exponent. What reads the
text is given the way to make a double of these, so that what holds for every way is told from what
depends on one.

* `Numerals.exact`: the nearest double;
* `Numerals.scaled`: the digits that fit into 64 bits are made a double, and this is multiplied or
  divided by a power of ten. Each of the two steps rounds, so that the result can be next to the
  nearest double.
-/

namespace Patchbay

/-- A way to make a double of a number, an infinity if it is too large. -/
structure Numerals where
  double : (negative : Bool) → (whole fraction : List Char) → (exponent : Int) → Float

namespace Numerals

open Double (Literal ofInt ofSignBits infinityBits)

/-- The double nearest to the number. -/
def exact : Numerals where
  double negative whole fraction exponent :=
    (Literal.ofDigits negative whole fraction exponent).double

/-! ## Two steps -/

/-- Appends digits to a number up to the first with which it would not fit into 64 bits. Gives the
number and how many digits are left. -/
def appendDigits (n : Nat) : List Char → Nat × Nat
  | [] => (n, 0)
  | d :: ds =>
    let longer := 10 * n + (d.toNat - '0'.toNat)
    if longer < 2 ^ 64 then appendDigits longer ds else (n, ds.length + 1)

/-- The double nearest to a power of ten. -/
def powerOfTen (e : Nat) : Float := Literal.double ⟨false, 1, e⟩

/-- Divides by `10 ^ e`, of which `10 ^ 308` is the most that is divided by at once. -/
def divideByPower (x : Float) (e : Nat) : Float :=
  if e ≤ 308 then x / powerOfTen e
  else if x == 0.0 then x
  else divideByPower (x / powerOfTen 308) (e - 308)
termination_by e
decreasing_by omega

/-- Multiplies or divides by a power of ten. -/
def scaleByPower (x : Float) : Int → Float
  | .ofNat e =>
    if e ≤ 308 then x * powerOfTen e
    else if x == 0.0 then x
    else ofSignBits false infinityBits
  | .negSucc e => divideByPower x (e + 1)

/-- The digits as one number, scaled afterwards. A digit before the point that does not fit counts
for the exponent alone, one after the point for nothing. -/
def scaled : Numerals where
  double negative whole fraction exponent :=
    let (n, wholeLeft) := appendDigits 0 whole
    let (n, fractionLeft) := appendDigits n fraction
    let x := scaleByPower (ofInt n) (exponent + wholeLeft - (fraction.length - fractionLeft : Nat))
    if negative then -x else x

end Numerals

end Patchbay
