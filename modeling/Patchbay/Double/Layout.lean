import Patchbay.Double.Shortest

/-!
# How a double is written

The digits are the shortest that read back; a `Layout` decides the rest: where positional notation
ends, whether a whole number shows its empty fraction, and how an exponent is signed.

* `Layout.plain`: positional always, as in expressions: `1`, `0.5`, `-0`;
* `Layout.tagged`: as in the display of a value: `1.0`, `0.0001`, `1e-5`, `1e16`;
* `Layout.json`: as in a message: `1.0`, `0.00001`, `1e-6`, `1e+16`.
-/

namespace Patchbay.Double

/-- The decisions of a written form. -/
structure Layout where
  /-- which of two equally near digit strings is written -/
  tie : Tie
  /-- whether a number whose leading digit stands for this power of ten is written positionally -/
  positional : Int → Bool
  /-- what follows a whole number in positional notation -/
  whole : List Char
  /-- what precedes a positive exponent -/
  plus : List Char

/-- Positional always, a whole number without a point. -/
def Layout.plain : Layout := ⟨.up, fun _ => true, [], []⟩

/-- Positional from `10 ^ -4` to below `10 ^ 16`, a whole number with one fractional digit. -/
def Layout.tagged : Layout := ⟨.up, fun e => decide (-4 ≤ e ∧ e < 16), ['.', '0'], []⟩

/-- Positional from `10 ^ -5` to below `10 ^ 16`, a whole number with one fractional digit, every
exponent with a sign. -/
def Layout.json : Layout := ⟨.even, fun e => decide (-5 ≤ e ∧ e < 16), ['.', '0'], ['+']⟩

/-- The digits of a natural number. -/
def natDigits (n : Nat) : List Char := Nat.toDigits 10 n

/-- Digits with the point placed as `exponent` asks. -/
def placePoint (whole : List Char) (digits : List Char) (exponent : Int) : List Char :=
  match exponent with
  | .ofNat zeros => digits ++ List.replicate zeros '0' ++ whole
  | .negSucc less =>
    let places := less + 1
    if places < digits.length then
      digits.take (digits.length - places) ++ '.' :: digits.drop (digits.length - places)
    else ['0', '.'] ++ List.replicate (places - digits.length) '0' ++ digits

/-- One digit, the others after a point, and the power of ten of the first. -/
def withExponent (plus : List Char) (digits : List Char) (power : Int) : List Char :=
  let fraction := match digits.drop 1 with
    | [] => []
    | rest => '.' :: rest
  let exponent := match power with
    | .ofNat n => plus ++ natDigits n
    | .negSucc n => '-' :: natDigits (n + 1)
  digits.take 1 ++ fraction ++ 'e' :: exponent

/-- The written form of a decimal. -/
def Layout.decimal (l : Layout) (d : Decimal) : List Char :=
  let digits := natDigits d.coefficient
  let power := d.exponent + digits.length - 1
  if l.positional power then placePoint l.whole digits d.exponent
  else withExponent l.plus digits power

/-- The written form of a magnitude. -/
def Layout.magnitude (l : Layout) (m : Magnitude) : List Char :=
  if m.coefficient = 0 then '0' :: l.whole else l.decimal (shortest l.tie m)

/-- A minus sign if asked for. -/
def signed (negative : Bool) (text : List Char) : List Char :=
  if negative then '-' :: text else text

/-- The written form of a double. -/
def Layout.chars (l : Layout) (x : Float) : List Char :=
  match view x with
  | .nan => ['N', 'a', 'N']
  | .infinite negative => signed negative ['i', 'n', 'f']
  | .finite negative m => signed negative (l.magnitude m)

/-- The written form of a double. -/
def Layout.text (l : Layout) (x : Float) : String := String.ofList (l.chars x)

/-- The form without exponent. -/
def toPlain (x : Float) : String := Layout.plain.text x

/-- The form that shows a fraction or an exponent. -/
def toTagged (x : Float) : String := Layout.tagged.text x

end Patchbay.Double
