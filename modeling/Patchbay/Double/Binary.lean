/-!
# Doubles as coefficient and scale

A finite double is a sign and a whole number of units of `2 ^ -1074`, the smallest positive
double. The number of units is `coefficient * 2 ^ scale` with a coefficient below `2 ^ 53`, and
the bit pattern of the magnitude is the number `scale * 2 ^ 52 + coefficient`:

* `Magnitude.toBits_ofBits`: the coefficient and scale of a bit pattern give that pattern back;
* `Magnitude.nearest`: the double nearest to a quotient, the even coefficient winning a tie. A
  coefficient that rounds up to `2 ^ 53` needs no correction, because `toBits` carries it into
  the scale, and a quotient beyond the largest double reaches the pattern of infinity;
* `view`: what a `Float` is: not a number, infinite, or finite with its sign and magnitude.
-/

-- Powers are those of the core library, also where monoids are imported.
attribute [instance (high + 1), default_instance (high + 1)] instPowNat

namespace Patchbay.Double

/-- The magnitude of a finite double: `coefficient * 2 ^ scale` units of `2 ^ -1074`. -/
structure Magnitude where
  coefficient : Nat
  scale : Nat
deriving DecidableEq

/-- The bit pattern of positive infinity; every finite magnitude has a smaller one. -/
def infinityBits : Nat := 2047 * 2 ^ 52

namespace Magnitude

/-- The magnitude whose bit pattern is `bits`. -/
def ofBits (bits : Nat) : Magnitude :=
  if bits < 2 ^ 52 then ⟨bits, 0⟩ else ⟨2 ^ 52 + bits % 2 ^ 52, bits / 2 ^ 52 - 1⟩

/-- The bit pattern of a magnitude. -/
def toBits (m : Magnitude) : Nat := m.scale * 2 ^ 52 + m.coefficient

theorem toBits_ofBits (bits : Nat) : (ofBits bits).toBits = bits := by
  unfold ofBits
  split <;> simp only [toBits] <;> omega

/-- The magnitude as a whole number of units of `2 ^ -1074`. -/
def units (m : Magnitude) : Nat := m.coefficient * 2 ^ m.scale

/-- The magnitude nearest to `num / den` units; a quotient halfway between two magnitudes goes to
the one with the even coefficient. -/
def nearest (num den : Nat) : Magnitude :=
  let scale := (num / den).log2 - 52
  let step := den * 2 ^ scale
  let low := num / step
  let rest := num % step
  let up := step < 2 * rest || (2 * rest == step && low % 2 == 1)
  ⟨if up then low + 1 else low, scale⟩

end Magnitude

/-- What a double stands for. -/
inductive View where
  /-- not a number -/
  | nan
  /-- an infinity -/
  | infinite (negative : Bool)
  /-- a finite number; zero has a sign too -/
  | finite (negative : Bool) (magnitude : Magnitude)
deriving DecidableEq

/-- Reads the sign and the magnitude off the bit pattern. -/
def view (x : Float) : View :=
  let bits := x.toBits.toNat
  let negative := decide (2 ^ 63 ≤ bits)
  let magnitude := bits % 2 ^ 63
  if infinityBits < magnitude then .nan
  else if magnitude = infinityBits then .infinite negative
  else .finite negative (.ofBits magnitude)

/-- The double with the given sign and bit pattern of the magnitude. -/
def ofSignBits (negative : Bool) (bits : Nat) : Float :=
  Float.ofBits (UInt64.ofNat (bits + if negative then 2 ^ 63 else 0))

/-- The double with the given sign and magnitude. -/
def ofMagnitude (negative : Bool) (m : Magnitude) : Float :=
  ofSignBits negative m.toBits

/-- Not a number. -/
def nan : Float := Float.ofBits 0x7FF8000000000000

/-- Neither infinite nor without a number. -/
def isFinite (x : Float) : Bool :=
  match view x with
  | .finite .. => true
  | _ => false

/-- The natural number that a double equals, if it equals one; both zeros equal 0. -/
def nat? (x : Float) : Option Nat :=
  match view x with
  | .finite negative m =>
    if m.units % 2 ^ 1074 = 0 ∧ (negative = false ∨ m.units = 0) then some (m.units / 2 ^ 1074)
    else none
  | _ => none

/-- The remainder of a division that truncates toward zero, exact, with the sign of the dividend.
There is none for an infinite dividend or a zero divisor, and an infinite divisor leaves the
dividend as it is. -/
def remainder (x y : Float) : Float :=
  match view x, view y with
  | .nan, _ => nan
  | _, .nan => nan
  | .infinite _, _ => nan
  | .finite .., .infinite _ => x
  | .finite negative m, .finite _ d =>
    if d.units = 0 then nan
    else ofMagnitude negative (.nearest (m.units % d.units) 1)

end Patchbay.Double
