import Patchbay.Double.Binary

/-!
# The shortest decimal that reads back

The decimals that round to a double form an interval around it, whose ends belong to it exactly
when the coefficient is even. Every double, and every end of such an interval, is a whole number
of units of `10 ^ -1076`, so the search below runs on natural numbers only:

* `interval`: the interval of a magnitude, in those units;
* `coarsest`: a multiple of the largest power of ten that has a multiple in the interval. No
  decimal of fewer digits reads back, for it would be a multiple of a larger power;
* `shortest`: that multiple as a `Decimal`, of two in the interval the nearer one. `Tie` says
  which one is taken when both are equally near.
-/

namespace Patchbay.Double

/-- The number `coefficient * 10 ^ exponent`. -/
structure Decimal where
  coefficient : Nat
  exponent : Int
deriving DecidableEq

/-- Which of two equally near decimals is taken. -/
inductive Tie where
  /-- the larger one -/
  | up
  /-- the one with the even last digit -/
  | even
deriving DecidableEq

/-- How many units of `10 ^ -1076` make up `2 ^ -1074`. -/
def fineUnits : Nat := 100 * 5 ^ 1074

/-- A magnitude and the ends of its interval, in units of `10 ^ -1076`. -/
structure Interval where
  low : Nat
  middle : Nat
  high : Nat
  /-- whether the ends belong to the interval -/
  closed : Bool
deriving DecidableEq

/-- The decimals that round to a magnitude. Below a power of two the next double is only half as
far away as above it, unless the scale is already the smallest. -/
def interval (m : Magnitude) : Interval :=
  let middle := m.units * fineUnits
  let half := 2 ^ m.scale * (fineUnits / 2)
  let lower := if m.coefficient = 2 ^ 52 ∧ m.scale ≠ 0 then half / 2 else half
  ⟨middle - lower, middle, middle + half, m.coefficient % 2 = 0⟩

/-- Whether a number of units lies in the interval. -/
def Interval.mem (i : Interval) (n : Nat) : Bool :=
  if i.closed then decide (i.low ≤ n ∧ n ≤ i.high) else decide (i.low < n ∧ n < i.high)

/-- The nearer of `low * step` and `(low + 1) * step` to `n`, as a multiple of `step`. -/
def nearer (tie : Tie) (n step low : Nat) : Nat :=
  match compare (2 * (n - low * step)) step, tie with
  | .lt, _ => low
  | .gt, _ => low + 1
  | .eq, .up => low + 1
  | .eq, .even => if low % 2 = 0 then low else low + 1

/-- A multiple of `10 ^ power` in the interval, `power` being the largest one up to the given
power for which there is any: its quotient by `10 ^ power`, and `power`. -/
def coarsest (tie : Tie) (i : Interval) : Nat → Nat × Nat
  | 0 => (i.middle, 0)
  | power + 1 =>
    let step := 10 ^ (power + 1)
    let low := i.middle / step
    match i.mem (low * step), i.mem ((low + 1) * step) with
    | true, true => (nearer tie i.middle step low, power + 1)
    | true, false => (low, power + 1)
    | false, true => (low + 1, power + 1)
    | false, false => coarsest tie i power

/-- An exponent such that its power of ten is larger than `n`, since `2 ^ 93 < 10 ^ 28`. -/
def powerBound (n : Nat) : Nat := (n.log2 + 1) * 28 / 93 + 1

/-- The decimal of the fewest digits that rounds to a magnitude, and of those the nearest. -/
def shortest (tie : Tie) (m : Magnitude) : Decimal :=
  let i := interval m
  let found := coarsest tie i (powerBound i.high)
  ⟨found.1, (found.2 : Int) - 1076⟩

end Patchbay.Double
