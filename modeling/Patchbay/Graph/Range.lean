import Patchbay.Double.Binary

/-!
# Re-ranging

Maps an input interval to an output interval, along a straight line or along a power curve. A
result beyond a bound of the output interval is held there or wrapped: the part beyond the upper
bound comes back above the lower one, and the other way round.
-/

namespace Patchbay

/-- How the output follows the input. -/
inductive Curve where
  | linear
  | exponential
deriving DecidableEq

namespace Curve

/-- Zero, of either sign, stands for the straight line and everything else for the curve. -/
def ofNumber (x : Float) : Curve := if x == 0.0 then linear else exponential

/-- The number that stands for the curve. -/
def number : Curve → Float
  | linear => 0.0
  | exponential => 1.0

end Curve

/-- An output and an input interval, and how one is mapped to the other. -/
structure Range where
  outputMin : Float
  outputMax : Float
  inputMin : Float
  inputMax : Float
  curve : Curve
  wrap : Bool
deriving DecidableEq

namespace Range

/-- How far `x` lies into the input interval. On the curve it is never negative. -/
def portion (r : Range) (x : Float) : Float :=
  let p := (x - r.inputMin) / (r.inputMax - r.inputMin)
  if p < 0.0 && r.curve = .exponential then 0.0 else p

/-- The output before any bound is applied. -/
def unbounded (r : Range) (x : Float) : Float :=
  let extent := r.outputMax - r.outputMin
  match r.curve with
  | .linear => r.outputMin + r.portion x * extent
  | .exponential => r.outputMin + Float.pow (r.portion x) 1.5 * extent

/-- Applies the upper bound. -/
def boundAbove (r : Range) (y : Float) : Float :=
  if r.outputMax < y then
    if r.wrap then r.outputMin + Double.remainder y r.outputMax else r.outputMax
  else y

/-- Applies the lower bound. -/
def boundBelow (r : Range) (y : Float) : Float :=
  if y < r.outputMin then
    if r.wrap then r.outputMax + Double.remainder y r.outputMin else r.outputMin
  else y

/-- The output for an input: the upper bound is applied first, then the lower one. -/
def apply (r : Range) (x : Float) : Float := r.boundBelow (r.boundAbove (r.unbounded x))

end Range

end Patchbay
