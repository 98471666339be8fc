import Patchbay.Double.Binary

/-!
# JSON values

A number is an integer or a double, because an integer read from a text is told apart from a
double of the same size. The members of an object keep their order, and a key may occur twice.
-/

namespace Patchbay

/-- A JSON value. -/
inductive Json where
  | null
  | bool (b : Bool)
  | int (i : Int)
  | float (x : Float)
  | string (s : String)
  | array (items : List Json)
  | object (members : List (String × Json))

namespace Json

instance : Inhabited Json := ⟨null⟩

/-- The value under a key of an object that has the key once. -/
def field? (members : List (String × Json)) (key : String) : Option Json :=
  match members.filter (·.1 = key) with
  | [(_, value)] => some value
  | _ => none

/-- The natural number below `2 ^ 64` that the value is, written as an integer. -/
def word? : Json → Option Nat
  | int i => if 0 ≤ i ∧ i < 2 ^ 64 then some i.toNat else none
  | _ => none

/-- The text that the value is. -/
def string? : Json → Option String
  | string s => some s
  | _ => none

/-- The truth value that the value is. -/
def bool? : Json → Option Bool
  | bool b => some b
  | _ => none

/-- The texts of a list of texts. -/
def strings? : Json → Option (List String)
  | array items => items.mapM string?
  | _ => none

/-- Whether the value names the only form of a one-form choice: by a text, or by an object with
that key and nothing under it. -/
def isTag (tag : String) : Json → Bool
  | string s => s = tag
  | object [(key, null)] => key = tag
  | _ => false

end Json

end Patchbay
