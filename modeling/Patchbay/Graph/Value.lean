import Patchbay.Graph.Key
import Patchbay.Double.Layout
import Patchbay.Text.Quoted

/-!
# Values

What a property holds and a method takes and returns: a number, a truth value, a text, another
node of the graph, or nothing.
-/

namespace Patchbay

/-- The number under which a node is filed, locally or by another program. -/
abbrev NodeId := Nat

/-- A node as a value: its number, and whether it produces a sequence of values, which never
changes in the life of a node. -/
structure NodeRef where
  id : NodeId
  isSequence : Bool
deriving DecidableEq

/-- A property value or method argument. -/
inductive Value where
  | scalar (x : Float)
  | bool (b : Bool)
  | text (t : String)
  | node (n : NodeRef)
  | unset
deriving DecidableEq

instance : Inhabited Value := ⟨.unset⟩

namespace Value

/-- The value as a number; a truth value counts as 1 or 0. -/
def number? : Value → Option Float
  | scalar x => some x
  | bool b => some (if b then 1.0 else 0.0)
  | _ => none

/-- The node that the value is. -/
def node? : Value → Option NodeRef
  | node n => some n
  | _ => none

theorem node?_eq_some {v : Value} {n : NodeRef} : v.node? = some n ↔ v = node n := by
  cases v with
  | node m =>
    exact ⟨fun h => congrArg node (Option.some.inj h), fun h => congrArg some (node.inj h)⟩
  | scalar | bool | text | unset => exact iff_of_false nofun nofun

/-- What holds of all nodes among the values, as it is checked one value after another. -/
theorem forall_node_iff {P : NodeRef → Prop} {values : List Value} :
    (∀ n, node n ∈ values → P n) ↔ ∀ v ∈ values, ∀ n ∈ v.node?, P n := by
  constructor
  · intro h v hv n hn
    exact h n (node?_eq_some.1 hn ▸ hv)
  · exact fun h n hn => h _ hn n rfl

/-- The text that the value is. -/
def text? : Value → Option String
  | text t => some t
  | _ => none

/-- The property key that the value names, by position or in text. -/
def key? : Value → Option Key
  | scalar x => Key.ofDouble? x
  | text t => some (Key.parse t)
  | _ => none

/-- Whether the value is nothing. -/
def isUnset : Value → Bool
  | unset => true
  | _ => false

/-- Equality of values: of numbers as numbers, so that the zeros are equal and what is not a
number equals nothing, and of nodes by identity. -/
def same : Value → Value → Bool
  | scalar x, scalar y => x == y
  | bool a, bool b => a == b
  | text a, text b => a == b
  | node a, node b => a.id == b.id
  | unset, unset => true
  | _, _ => false

/-- The value as it stands in messages to people, with its kind. -/
def tagged : Value → String
  | scalar x => "Scalar(" ++ Double.toTagged x ++ ")"
  | bool b => "Bool(" ++ (if b then "true" else "false") ++ ")"
  | text t => "Text(" ++ Text.quote t ++ ")"
  | node n => "Node(NodeRef(" ++ Nat.repr n.id ++ "))"
  | unset => "Unset"

end Value

end Patchbay
