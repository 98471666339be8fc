import Patchbay.Graph.Store

/-!
# Expressions

A graph as one line of text: an operator between its operands in parentheses, everything else a
name with its arguments. Nested nodes are written in place, as often as they occur.

Each node that is written keeps its text, also when the expression around it fails. A node within
itself and nesting beyond a limit are faults, of which the first wins.

* `Store.compile`: the expression of a node, which keeps it too;
* `Store.compileApart`: the same for a node that is not shared yet, so that neither its own text
  is kept nor its own depth checked.
-/

namespace Patchbay.Store

/-- The nesting limit of expressions and samples unless another is asked for. -/
def defaultDepth : Nat := 256

/-- A number in an expression of the node `id`; there is none that is not finite. -/
def scalarText (id : NodeId) (x : Float) : Except Fault String :=
  if Double.isFinite x then return Double.toPlain x
  else throw (.compilation id (.notFinite x))

/-- An operand of the operator `id`: a number, or a node written by `child`. -/
def operandText (child : NodeId → Task Store String) (id : NodeId) (key : Key) :
    Value → Task Store String
  | .scalar x => Task.ofExcept (scalarText id x)
  | .node n => child n.id
  | value => throw (.compilation id (.badOperand key value))

/-- An argument of the function `id`: a number, a truth value, or a node written by `child`. -/
def argumentText (child : NodeId → Task Store String) (id : NodeId) (key : Key) :
    Value → Task Store String
  | .scalar x => Task.ofExcept (scalarText id x)
  | .bool b => return if b then "1" else "0"
  | .node n => child n.id
  | .unset => throw (.compilation id (.unsetProperty key))
  | .text t => throw (.compilation id (.textProperty key t))

/-- The texts of properties, in order. -/
def propertyTexts (write : Key → Value → Task Store String) :
    List (Key × Value) → Task Store (List String)
  | [] => return []
  | (key, value) :: rest => do
    let text ← write key value
    let texts ← propertyTexts write rest
    return text :: texts

/-- The text of the node `id`, the nodes in it written by `child`. -/
def bodyText (child : NodeId → Task Store String) (id : NodeId) (node : Node) :
    Task Store String := do
  match node.form with
  | .chain op =>
    if node.properties.isEmpty then throw (.emptyOperator op)
    let texts ← propertyTexts (operandText child id) node.properties.entries
    return "( " ++ String.intercalate (" " ++ op.symbol ++ " ") texts ++ " )"
  | .call name =>
    let texts ← propertyTexts (argumentText child id) node.properties.entries
    return name ++ "(" ++ String.intercalate ", " texts ++ ")"

/-- Keeps the text of a node. -/
def keepText (id : NodeId) (text : String) : Task Store Unit := do
  let node ← fetch id
  modify (·.put id (node.withExpression text))

/-- Writes the node `id`, which stands inside the nodes of `path`, with `levels` levels left of
the limit. -/
def write (limit : Nat) : Nat → List NodeId → NodeId → Task Store String
  | 0, path, id =>
    if id ∈ path then throw (.cyclic id) else throw (.compilation id (.tooDeep limit))
  | levels + 1, path, id => do
    if id ∈ path then throw (.cyclic id)
    let node ← fetch id
    let text ← bodyText (write limit levels (id :: path)) id node
    keepText id text
    return text

/-- The expression of a node. -/
def compile (limit : Nat) (id : NodeId) : Task Store String := write limit limit [] id

/-- The expression of a node that is not shared yet. -/
def compileApart (limit : Nat) (id : NodeId) : Task Store String := do
  bodyText (write limit (limit - 1) [id]) id (← fetch id)

end Patchbay.Store
