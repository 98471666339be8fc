import Patchbay.Graph.Expression

/-!
# Samples

One sample of a graph: each node under the root processes the values of its properties once, and
all nodes that hold it see the same output. When a sample fails, the nodes processed before keep
their new state.

* `Store.tick`: one sample of a node; `Store.render`: as many as asked for.
-/

namespace Patchbay.Store

/-- A sample in the making: the store, and the outputs of the nodes already processed. -/
structure Pass where
  store : Store
  outputs : List (NodeId × Float)

/-- The value of a property of the node `id`, nodes sampled by `child`. -/
def propertyInput (child : NodeId → Task Pass Float) (id : NodeId) (key : Key) :
    Value → Task Pass Float
  | .node n => child n.id
  | value =>
    match value.number? with
    | some x => return x
    | none => throw (.evaluation id (.notNumeric key))

/-- The values of properties, in order. -/
def propertyInputs (eval : Key → Value → Task Pass Float) :
    List (Key × Value) → Task Pass (List Float)
  | [] => return []
  | (key, value) :: rest => do
    let input ← eval key value
    let inputs ← propertyInputs eval rest
    return input :: inputs

/-- Runs a task on the store of a pass. -/
def onStore {α : Type} (task : Task Store α) : Task Pass α :=
  Task.onPart Pass.store (fun store pass => { pass with store }) task

/-- Processes a node and notes its output. -/
def processOnce (id : NodeId) (inputs : List Float) : Task Pass Float := do
  let output ← onStore (process id inputs)
  modify fun pass => { pass with outputs := (id, output) :: pass.outputs }
  return output

/-- The output of the node `id`, which stands inside the nodes of `path`, with `levels` levels
left of the limit. A node already processed needs no level. -/
def sample (limit : Nat) : Nat → List NodeId → NodeId → Task Pass Float
  | 0, path, id => do
    match (← get).outputs.lookup id with
    | some output => return output
    | none =>
      if id ∈ path then throw (.cyclic id) else throw (.evaluation id (.tooDeep limit))
  | levels + 1, path, id => do
    match (← get).outputs.lookup id with
    | some output => return output
    | none =>
      if id ∈ path then throw (.cyclic id)
      let node ← onStore (fetch id)
      let inputs ← propertyInputs (propertyInput (sample limit levels (id :: path)) id)
        node.properties.entries
      processOnce id inputs

/-- One sample of a node. -/
def tick (limit : Nat) (id : NodeId) : Task Store Float :=
  Task.onPart (fun store => Pass.mk store []) (fun pass _ => pass.store) (sample limit limit [] id)

/-- Consecutive samples of a node, up to the first that fails. -/
def render (limit : Nat) (id : NodeId) : Nat → Task Store (List Float)
  | 0 => return []
  | count + 1 => do
    let first ← tick limit id
    let rest ← render limit id count
    return first :: rest

end Patchbay.Store
