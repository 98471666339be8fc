import Patchbay.Relay.Message
import Patchbay.Replica.Basic

/-!
# Applying messages

A replica applies messages in the order in which they come. What a failing message has built before
it fails stays built.

* `Receiver.build`: the value of a snapshot. A full copy makes a new node each time, an
  announcement only if its number is not in the table;
* `Receiver.apply`: the value of a message: the node announced, or the answer of the method.
-/

namespace Patchbay

/-- A replica, and the store of its nodes. -/
structure Receiver where
  store : Store
  replica : Replica

namespace Receiver

/-- A replica without nodes in an empty store. -/
def start : Receiver := ⟨.empty, .empty⟩

/-- Runs a task on the store. -/
def onStore {α : Type} (task : Task Store α) : Task Receiver α :=
  Task.onPart Receiver.store (fun store r => { r with store }) task

/-- The node under a number of the other program. -/
def lookup (id : NodeId) : Task Receiver NodeRef := do
  match (← get).replica.get? id with
  | some ref => return ref
  | none => throw (.unknownReference id)

/-- Makes a node by the constructor of a name and files it under a number. -/
def construct (id : NodeId) (name : String) (properties : Bag) : Task Receiver NodeRef := do
  match (← get).replica.constructor? name with
  | none => throw (.unknownConstructor name)
  | some constructor =>
    let ref ← onStore (Store.build (constructor properties))
    modify fun r => { r with replica := r.replica.file id ref }
    return ref

mutual

/-- The value of a snapshot. -/
def build : Snapshot → Task Receiver Value
  | .scalar x => return .scalar x
  | .bool b => return .bool b
  | .text t => return .text t
  | .unset => return .unset
  | .reference id => return .node (← lookup id)
  | .created path properties id => do
    match (← get).replica.get? id with
    | some ref => return .node ref
    | none =>
      let bag ← buildBag properties .empty
      return .node (← construct id (path.leaf?.getD "") bag)
  | .node id name properties => do
    let bag ← buildBag properties .empty
    return .node (← construct id name bag)

/-- The values of snapshots, put into a bag one after another. -/
def buildBag : List (String × Snapshot) → Bag → Task Receiver Bag
  | [], bag => return bag
  | (key, snapshot) :: rest, bag => do
    let value ← build snapshot
    buildBag rest (bag.set (Key.parse key) value)

end

/-- The values of snapshots. -/
def buildAll : List Snapshot → Task Receiver (List Value)
  | [] => return []
  | snapshot :: rest => do
    let value ← build snapshot
    let values ← buildAll rest
    return value :: values

/-- Makes the node of an announcement, also if its number is in the table. -/
def create (c : Create) : Task Receiver NodeRef := do
  let bag ← buildBag c.properties .empty
  construct c.id (c.path.leaf?.getD "") bag

/-- Makes a call: on the node that its object is before its arguments are built. -/
def call (c : Call) : Task Receiver Value := do
  let target ← lookup c.object
  let args ← buildAll c.args
  onStore (Store.call target.id c.method args)

/-- Applies a message. -/
def apply : Message → Task Receiver Value
  | .create c => return .node (← create c)
  | .call c => call c

/-- Applies messages in order, those that fail without further effect on the others; counts the
ones that succeed. -/
def applyAll : List Message → StateM Receiver Nat
  | [] => return 0
  | message :: rest => do
    let outcome ← (apply message).run
    let count ← applyAll rest
    return match outcome with
      | .ok _ => count + 1
      | .error _ => count

end Receiver

end Patchbay
