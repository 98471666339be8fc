import Patchbay.Graph.Store
import Patchbay.Relay.Message

/-!
# Snapshots of values

Numbers, truth values, texts and nothing travel as they are. A node travels as a reference, since
the other side has it from its announcement, except that a sequence travels as a full copy with
its properties treated alike. Copies nest to a limit, and a sequence within itself is a fault at
the depth where it comes up again.

* `Store.encode`: the snapshot of a value;
* `Store.encodeArgs`: the snapshots of arguments of a call on `owner`, which stands around them;
* `Store.encodeProperties`: the snapshots of the properties that `owner` is made from, where a node
  that was announced travels as its announcement.
-/

namespace Patchbay.Store

/-- The snapshot of a value, sequences copied by `copy`. -/
def encodeWith (copy : NodeId → Except Fault Snapshot) : Value → Except Fault Snapshot
  | .scalar x => return .scalar x
  | .bool b => return .bool b
  | .text t => return .text t
  | .unset => return .unset
  | .node n => if n.isSequence then copy n.id else return .reference n.id

/-- The snapshots of values under the texts of their keys, in order. -/
def encodeEntries (encode : Value → Except Fault Snapshot) :
    List (Key × Value) → Except Fault (List (String × Snapshot))
  | [] => return []
  | (key, value) :: rest => do
    let snapshot ← encode value
    let snapshots ← encodeEntries encode rest
    return (key.text, snapshot) :: snapshots

/-- The full copy of the sequence `id`, which stands inside the nodes of `path`, with `levels`
levels left of the limit. -/
def fullCopy (s : Store) : Nat → List NodeId → NodeId → Except Fault Snapshot
  | 0, path, id => throw (.overflow id path.length)
  | levels + 1, path, id =>
    if id ∈ path then throw (.overflow id path.length)
    else
      match s.get? id with
      | none => throw (.unknownReference id)
      | some node => do
        let properties ← encodeEntries (encodeWith (fullCopy s levels (id :: path)))
          node.properties.entries
        return .node id node.name properties

/-- The snapshot of a value. -/
def encode (s : Store) (maxDepth : Nat) (value : Value) : Except Fault Snapshot :=
  encodeWith (s.fullCopy maxDepth []) value

/-- The snapshot of a value inside `owner`. -/
def encodeInside (s : Store) (maxDepth : Nat) (owner : NodeId) (value : Value) :
    Except Fault Snapshot :=
  encodeWith (s.fullCopy (maxDepth - 1) [owner]) value

/-- The snapshots of the arguments of a call on `owner`. -/
def encodeArgs (s : Store) (maxDepth : Nat) (owner : NodeId) (args : List Value) :
    Except Fault (List Snapshot) :=
  args.mapM (s.encodeInside maxDepth owner)

/-- The snapshots of properties that `owner` is made from, `announcement?` giving the announcement
of a node that has one. -/
def encodeProperties (s : Store) (maxDepth : Nat) (announcement? : NodeId → Option Create)
    (owner : NodeId) (properties : Bag) : Except Fault (List (String × Snapshot)) :=
  encodeEntries (fun value =>
    match value.node?.bind (announcement? ·.id) with
    | some create => return Snapshot.ofCreate create
    | none => s.encodeInside maxDepth owner value) properties.entries

end Patchbay.Store
