import Patchbay.Graph.Value
import Patchbay.Text.Case

/-!
# Messages

A relay announces each node to a replica by a `Create` and repeats each call on it by a `Call`.
Values travel as snapshots: a node as a reference to one that the replica has, as the announcement
it was made by, or as a full copy.
-/

namespace Patchbay

/-- The name under which a node is announced: the last segment is that of its constructor. -/
abbrev NamePath := List String

namespace NamePath

/-- A path of one segment, capitalized. -/
def single (name : String) : NamePath := [Text.capitalize name]

/-- A path whose last segment is capitalized. -/
def ofSegments : List String → NamePath
  | [] => []
  | [last] => [Text.capitalize last]
  | segment :: rest => segment :: ofSegments rest

/-- The last segment. -/
def leaf? (path : NamePath) : Option String := path.getLast?

/-- The segments with points between them. -/
def dotted (path : NamePath) : String := String.intercalate "." path

end NamePath

/-- A value on its way to another program. -/
inductive Snapshot where
  /-- a node by its announcement -/
  | created (path : NamePath) (properties : List (String × Snapshot)) (id : NodeId)
  /-- a full copy of a node -/
  | node (id : NodeId) (name : String) (properties : List (String × Snapshot))
  /-- a node that the other side has -/
  | reference (id : NodeId)
  | scalar (x : Float)
  | bool (b : Bool)
  | text (t : String)
  | unset

instance : Inhabited Snapshot := ⟨.unset⟩

/-- The announcement of a node: what it is and what it was made from. -/
structure Create where
  path : NamePath
  properties : List (String × Snapshot)
  id : NodeId

/-- A method call on an announced node. -/
structure Call where
  object : NodeId
  method : String
  args : List Snapshot

/-- What a relay sends. -/
inductive Message where
  | create (c : Create)
  | call (c : Call)

namespace Snapshot

/-- The announcement of a node as a snapshot of it. -/
def ofCreate (c : Create) : Snapshot := created c.path c.properties c.id

/-- What kind of snapshot it is. -/
def kind : Snapshot → String
  | created .. => "created"
  | node .. => "node"
  | reference _ => "reference"
  | scalar _ => "scalar"
  | bool _ => "bool"
  | text _ => "text"
  | unset => "unset"

/-- The properties that the snapshot carries. -/
def properties? : Snapshot → Option (List (String × Snapshot))
  | created _ properties _ => some properties
  | node _ _ properties => some properties
  | _ => none

end Snapshot

namespace Message

/-- The number of the object that the message is about. -/
def object : Message → NodeId
  | create c => c.id
  | call c => c.object

/-- Whether the message announces a node. -/
def isCreate : Message → Bool
  | create _ => true
  | call _ => false

end Message

end Patchbay
