import Patchbay.Graph.Node

/-!
# Methods

Every node answers `set` and `get`; a map also tells its last output, and a sequence is started,
stopped and reset. A call that fails leaves the node as it was.
-/

namespace Patchbay.Node

/-- Writes a property: a key and a value. -/
def callSet (n : Node) : List Value → Except Fault (Value × Node)
  | [key, value] =>
    match key.key? with
    | some key => return (.unset, n.setProperty key value)
    | none => throw (.invalidArgument "set" (.notKey key))
  | args => throw (.invalidArgument "set" (.argumentCount args.length))

/-- Reads a property: the first argument is its key, the others do not matter. -/
def callGet (n : Node) (args : List Value) : Except Fault (Value × Node) :=
  match args.head?.bind Value.key? with
  | some key => return ((n.properties.get? key).getD .unset, n)
  | none => throw (.invalidArgument "get" .noKey)

/-- Calls a method that every node has. -/
def callCommon (id : NodeId) (n : Node) (method : String) (args : List Value) :
    Except Fault (Value × Node) :=
  if method = "set" then n.callSet args
  else if method = "get" then n.callGet args
  else throw (.unknownMethod id method)

/-- What a method of a sequence answers and makes of its state. -/
def callPlayback? (p : Playback) (method : String) : Option (Value × Playback) :=
  if method = "start" then some (.unset, { p with running := true })
  else if method = "stop" then some (.unset, { p with running := false })
  else if method = "reset" then some (.unset, { p with phase := 0.0, position := 0 })
  else if method = "getValue" then some (.scalar p.value, p)
  else none

/-- Calls a method of the node filed under `id`: the answer, and the node after the call. -/
def call (id : NodeId) (n : Node) (method : String) (args : List Value) :
    Except Fault (Value × Node) :=
  match n.body with
  | .map value =>
    if method = "getValue" then return (.scalar value, n) else callCommon id n method args
  | .sequence p =>
    match callPlayback? p method with
    | some (answer, p) => return (answer, { n with body := .sequence p })
    | none => callCommon id n method args
  | _ => callCommon id n method args

end Patchbay.Node
