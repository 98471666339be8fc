import Patchbay.Graph.Sample
import Patchbay.Relay.Basic
import Patchbay.Relay.Encode
import Patchbay.Replica.Apply

/-!
# Sessions

A session has one store of nodes, any number of relays, and a replica fed from them. A node may be
wrapped by relays, one around the other, which shows in `layers` only: the nodes in the store know
nothing of relays.

* `Session.wrap`: announces a node through a relay, from its properties as they are now;
* `Session.invoke`: calls a method through the layers of a node: each relay that has announced the
  node sends the call on, the outermost first, and then the method runs;
* `Session.apply`, `Session.build`: what the replica makes of a message or snapshot.
-/

namespace Patchbay

/-- A layer that sends calls on through a relay, with the announcement it was made by. -/
structure Layer where
  relay : Nat
  create : Create

/-- The state of a session. -/
structure Session where
  store : Store
  /-- the layers around nodes, the outer one before the inner one of a node; one that sends nothing
  is `none` -/
  layers : List (NodeId × Option Layer)
  relays : Array Relay
  replica : Replica

namespace Session

/-- A session in which nothing has happened. -/
def start : Session := ⟨.empty, [], #[], .empty⟩

/-- Runs a task on the store. -/
def onStore {α : Type} (task : Task Store α) : Task Session α :=
  Task.onPart Session.store (fun store s => { s with store }) task

/-- Runs a task on the replica and the store. -/
def onReceiver {α : Type} (task : Task Receiver α) : Task Session α :=
  Task.onPart (fun s => Receiver.mk s.store s.replica)
    (fun r s => { s with store := r.store, replica := r.replica }) task

/-- Adds a relay: its number, and the session after it. -/
def addRelay (relay : Relay) (s : Session) : Nat × Session :=
  (s.relays.size, { s with relays := s.relays.push relay })

/-- Changes a relay. -/
def modifyRelay (number : Nat) (change : Relay → Relay) (s : Session) : Session :=
  { s with relays := s.relays.modify number change }

/-! ## Layers -/

/-- The layers around a node, the outermost first. -/
def layersOf (s : Session) (id : NodeId) : List (Option Layer) :=
  (s.layers.filter (·.1 = id)).map Prod.snd

/-- The announcement in the outermost layer of a node. -/
def announcement? (s : Session) (id : NodeId) : Option Create :=
  (s.layersOf id).head?.join.map Layer.create

/-- Puts a layer around a node. -/
def addLayer (id : NodeId) (layer : Option Layer) (s : Session) : Session :=
  { s with layers := (id, layer) :: s.layers }

/-- Takes the outermost layer off a node. -/
def dropLayer (id : NodeId) (s : Session) : Session :=
  { s with layers := s.layers.eraseP (·.1 = id) }

/-- Announces a node through a relay and puts a layer around it that sends calls on. The layer is
there even if the announcement gets lost. Nothing is sent if the properties cannot be copied. -/
def wrapActive (number : Nat) (relay : Relay) (path : NamePath) (id : NodeId) :
    Task Session (Option Create) := do
  let s ← get
  let node ← onStore (Store.fetch id)
  let properties ← Task.ofExcept
    (s.store.encodeProperties relay.config.maxDepth s.announcement? id node.properties)
  let create : Create := ⟨path, properties, id⟩
  modify (modifyRelay number (·.sendCreate create))
  modify (addLayer id (some ⟨number, create⟩))
  return some create

/-- Puts the layer of a relay around a node: one that sends nothing if the relay is not active for
the node. Gives the announcement that has been sent. -/
def wrap (number : Nat) (path : NamePath) (suppress : Bool) (id : NodeId) :
    Task Session (Option Create) := do
  match (← get).relays[number]? with
  | some relay =>
    if relay.isActive suppress then wrapActive number relay path id
    else
      modify (addLayer id none)
      return none
  | none =>
    modify (addLayer id none)
    return none

/-! ## Calls -/

/-- Whether a method is private to this side: its name starts with two underscores. -/
def isPrivate (method : String) : Bool := ['_', '_'].isPrefixOf method.toList

/-- Sends a call on through a layer, if the relay of the layer has announced the node. The copies
of the arguments are made before anything is sent; that the call gets lost does not matter. -/
def sendCall (id : NodeId) (method : String) (args : List Value) (layer : Layer) :
    Task Session Unit := do
  let s ← get
  match s.relays[layer.relay]? with
  | none => return
  | some relay =>
    if relay.hasAnnounced id then
      let args ← Task.ofExcept (s.store.encodeArgs relay.config.maxDepth id args)
      modify (modifyRelay layer.relay fun r => (r.send (.call ⟨id, method, args⟩)).2)

/-- Sends a call on through all layers, the first one first. -/
def sendCalls (id : NodeId) (method : String) (args : List Value) :
    List (Option Layer) → Task Session Unit
  | [] => return
  | none :: rest => sendCalls id method args rest
  | some layer :: rest => do
    sendCall id method args layer
    sendCalls id method args rest

/-- Calls a method of a node through its layers. -/
def invoke (id : NodeId) (method : String) (args : List Value) : Task Session Value := do
  if !isPrivate method then sendCalls id method args ((← get).layersOf id)
  onStore (Store.call id method args)

/-! ## The replica -/

/-- The value of a snapshot in the replica. -/
def build (snapshot : Snapshot) : Task Session Value := onReceiver (Receiver.build snapshot)

/-- Applies a message to the replica. -/
def apply (message : Message) : Task Session Value := onReceiver (Receiver.apply message)

/-- Applies what a channel holds to the replica, if the relay has a channel with a receiver. Gives
the number of messages that succeed. -/
def sync? (number : Nat) (s : Session) : Option (Nat × Session) :=
  match s.relays[number]?.map Relay.outlet with
  | some (.channel .context (some pending)) =>
    let (count, r) := (Receiver.applyAll pending).run ⟨s.store, s.replica⟩
    let s := { s with store := r.store, replica := r.replica }
    some (count, modifyRelay number (fun r => { r with outlet := r.outlet.dropAll }) s)
  | _ => none

/-- Reads a message from JSON text and applies it to the replica. -/
def applyText (text : String) : Task Session Value := do
  let message ← Task.ofExcept ((Message.read text).mapError Fault.rejected)
  apply message

end Session

end Patchbay
