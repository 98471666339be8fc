import Patchbay.Relay.Config
import Patchbay.Relay.Outlet

/-!
# Relays

A relay sends what happens to nodes to its outlet, and remembers which nodes it has announced. A
message that is not delivered is lost without any other effect; in particular a node whose
announcement is lost counts as not announced.
-/

namespace Patchbay

/-- A relay with its outlet. -/
structure Relay where
  config : Config
  outlet : Outlet
  /-- the numbers of the posts that get lost on the way, from 0 on -/
  lost : List Nat
  /-- how many messages have been sent, lost ones included -/
  sent : Nat
  /-- the nodes announced, each once -/
  announced : List NodeId

namespace Relay

/-- A relay that has sent nothing yet. -/
def start (config : Config) (outlet : Outlet) (lost : List Nat) : Relay :=
  ⟨config, outlet, lost, 0, []⟩

/-- Whether a node would be announced, `suppress` switching this off for one node. -/
def isActive (r : Relay) (suppress : Bool) : Bool := r.config.isActive && !suppress

/-- Sends a message: whether it is delivered, and the relay after it. -/
def send (r : Relay) (message : Message) : Bool × Relay :=
  let r' := { r with sent := r.sent + 1 }
  if r.sent ∈ r.lost then (false, r')
  else
    match r.outlet.post message with
    | .ok outlet => (true, { r' with outlet })
    | .error _ => (false, r')

/-- Whether a node has been announced. -/
def hasAnnounced (r : Relay) (id : NodeId) : Bool := r.announced.contains id

/-- Remembers a node as announced: whether it was not before, and the relay after it. -/
def announce (r : Relay) (id : NodeId) : Bool × Relay :=
  if r.hasAnnounced id then (false, r) else (true, { r with announced := id :: r.announced })

/-- Sends an announcement, and remembers the node if it is delivered. -/
def sendCreate (r : Relay) (create : Create) : Relay :=
  match r.send (.create create) with
  | (true, r) => (r.announce create.id).2
  | (false, r) => r

/-- The relay in words. -/
def description (r : Relay) : String :=
  "Mirror \x7b config: MirrorConfig \x7b mode: " ++ r.config.mode.tagged ++
    ", prevent_mirroring: " ++ (if r.config.prevent then "true" else "false") ++ ", max_depth: " ++
    Nat.repr r.config.maxDepth ++ " \x7d, announced: " ++ Nat.repr r.announced.length ++ " \x7d"

end Relay

end Patchbay
