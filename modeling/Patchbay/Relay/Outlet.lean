import Patchbay.Relay.Wire

/-!
# Outlets

Where the messages of a relay go, in order: a channel whose receiver takes them one by one, lines
of text, or nowhere. A post never waits, and one that fails is not repeated.
-/

namespace Patchbay

/-- What is at the other end of a channel. -/
inductive Receiving where
  /-- another context -/
  | context
  /-- a task that waits for messages -/
  | task
deriving DecidableEq

/-- Where messages go. -/
inductive Outlet where
  /-- a channel with the messages not received yet, while it has a receiver -/
  | channel (receiving : Receiving) (pending : Option (List Message))
  /-- lines of text, which the sink may refuse, with the text written while it is kept -/
  | lines (accepting : Bool) (written : Option String)
  /-- nowhere -/
  | nowhere

namespace Outlet

/-- Why a channel without a receiver takes no message. -/
def goneReason : Receiving → Reason
  | .context => .disconnected
  | .task => .taskDropped

/-- Posts a message. -/
def post (message : Message) : Outlet → Except Fault Outlet
  | channel receiving (some pending) => return channel receiving (some (pending ++ [message]))
  | channel receiving none => throw (.transport (goneReason receiving))
  | lines true written => return lines true (written.map (· ++ message.print ++ "\n"))
  | lines false _ => throw (.transport .sinkClosed)
  | nowhere => return nowhere

/-- The messages not received yet. -/
def pending : Outlet → List Message
  | channel _ (some pending) => pending
  | _ => []

/-- The outlet after the first pending message has been received. -/
def dropFirst : Outlet → Outlet
  | channel receiving (some pending) => channel receiving (some (pending.drop 1))
  | outlet => outlet

/-- The outlet after all pending messages have been received. -/
def dropAll : Outlet → Outlet
  | channel receiving (some _) => channel receiving (some [])
  | outlet => outlet

/-- The text written so far. -/
def written? : Outlet → Option String
  | lines _ written => written
  | _ => none

/-- The outlet after the text written so far has been taken. -/
def dropText : Outlet → Outlet
  | lines accepting (some _) => lines accepting (some "")
  | outlet => outlet

/-- The outlet without its receiver. Lines are written as before, but their text is not kept. -/
def close : Outlet → Outlet
  | channel receiving _ => channel receiving none
  | lines accepting _ => lines accepting none
  | nowhere => nowhere

end Outlet

end Patchbay
