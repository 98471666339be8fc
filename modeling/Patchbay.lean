import Patchbay.Double.Layout
import Patchbay.Double.Reading
import Patchbay.Double.Numerals
import Patchbay.Text.Case
import Patchbay.Text.Blank
import Patchbay.Text.Quoted
import Patchbay.Graph.Sample
import Patchbay.Json.Printer
import Patchbay.Json.Reader
import Patchbay.Relay.Wire
import Patchbay.Relay.Encode
import Patchbay.Relay.Basic
import Patchbay.Replica.Apply
import Patchbay.Session
import Patchbay.Command.Run
import Patchbay.Main
import Patchbay.Proofs.Task
import Patchbay.Proofs.Double.Nearest
import Patchbay.Proofs.Double.ReadBack
import Patchbay.Proofs.Session
import Patchbay.Proofs.Store
import Patchbay.Proofs.Delivery
import Patchbay.Proofs.Bag
import Patchbay.Proofs.Digits
import Patchbay.Proofs.Key
import Patchbay.Proofs.Kind
import Patchbay.Proofs.Edit
import Patchbay.Proofs.Insertion
import Patchbay.Proofs.Picture
import Patchbay.Proofs.Mirroring
import Patchbay.Proofs.Double.Written
import Patchbay.Proofs.Term
import Patchbay.Proofs.Genuine
import Patchbay.Proofs.Meaning
import Patchbay.Proofs.Json.Scan
import Patchbay.Proofs.Json.Text
import Patchbay.Proofs.Json.Number
import Patchbay.Proofs.Json.Value
import Patchbay.Proofs.Wire
import Patchbay.Proofs.Readback
import Patchbay.Proofs.Turn
import Patchbay.Proofs.Walk
import Patchbay.Proofs.Leftover
import Patchbay.Proofs.Double.Finite
import Patchbay.Proofs.Json.Taken
import Patchbay.Proofs.Reread
import Patchbay.Proofs.Closed
import Patchbay.Proofs.Transparency
import Patchbay.Proofs.Building
import Patchbay.Proofs.Founded
import Patchbay.Proofs.Rendering
import Patchbay.Proofs.Following
import Patchbay.Proofs.Causality
import Patchbay.Proofs.Formed
import Patchbay.Proofs.Copy
import Patchbay.Proofs.Rewrap
import Patchbay.Proofs.FirstWalk
import Patchbay.Proofs.Playable
import Patchbay.Proofs.Snapshots
import Patchbay.Proofs.Refresh
import Patchbay.Proofs.Footprint
import Patchbay.Proofs.Rebuilt
import Patchbay.Proofs.Framing
import Patchbay.Proofs.History
import Patchbay.Proofs.Intact
import Patchbay.Proofs.Identity
import Patchbay.Proofs.Spelling
import Patchbay.Proofs.Recorded
import Patchbay.Proofs.Replay
import Patchbay.Proofs.Course
import Patchbay.Proofs.Stepping
