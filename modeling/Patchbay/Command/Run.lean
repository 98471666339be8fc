import Patchbay.Command.Arguments
import Patchbay.Command.Folder
import Patchbay.Session
import Patchbay.Text.Blank

/-!
# Commands

Each command is a function of the files it reads to an `Outcome`: what it prints and how it ends.

* `compile`: prints the expression of the graph in a snapshot, and samples of it;
* `replay`: applies the messages of a file, one a line, and prints what they leave in the replica;
* `demo`: prints the messages of a small graph that is built and then changed;
* `run`: the outcome of a command line.
-/

namespace Patchbay.Command

/-- What a command printed, and how it ended. -/
structure Outcome where
  code : Nat
  output : String
  errors : String
deriving DecidableEq

/-- What went wrong, and why: each text is the cause of the one before it. -/
structure Failure where
  what : String
  causes : List String

/-- The causes of a failure that a fault is. What a fault passes on is a cause of its own. -/
def faultCauses (fault : Fault) : List String :=
  match fault with
  | .file text => [fault.message, text]
  | .rejected why => [fault.message, why.message]
  | _ => [fault.message]

/-- A failure that a fault has caused. -/
def Failure.of (what : String) (fault : Fault) : Failure := ⟨what, faultCauses fault⟩

/-! ## What is printed -/

/-- A text with its lines after the first set off by `indent`. -/
def setOff (indent : String) (text : String) : String :=
  String.intercalate ("\n" ++ indent) (text.splitOn "\n")

/-- A cause among several: its number in five columns, and its text. -/
def numberedCause (number : Nat) (cause : String) : String :=
  let digits := Nat.repr number
  String.ofList (List.replicate (5 - digits.length) ' ') ++ digits ++ ": " ++ setOff "       " cause

/-- The causes of a failure as lines. -/
def causeLines : List String → List String
  | [] => []
  | [cause] => ["", "Caused by:", "    " ++ setOff "    " cause]
  | causes => "" :: "Caused by:" :: causes.zipIdx.map fun (cause, i) => numberedCause i cause

/-- Texts as lines, each with its line end. -/
def asLines (lines : List String) : String := String.join (lines.map (· ++ "\n"))

/-- The failure as it is reported. -/
def Failure.report (f : Failure) : String := asLines (("Error: " ++ f.what) :: causeLines f.causes)

/-- The outcome of a command that printed the given lines and then failed or not. -/
def outcome (printed : List String) : Except Failure Unit → Outcome
  | .ok () => ⟨0, asLines printed, ""⟩
  | .error failure => ⟨1, asLines printed, failure.report⟩

/-! ## The commands -/

/-- The text of a file. -/
def readFile (files : Files) (path : String) : Except Failure String :=
  (files path).mapError fun why => ⟨"Failed to read " ++ path, [why.message]⟩

/-- The graph in a snapshot: the receiver that holds it, and its root. -/
def rebuild (path : String) (text : String) : Except Failure (Receiver × NodeRef) := do
  let snapshot ← (Snapshot.read text).mapError fun why =>
    ⟨"Invalid snapshot in " ++ path, [why.message]⟩
  match (Receiver.build snapshot).exec .start with
  | (.error fault, _) => throw (.of "Failed to rebuild graph" fault)
  | (.ok value, receiver) =>
    match value.node? with
    | some root => return (receiver, root)
    | none => throw ⟨path ++ " does not describe a node", []⟩

/-- Samples of a node, if any are asked for, as lines. -/
def sampleLines (root : NodeId) (ticks : Nat) (store : Store) : Except Failure (List String) :=
  match ((Store.render Store.defaultDepth root ticks).exec store).1 with
  | .ok samples => return samples.map Double.toPlain
  | .error fault => throw (.of "Failed to evaluate graph" fault)

/-- What compiling a file prints, and how it ends: the expression of the graph, and samples of it.
The expression is printed even if a sample fails. -/
def compiled (files : Files) (path : String) (ticks : Nat) : List String × Except Failure Unit :=
  match readFile files path >>= rebuild path with
  | .error failure => ([], .error failure)
  | .ok (receiver, root) =>
    match (Store.compile Store.defaultDepth root.id).exec receiver.store with
    | (.error fault, _) => ([], .error (.of "Failed to compile graph" fault))
    | (.ok expression, store) =>
      match sampleLines root.id ticks store with
      | .ok samples => (expression :: samples, .ok ())
      | .error failure => ([expression], .error failure)

/-- Prints the expression of the graph in a file, and samples of it. -/
def compile (files : Files) (path : String) (ticks : Nat) : Outcome :=
  let (printed, result) := compiled files path ticks
  outcome printed result

/-- The lines of a text that are not blank, without blanks around them, with their numbers from 1
on. -/
def numberedLines (text : String) : List (Nat × String) :=
  ((Text.lines text.toList).zipIdx 1).filterMap fun (line, number) =>
    let trimmed := Text.trim line
    if trimmed.isEmpty then none else some (number, String.ofList trimmed)

/-- Applies the message on a line. -/
def replayLine (number : Nat) (line : String) (r : Receiver) : Except Failure Receiver := do
  let place := "Line " ++ Nat.repr number
  let message ← (Message.read line).mapError fun why =>
    .of (place ++ ": invalid message") (.rejected why)
  match (Receiver.apply message).exec r with
  | (.ok _, r) => return r
  | (.error fault, _) => throw (.of (place ++ ": failed to apply message") fault)

/-- Applies the messages on lines up to the first that fails. -/
def replayLines : List (Nat × String) → Receiver → Except Failure Receiver
  | [], r => return r
  | (number, line) :: rest, r => do replayLines rest (← replayLine number line r)

/-- What is printed for a node of the replica: its number there, its name, and its expression or
what is wrong with it. -/
def row (id : NodeId) (ref : NodeRef) (store : Store) : String × Store :=
  let name := ((store.get? ref.id).map Node.name).getD ""
  let (compiled, store) := (Store.compile Store.defaultDepth ref.id).exec store
  let expression := match compiled with
    | .ok text => text
    | .error fault => "<" ++ fault.message ++ ">"
  (Nat.repr id ++ "\t" ++ name ++ "\t" ++ expression, store)

/-- The rows of a table, the nodes written one after another. -/
def rows : List (NodeId × NodeRef) → Store → List String
  | [], _ => []
  | (id, ref) :: rest, store =>
    let (line, store) := row id ref store
    line :: rows rest store

/-- Applies the messages in a file and prints the replica. Nothing is printed if one fails. -/
def replay (files : Files) (path : String) : Outcome :=
  match readFile files path >>= fun text => replayLines (numberedLines text) .start with
  | .error failure => outcome [] (.error failure)
  | .ok r => outcome (rows r.replica.table r.store) (.ok ())

/-- Makes a node and announces it through the first relay. -/
def announced (made : Except Fault Node) (path : NamePath) : Task Session Value := do
  let ref ← Session.onStore (Store.build made)
  let _ ← Session.wrap 0 path false ref.id
  return .node ref

/-- Calls a method of a node that a value is. -/
def callOn (target : Value) (method : String) (args : List Value) : Task Session Unit :=
  match target.node? with
  | some ref => do let _ ← Session.invoke ref.id method args
  | none => return

/-- A gain that a stepped oscillator varies, changed after it has been announced. -/
def tremolo : Task Session Unit := do
  let oscillator ← announced (Node.sequence [.scalar 0.0, .scalar 1.0] (.scalar 4.0))
    (.single "sequence")
  let depth ← announced (pure (Node.map oscillator ⟨0.5, 1.0, 0.0, 1.0, .linear, false⟩))
    (.ofSegments ["ugens", "map"])
  let output ← announced (Node.chain .mul [.scalar 0.8, depth]) (.single "mul")
  callOn output "set" [.scalar 0.0, .scalar 0.6]
  callOn depth "set" [.text "outputMin", .scalar 0.25]
  callOn oscillator "stop" []
  callOn depth "set" [.text "input", oscillator]
  match output.node? with
  | some ref => do let _ ← Session.onStore (Store.compile Store.defaultDepth ref.id)
  | none => return

/-- The configuration in a file, or one under which everything is announced. -/
def demoConfig (files : Files) : Option String → Except Failure Config
  | none => return .worklet
  | some path =>
    ((files path).mapError (Fault.file ·.message) >>= Config.read).mapError
      (.of ("Failed to load config " ++ path))

/-- Builds the tremolo and prints what its relay sends, as far as it gets. -/
def demo (files : Files) (configPath : Option String) : Outcome :=
  match demoConfig files configPath with
  | .error failure => outcome [] (.error failure)
  | .ok config =>
    let relay := Relay.start config (.lines true (some "")) []
    let (outcome, s) := tremolo.exec (Session.start.addRelay relay).2
    let output := ((s.relays[0]?).bind (·.outlet.written?)).getD ""
    match outcome with
    | .ok () => ⟨0, output, ""⟩
    | .error fault => ⟨1, output, (Failure.mk fault.message ((faultCauses fault).drop 1)).report⟩

/-- The version of the program. -/
def version : String := "0.1.0"

/-- How the program is used. -/
def usage : String :=
  asLines ["Usage: ugen-mirror [OPTIONS] [COMMAND]", "", "Commands:",
    "  compile  Rebuild a graph from a node snapshot and print its expression",
    "  replay   Apply newline-delimited mirror messages to a remote graph",
    "  demo     Mirror a small tremolo graph and print each message as a JSON line"]

/-- The outcome of a request. -/
def answer (files : Files) : Request → Outcome
  | .nothing =>
    ⟨0, asLines ["ugen-mirror v" ++ version, "Use --help for available commands"], ""⟩
  | .version => ⟨0, asLines ["ugen-mirror " ++ version], ""⟩
  | .help => ⟨0, usage, ""⟩
  | .compile path ticks => compile files path ticks
  | .replay path => replay files path
  | .demo config => demo files config
  | .mistake => ⟨2, "", usage⟩

/-- The outcome of a command line. -/
def run (files : Files) (args : List String) : Outcome := answer files (.parse args)

end Patchbay.Command
