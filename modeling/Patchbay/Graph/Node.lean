import Patchbay.Graph.Bag
import Patchbay.Graph.Fault
import Patchbay.Graph.Range

/-!
# Nodes

A node combines the values of its properties into one number per sample. It is an operator over a
chain of operands, a function, a map from one range to another, or a sequence of steps; the last
two keep a state from one sample to the next.

* `Node.chain`, `Node.function`, `Node.map`, `Node.sequence`: the constructors;
* `Node.mapOf`, `Node.sequenceOf`: the same from a bag of properties;
* `Node.process`: one sample from the values of the properties.
-/

namespace Patchbay

/-- A function of a fixed number of arguments. -/
inductive Function where
  | abs | sqrt | pow | merge
deriving DecidableEq

namespace Function

/-- The name of the function, also in expressions. -/
def name : Function → String
  | abs => "abs"
  | sqrt => "sqrt"
  | pow => "pow"
  | merge => "merge"

/-- The number of arguments. -/
def arity : Function → Nat
  | abs | sqrt => 1
  | pow | merge => 2

/-- The value of the function at its leading inputs, and 0 if there are too few. -/
def apply : Function → List Float → Float
  | abs, x :: _ => Float.abs x
  | sqrt, x :: _ => Float.sqrt x
  | pow, x :: y :: _ => Float.pow x y
  | merge, x :: y :: _ => x + y
  | _, _ => 0.0

end Function

/-- Where a sequence stands. -/
structure Playback where
  /-- the samples since the last step -/
  phase : Float
  /-- the current step -/
  position : Nat
  /-- whether samples advance the sequence -/
  running : Bool
  /-- the last output -/
  value : Float
deriving DecidableEq

/-- A sequence that has not played yet. -/
def Playback.start : Playback := ⟨0.0, 0, true, 0.0⟩

/-- What a node does, with the state that it keeps between samples. -/
inductive Body where
  | chain (op : Arith)
  | function (f : Function)
  /-- with its last output -/
  | map (value : Float)
  | sequence (playback : Playback)
deriving DecidableEq

/-- How a node is written in an expression. -/
inductive Form where
  /-- operands with the operator between them -/
  | chain (op : Arith)
  /-- a name and arguments -/
  | call (name : String)
deriving DecidableEq

/-- A node of the graph. -/
structure Node where
  body : Body
  properties : Bag
  /-- the expression last written for the node, since its properties last changed -/
  expression : Option String
deriving DecidableEq

namespace Node

/-- A node that no expression has been written for. -/
def fresh (body : Body) (properties : Bag) : Node := ⟨body, properties, none⟩

/-- The name under which the node is constructed. -/
def name (n : Node) : String :=
  match n.body with
  | .chain op => op.name
  | .function f => f.name
  | .map _ => "map"
  | .sequence _ => "sequence"

/-- How the node is written in an expression. -/
def form (n : Node) : Form :=
  match n.body with
  | .chain op => .chain op
  | .function f => .call f.name
  | .map _ => .call "map"
  | .sequence _ => .call "sequence"

/-- Whether the node produces a sequence of values of its own. -/
def isSequence (n : Node) : Bool :=
  match n.body with
  | .sequence _ => true
  | _ => false

/-! ## Constructors -/

/-- An operator over its operands, of which there must be one. -/
def chain (op : Arith) (operands : List Value) : Except Fault Node :=
  if operands.isEmpty then throw (.emptyOperator op)
  else return fresh (.chain op) (.positional operands)

/-- A function of its arguments, whose number must be right. -/
def function (f : Function) (args : List Value) : Except Fault Node :=
  if args.length = f.arity then return fresh (.function f) (.positional args)
  else throw (.arity f.name f.arity args.length)

/-- A function of as many of the given arguments as it takes. -/
def applying (f : Function) (first second : Value) : Node :=
  fresh (.function f) (.positional ([first, second].take f.arity))

/-- The names of the properties of a map, in order. -/
def mapNames : List String :=
  ["input", "outputMin", "outputMax", "inputMin", "inputMax", "curve", "wrap"]

/-- A map that has put nothing out yet. -/
def freshMap (properties : Bag) : Node := fresh (.map 0.0) properties

/-- A map of an input by a range. -/
def map (input : Value) (range : Range) : Node :=
  freshMap (.ofList ((mapNames.map Key.named).zip
    [input, .scalar range.outputMin, .scalar range.outputMax, .scalar range.inputMin,
      .scalar range.inputMax, .scalar range.curve.number, .bool range.wrap]))

/-- What a map takes for a property that is not given. -/
def mapDefault? (name : String) : Option Value :=
  if name = "curve" then some (.scalar Curve.linear.number)
  else if name = "wrap" then some (.bool false)
  else none

/-- The property of a map under a name: as given unless unset, or else the default. -/
def mapProperty (given : Bag) (name : String) : Except Fault Value :=
  match (given.getNamed? name).filter (!·.isUnset), mapDefault? name with
  | some value, _ => return value
  | none, some value => return value
  | none, none => throw (.invalidArgument "map" (.missing name))

/-- A map with the given properties, in the order of `mapNames`. -/
def mapOf (given : Bag) : Except Fault Node := do
  let values ← mapNames.mapM (mapProperty given)
  return freshMap (.ofList ((mapNames.map Key.named).zip values))

/-- A sequence with the given properties, which must be more than its rate. -/
def freshSequence (properties : Bag) : Except Fault Node :=
  if properties.size < 2 then throw (.invalidArgument "sequence" .noStep)
  else return fresh (.sequence .start) properties

/-- A sequence of steps, each of which lasts for `rate` samples. -/
def sequence (steps : List Value) (rate : Value) : Except Fault Node :=
  freshSequence (.ofList ((.named "rate", rate) ::
    steps.zipIdx.map fun (v, i) => (.index (UInt64.ofNat i), v)))

/-- Whether an entry stands at a position. -/
def isStep (entry : Key × Value) : Bool :=
  match entry.1 with
  | .index _ => true
  | .named _ => false

/-- A sequence of what the bag holds at positions, with its rate, or with rate 1 if it has none. -/
def sequenceOf (given : Bag) : Except Fault Node :=
  freshSequence (.ofList ((.named "rate", (given.getNamed? "rate").getD (.scalar 1.0)) ::
    given.entries.filter isStep))

/-! ## Samples -/

/-- One sample of a chain: the operator from left to right, and 0 without inputs. -/
def processChain (op : Arith) : List Float → Float
  | [] => 0.0
  | x :: rest => rest.foldl op.apply x

/-- One sample of a map, and its last output if there are fewer inputs than properties. -/
def processMap (value : Float) : List Float → Float
  | input :: outMin :: outMax :: inMin :: inMax :: curve :: wrap :: _ =>
    Range.apply ⟨outMin, outMax, inMin, inMax, .ofNumber curve, wrap != 0.0⟩ input
  | _ => value

end Node

/-- Counts one sample; when `rate` samples are full, the next of `steps` steps begins. -/
def Playback.advance (p : Playback) (rate : Float) (steps : Nat) : Playback :=
  let phase := p.phase + 1.0
  if rate ≤ phase then { p with phase := 0.0, position := (p.position + 1) % steps }
  else { p with phase }

/-- One sample of a sequence: the value of its current step, after which a running sequence
advances. Without steps it stays as it is. -/
def Playback.process (p : Playback) : List Float → Playback
  | [] => p
  | rate :: steps =>
    match steps[p.position % steps.length]? with
    | none => p
    | some value =>
      let p := { p with value }
      if p.running then p.advance rate steps.length else p

namespace Node

/-- One sample from the values of the properties: the output, and the node with its new state. -/
def process (n : Node) (inputs : List Float) : Float × Node :=
  match n.body with
  | .chain op => (processChain op inputs, n)
  | .function f => (f.apply inputs, n)
  | .map value =>
    let value := processMap value inputs
    (value, { n with body := .map value })
  | .sequence p =>
    let p := p.process inputs
    (p.value, { n with body := .sequence p })

/-! ## Changes -/

/-- Puts a value under a key, after which the expression written before does not hold. -/
def setProperty (n : Node) (key : Key) (value : Value) : Node :=
  { n with properties := n.properties.set key value, expression := none }

/-- Keeps an expression written for the node. -/
def withExpression (n : Node) (text : String) : Node := { n with expression := some text }

end Node

end Patchbay
