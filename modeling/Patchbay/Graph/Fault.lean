import Patchbay.Graph.Arith
import Patchbay.Graph.Value

/-!
# Faults

Everything that can go wrong, by cause. The wording is in `Reason.message` and `Fault.message`
alone, and `Fault.code` is the name that programs go by.
-/

namespace Patchbay

/-- Why an operation on one node or one method failed. -/
inductive Reason where
  /-- the graph nests deeper than allowed -/
  | tooDeep (levels : Nat)
  /-- an operand of an operator is neither a number nor a node -/
  | badOperand (key : Key) (value : Value)
  /-- a property has no value -/
  | unsetProperty (key : Key)
  /-- a property holds a text -/
  | textProperty (key : Key) (text : String)
  /-- a number is infinite or not a number -/
  | notFinite (x : Float)
  /-- a property cannot be evaluated -/
  | notNumeric (key : Key)
  /-- a write needs a key and a value -/
  | argumentCount (count : Nat)
  /-- a value does not name a property -/
  | notKey (value : Value)
  /-- a read needs a key -/
  | noKey
  /-- a named property is required -/
  | missing (name : String)
  /-- a sequence has no step -/
  | noStep
  /-- the nesting limit of a configuration is zero -/
  | zeroDepth
  /-- the receiving end of a channel is gone -/
  | disconnected
  /-- the task at the receiving end is gone -/
  | taskDropped
  /-- the text sink takes nothing more -/
  | sinkClosed
  /-- any other reason, in words -/
  | stated (text : String)
deriving DecidableEq

/-- The reason in words. -/
def Reason.message : Reason → String
  | tooDeep levels => "nesting deeper than " ++ Nat.repr levels ++ " levels"
  | badOperand key value =>
    "operand " ++ key.text ++ " is neither a scalar nor a node: " ++ value.tagged
  | unsetProperty key => "property " ++ key.text ++ " is unset"
  | textProperty key text => "property " ++ key.text ++ " holds text '" ++ text ++ "'"
  | notFinite x => "scalar " ++ Double.toPlain x ++ " is not finite"
  | notNumeric key => "property " ++ key.text ++ " has no numeric value"
  | argumentCount count => "expected (key, value), got " ++ Nat.repr count ++ " argument(s)"
  | notKey value => value.tagged ++ " is not a property key"
  | noKey => "expected a property key"
  | missing name => "missing property '" ++ name ++ "'"
  | noStep => "a sequence needs at least one step"
  | zeroDepth => "max_depth must be at least 1"
  | disconnected => "receiving context disconnected"
  | taskDropped => "receiving task dropped"
  | sinkClosed => "sink closed"
  | stated text => text

/-- Why a text is not accepted as a message, a snapshot or a configuration. -/
inductive Rejection where
  /-- the text is not well formed, or nests too deep, or goes on after its end -/
  | malformed
  /-- a well-formed value has none of the shapes of the expected type -/
  | mismatch (expected : String)
deriving DecidableEq

/-- The rejection in words. -/
def Rejection.message : Rejection → String
  | malformed => "malformed JSON"
  | mismatch expected => "data did not match any variant of untagged enum " ++ expected

/-- What can go wrong. -/
inductive Fault where
  /-- an operator without operands -/
  | emptyOperator (op : Arith)
  /-- a function with the wrong number of arguments -/
  | arity (function : String) (expected actual : Nat)
  /-- a node cannot be written as an expression -/
  | compilation (node : NodeId) (reason : Reason)
  /-- a node feeds into itself -/
  | cyclic (node : NodeId)
  /-- a node cannot be evaluated -/
  | evaluation (node : NodeId) (reason : Reason)
  /-- a sequence cannot be copied in full -/
  | overflow (node : NodeId) (depth : Nat)
  /-- a message was not delivered -/
  | transport (reason : Reason)
  /-- a number that no object is filed under -/
  | unknownReference (id : NodeId)
  /-- a name that no constructor is registered under -/
  | unknownConstructor (name : String)
  /-- a method that the node does not have -/
  | unknownMethod (node : NodeId) (method : String)
  /-- a method or constructor cannot work with what it is given -/
  | invalidArgument (method : String) (reason : Reason)
  /-- a configuration that contradicts itself -/
  | config (reason : Reason)
  /-- a file cannot be read -/
  | file (text : String)
  /-- a text is not accepted -/
  | rejected (why : Rejection)
deriving DecidableEq

namespace Fault

/-- The fault in words. -/
def message : Fault → String
  | emptyOperator op => "Operator '" ++ op.symbol ++ "' needs at least one argument"
  | arity function expected actual =>
    "'" ++ function ++ "' takes " ++ Nat.repr expected ++ " argument(s), got " ++ Nat.repr actual
  | compilation node reason => "Cannot compile node " ++ Nat.repr node ++ ": " ++ reason.message
  | cyclic node => "Node " ++ Nat.repr node ++ " is reachable from itself"
  | evaluation node reason => "Cannot evaluate node " ++ Nat.repr node ++ ": " ++ reason.message
  | overflow node depth =>
    "Snapshot of node " ++ Nat.repr node ++ " overflowed at depth " ++ Nat.repr depth
  | transport reason => "Transport error: " ++ reason.message
  | unknownReference id => "Unknown object reference: " ++ Nat.repr id
  | unknownConstructor name => "Unknown constructor: " ++ name
  | unknownMethod node method => "Node " ++ Nat.repr node ++ " has no method '" ++ method ++ "'"
  | invalidArgument method reason =>
    "Invalid argument for '" ++ method ++ "': " ++ reason.message
  | config reason => "Invalid configuration: " ++ reason.message
  | file text => "I/O error: " ++ text
  | rejected why => "Serialization error: " ++ why.message

/-- The name of the fault for programs. -/
def code : Fault → String
  | emptyOperator .. => "EMPTY_OPERATOR"
  | arity .. => "ARITY"
  | compilation .. => "COMPILATION_ERROR"
  | cyclic .. => "CYCLIC_GRAPH"
  | evaluation .. => "EVALUATION_ERROR"
  | overflow .. => "SERIALIZATION_OVERFLOW"
  | transport .. => "TRANSPORT_ERROR"
  | unknownReference .. => "UNKNOWN_REFERENCE"
  | unknownConstructor .. => "UNKNOWN_CONSTRUCTOR"
  | unknownMethod .. => "UNKNOWN_METHOD"
  | invalidArgument .. => "INVALID_ARGUMENT"
  | config .. => "CONFIG_ERROR"
  | file .. => "IO_ERROR"
  | rejected .. => "SERIALIZATION_ERROR"

/-- Whether the fault lies in the graph that is compiled. -/
def isCompilation : Fault → Bool
  | emptyOperator .. | arity .. | compilation .. | cyclic .. => true
  | _ => false

/-- Whether the graph is as good as before: only a message or a call is lost. -/
def isRecoverable : Fault → Bool
  | transport .. | unknownMethod .. | invalidArgument .. => true
  | _ => false

/-- What to do about the fault. -/
def suggestion : Fault → Option String
  | emptyOperator .. => some "Pass at least one scalar or node to the operator."
  | arity .. => some "Check the argument count of the function."
  | cyclic .. => some "Break the cycle: a node cannot feed into its own inputs."
  | overflow .. => some "Sequence producers must not reference each other in a cycle."
  | transport .. => some "The receiving context is gone; local processing continues unmirrored."
  | unknownReference .. => some "Send the Create message for the object before referencing it."
  | unknownConstructor .. => some "Register the constructor with the receiving context."
  | _ => none

end Fault

end Patchbay
