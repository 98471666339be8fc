import Patchbay.Graph.Fault
import Patchbay.Json.Printer
import Patchbay.Json.Reader

/-!
# Configuration of a relay

* `Config.isActive`: whether nodes are announced at all;
* `Config.read`: a configuration from JSON text: an object with any of the three members, or an
  array of the first of them. Other members are skipped, whatever they hold and however deep.
-/

namespace Patchbay

/-- Where the samples are computed. -/
inductive Mode where
  /-- in this program: there is nothing to announce -/
  | here
  /-- in another one, which has a replica of the graph -/
  | worklet
deriving DecidableEq

/-- The name of the mode in a configuration. -/
def Mode.name : Mode → String
  | here => "local"
  | worklet => "worklet"

/-- The name of the mode as a kind of value. -/
def Mode.tagged : Mode → String
  | here => "Local"
  | worklet => "Worklet"

/-- The switches of a relay. -/
structure Config where
  mode : Mode
  prevent : Bool
  /-- how deep full copies of sequences nest -/
  maxDepth : Nat
deriving DecidableEq

namespace Config

/-- How deep full copies of sequences nest unless another limit is set. -/
def defaultDepth : Nat := 64

/-- Nothing is announced. -/
def silent : Config := ⟨.here, false, defaultDepth⟩

/-- Everything is announced. -/
def worklet : Config := ⟨.worklet, false, defaultDepth⟩

/-- Whether nodes are announced. -/
def isActive (c : Config) : Bool := c.mode = .worklet && !c.prevent

/-- The configuration, if it allows for any depth. -/
def validate (c : Config) : Except Fault Config :=
  if c.maxDepth = 0 then throw (.config .zeroDepth) else return c

/-- The configuration as JSON. -/
def json (c : Config) : Json :=
  .object [("mode", .string c.mode.name), ("prevent_mirroring", .bool c.prevent),
    ("max_depth", .int c.maxDepth)]

/-- The configuration as JSON text. -/
def print (c : Config) : String := c.json.print

/-! ## Reading -/

/-- The mode that a JSON value names. -/
def readMode? (j : Json) : Option Mode :=
  if j.isTag Mode.here.name then some .here
  else if j.isTag Mode.worklet.name then some .worklet
  else none

/-- What a reader of values makes of a member that may be left out. -/
def optional? {α : Type} (read? : Json → Option α) (default : α) : Option Json → Option α
  | none => some default
  | some j => read? j

/-- The configuration with the given members, and defaults for those that are left out. -/
def ofParts? (mode prevent maxDepth : Option Json) : Option Config := do
  return ⟨← optional? readMode? silent.mode mode, ← optional? Json.bool? silent.prevent prevent,
    ← optional? Json.word? silent.maxDepth maxDepth⟩

/-- The member under a key, which must not occur twice. -/
def member? (members : List (String × Json)) (key : String) : Option (Option Json) :=
  match members.filter (·.1 = key) with
  | [] => some none
  | [(_, j)] => some (some j)
  | _ => none

/-- The configuration with the members of an object. -/
def ofMembers? (members : List (String × Json)) : Option Config := do
  ofParts? (← member? members "mode") (← member? members "prevent_mirroring")
    (← member? members "max_depth")

/-- The configuration with the items of an array, the last ones left out. -/
def ofItems? : List Json → Option Config
  | [] => ofParts? none none none
  | [mode] => ofParts? mode none none
  | [mode, prevent] => ofParts? mode prevent none
  | [mode, prevent, maxDepth] => ofParts? mode prevent maxDepth
  | _ => none

/-- A configuration in front of a text. What a value holds is not looked at before its place is
known, so values are read leniently and to any depth; keys are not. -/
def reader (levels : Nat) : Json.Reader (Option Config) :=
  Json.afterBlanks <|
    Json.orElse ((Json.objectOf (Json.text false) (Json.value .scaled true levels)).map ofMembers?)
      ((Json.arrayOf (Json.value .scaled true levels)).map ofItems?)

/-- The valid configuration that a text holds. -/
def read (text : String) : Except Fault Config :=
  let cs := text.toList
  match reader cs.length cs with
  | some (some config, rest) =>
    if Json.isDone rest then config.validate else throw (.rejected .malformed)
  | _ => throw (.rejected .malformed)

end Config

end Patchbay
