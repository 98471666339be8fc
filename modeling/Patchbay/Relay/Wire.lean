import Patchbay.Graph.Fault
import Patchbay.Json.Printer
import Patchbay.Json.Reader
import Patchbay.Relay.Message

/-!
# Messages as JSON

Written with their members in a fixed order. Read with the members in any order and other members
ignored, or as an array of the members; a shape is refused if a member of it occurs twice. Of the
shapes of a snapshot the first that fits wins: announcement, full copy, reference.

* `Snapshot.json`, `Message.json`: the written form;
* `Snapshot.ofJson?`, `Message.ofJson?`: the value of a read form;
* `Snapshot.read`, `Message.read`: the same from text. A text whose first value has none of the
  shapes is a mismatch, whatever follows that value. The way to read numbers is a parameter of
  `Message.readBy`.
-/

namespace Patchbay

/-- A node number. -/
def idJson (id : NodeId) : Json := .int id

/-- A path as an array of its segments. -/
def pathJson (path : NamePath) : Json := .array (path.map .string)

/-! ## Writing -/

/-- An announcement, its properties written already. -/
def createJson (path : NamePath) (properties : List (String × Json)) (id : NodeId) : Json :=
  .object [("address", .string "add"), ("name", pathJson path), ("properties", .object properties),
    ("id", idJson id)]

/-- A full copy, its properties written already. -/
def nodeJson (id : NodeId) (name : String) (properties : List (String × Json)) : Json :=
  .object [("id", idJson id), ("name", .string name), ("properties", .object properties)]

/-- A number, or nothing in place of one that is not finite. -/
def scalarJson (x : Float) : Json := if Double.isFinite x then .float x else .null

namespace Snapshot

mutual

/-- A snapshot as JSON. -/
def json : Snapshot → Json
  | created path properties id => createJson path (propertiesJson properties) id
  | node id name properties => nodeJson id name (propertiesJson properties)
  | reference id => .object [("id", idJson id)]
  | scalar x => scalarJson x
  | bool b => .bool b
  | text t => .string t
  | unset => .null

/-- Properties as the members of a JSON object. -/
def propertiesJson : List (String × Snapshot) → List (String × Json)
  | [] => []
  | (key, s) :: rest => (key, json s) :: propertiesJson rest

end

/-- A snapshot as JSON text. -/
def print (s : Snapshot) : String := s.json.print

end Snapshot

namespace Create

/-- An announcement as JSON. -/
def json (c : Create) : Json := (Snapshot.ofCreate c).json

/-- An announcement as JSON text. -/
def print (c : Create) : String := c.json.print

end Create

namespace Message

/-- A message as JSON. -/
def json : Message → Json
  | create c => c.json
  | call c =>
    .object [("address", .string "method"), ("object", idJson c.object), ("name", .string c.method),
      ("args", .array (c.args.map Snapshot.json))]

/-- A message as JSON text. -/
def print (m : Message) : String := m.json.print

end Message

/-! ## Reading -/

/-- An announcement from its four parts. -/
def Snapshot.createdOf? (address path : Json) (properties : Option (List (String × Snapshot)))
    (id : Json) : Option Snapshot := do
  guard (address.isTag "add")
  return .created (← path.strings?) (← properties) (← id.word?)

/-- The value beside a key that occurs once. -/
def beside? {α : Type} (members : List (String × Json)) (besides : List α) (key : String) :
    Option α :=
  match (members.zip besides).filter (·.1.1 = key) with
  | [(_, a)] => some a
  | _ => none

namespace Snapshot

/-- The first of the shapes of an object that fits, `besides` holding for each member what it is as
properties. -/
def ofMembers? (members : List (String × Json))
    (besides : List (Option (List (String × Snapshot)))) : Option Snapshot :=
  let properties := (beside? members besides "properties").join
  let asCreated := do
    createdOf? (← Json.field? members "address") (← Json.field? members "name") properties
      (← Json.field? members "id")
  let id := (Json.field? members "id").bind Json.word?
  let asNode := do
    return node (← id) (← (Json.field? members "name").bind Json.string?) (← properties)
  asCreated <|> asNode <|> id.map reference

mutual

/-- The snapshot that a JSON value is. -/
def ofJson? : Json → Option Snapshot
  | .null => some unset
  | .bool b => some (bool b)
  | .int i => some (scalar (Double.ofInt i))
  | .float x => some (scalar x)
  | .string s => some (text s)
  | .array [address, path, properties, id] => createdOf? address path (asProperties? properties) id
  | .array _ => none
  | .object members => ofMembers? members (membersAsProperties members)

/-- The properties that a JSON value is: an object of snapshots. -/
def asProperties? : Json → Option (List (String × Snapshot))
  | .object members => ofEach? members
  | _ => none

/-- The snapshots of all members. -/
def ofEach? : List (String × Json) → Option (List (String × Snapshot))
  | [] => some []
  | (key, j) :: rest =>
    match ofJson? j, ofEach? rest with
    | some s, some ss => some ((key, s) :: ss)
    | _, _ => none

/-- What each member is as properties. -/
def membersAsProperties : List (String × Json) → List (Option (List (String × Snapshot)))
  | [] => []
  | (_, j) :: rest => asProperties? j :: membersAsProperties rest

end

end Snapshot

namespace Create

/-- The announcement that a JSON value is. -/
def ofJson? (j : Json) : Option Create :=
  match Snapshot.ofJson? j with
  | some (.created path properties id) => some ⟨path, properties, id⟩
  | _ => none

end Create

namespace Call

/-- A call from its four parts. -/
def ofParts? (address object method args : Json) : Option Call := do
  guard (address.isTag "method")
  let .array args := args | none
  return ⟨← object.word?, ← method.string?, ← args.mapM Snapshot.ofJson?⟩

/-- The call that a JSON value is. -/
def ofJson? : Json → Option Call
  | .array [address, object, method, args] => ofParts? address object method args
  | .object members => do
    ofParts? (← Json.field? members "address") (← Json.field? members "object")
      (← Json.field? members "name") (← Json.field? members "args")
  | _ => none

end Call

namespace Message

/-- The message that a JSON value is. -/
def ofJson? (j : Json) : Option Message :=
  (Create.ofJson? j).map create <|> (Call.ofJson? j).map call

end Message

/-- Reads the value at the front of a text, which must have the expected type and be followed by
nothing. -/
def readWith {α : Type} (numerals : Numerals) (expected : String) (ofJson? : Json → Option α)
    (text : String) : Except Rejection α :=
  match Json.front? numerals text with
  | none => throw .malformed
  | some (j, rest) =>
    match ofJson? j with
    | none => throw (.mismatch expected)
    | some a => if Json.isDone rest then return a else throw .malformed

/-- The snapshot that a text holds. -/
def Snapshot.read (text : String) : Except Rejection Snapshot :=
  readWith .scaled "Snapshot" Snapshot.ofJson? text

/-- The message that a text holds, with its numbers read in the given way. -/
def Message.readBy (numerals : Numerals) (text : String) : Except Rejection Message :=
  readWith numerals "MirrorMessage" Message.ofJson? text

/-- The message that a text holds. -/
def Message.read (text : String) : Except Rejection Message := readBy .scaled text

end Patchbay
