import Patchbay.Graph.Key

/-!
# Command line arguments

The commands are `compile`, `replay` and `demo`, each with options of its own; `--verbose` may stand
before and after them. An option stands by itself, in a group of short ones, or with its value
attached or after it, and may occur once. After `--` nothing is an option.

* `scan`: the options and other texts of arguments, up to the first that is no option of the
  command although it looks like one;
* `Request.parse`: what a command line asks for. What is said first counts: a call for the version
  makes up for any mistake after it, but not for one before it.
-/

namespace Patchbay.Command

/-- What a command line asks for. -/
inductive Request where
  /-- nothing in particular -/
  | nothing
  /-- the version of the program -/
  | version
  /-- how the program is used -/
  | help
  /-- the expression in a file, and samples of it -/
  | compile (path : String) (ticks : Nat)
  /-- the effect of the messages in a file -/
  | replay (path : String)
  /-- the messages of a small graph, with the configuration in a file -/
  | demo (config : Option String)
  /-- the command line is not well formed -/
  | mistake
deriving DecidableEq

/-- What an option is called, and whether it takes a value. -/
structure Switch where
  letter : Char
  name : String
  takesValue : Bool

/-- One thing said on a command line. -/
inductive Item where
  /-- an option, with its value if it takes one -/
  | option (letter : Char) (value : String)
  /-- anything that is no option -/
  | plain (text : String)
  /-- something that is not allowed, after which nothing is looked at -/
  | mistake
deriving DecidableEq

/-! ## Single arguments -/

/-- What one argument is. -/
inductive Argument where
  /-- the dashes after which nothing is an option -/
  | dashes
  /-- no option -/
  | plain
  /-- options, of which the last may wait for its value -/
  | options (items : List Item) (waiting : Option Char)

/-- A text without one leading equals sign. -/
def dropEquals : List Char → List Char
  | '=' :: cs => cs
  | cs => cs

/-- The options of a group of letters; one that takes a value has the rest of the group for it. -/
def readGroup (switches : List Switch) : List Char → List Item × Option Char
  | [] => ([], none)
  | c :: cs =>
    match switches.find? (·.letter = c) with
    | none => ([.mistake], none)
    | some switch =>
      if switch.takesValue then
        if cs.isEmpty then ([], some c) else ([.option c (String.ofList (dropEquals cs))], none)
      else
        let (items, waiting) := readGroup switches cs
        (.option c "" :: items, waiting)

/-- The option of a long name, its value after an equals sign if it is attached. -/
def readLong (switches : List Switch) (cs : List Char) : List Item × Option Char :=
  match switches.find? (·.name.toList = cs.takeWhile (· ≠ '=')), cs.dropWhile (· ≠ '=') with
  | none, _ => ([.mistake], none)
  | some switch, [] =>
    if switch.takesValue then ([], some switch.letter) else ([.option switch.letter ""], none)
  | some switch, _ :: value =>
    if switch.takesValue then ([.option switch.letter (String.ofList value)], none)
    else ([.mistake], none)

/-- What an argument is. A dash by itself is no option. -/
def readArgument (switches : List Switch) (arg : String) : Argument :=
  match arg.toList with
  | ['-', '-'] => .dashes
  | '-' :: '-' :: cs =>
    let (items, waiting) := readLong switches cs
    .options items waiting
  | '-' :: c :: cs =>
    let (items, waiting) := readGroup switches (c :: cs)
    .options items waiting
  | _ => .plain

/-! ## All arguments of a command -/

/-- What the arguments say, an option waiting for its value in the first of them if there is one. -/
def scan (switches : List Switch) : Option Char → List String → List Item
  | none, [] => []
  | some _, [] => [.mistake]
  | some letter, arg :: rest =>
    match readArgument switches arg with
    | .plain => .option letter arg :: scan switches none rest
    | _ => [.mistake]
  | none, arg :: rest =>
    match readArgument switches arg with
    | .dashes => rest.map .plain
    | .plain => .plain arg :: scan switches none rest
    | .options items waiting => items ++ scan switches waiting rest

/-- What is said before the command, and the command with its own arguments. -/
def splitCommand (switches : List Switch) :
    List String → List Item × Option (String × List String)
  | [] => ([], none)
  | arg :: rest =>
    match readArgument switches arg with
    | .dashes => (rest.map fun _ => .mistake, none)
    | .plain => ([], some (arg, rest))
    | .options items _ =>
      let (more, command) := splitCommand switches rest
      (items ++ more, command)

/-- What has been said so far: options with their values, and other texts. -/
structure Said where
  options : List (Char × String)
  texts : List String

/-- Takes what is said one by one. Every option and text is checked when its turn comes: an option
must be new and its value valid, and there may be no more than `maxTexts` texts, none of them
empty. Stops at a mistake and at a call for the version or for help. -/
def settle (maxTexts : Nat) (isValid : Char → String → Bool) :
    Said → List Item → Except Request Said
  | said, [] => return said
  | said, item :: rest =>
    match item with
    | .mistake => throw .mistake
    | .option 'V' _ => throw .version
    | .option 'h' _ => throw .help
    | .option letter value =>
      if (said.options.lookup letter).isSome || !isValid letter value then throw .mistake
      else settle maxTexts isValid { said with options := (letter, value) :: said.options } rest
    | .plain text =>
      if text.isEmpty || maxTexts ≤ said.texts.length then throw .mistake
      else settle maxTexts isValid { said with texts := said.texts ++ [text] } rest

/-! ## Requests -/

/-- Asks for more output. -/
def verbose : Switch := ⟨'v', "verbose", false⟩

/-- Asks how the program is used. -/
def help : Switch := ⟨'h', "help", false⟩

/-- The options before the command. -/
def mainSwitches : List Switch := [verbose, help, ⟨'V', "version", false⟩]

/-- The number of samples. -/
def ticks : Switch := ⟨'t', "ticks", true⟩

/-- The file with the configuration. -/
def config : Switch := ⟨'c', "config", true⟩

/-- A number of samples from its text: as for a position, below `2 ^ 64`. -/
def ticks? (text : String) : Option Nat :=
  (Key.position? (Key.dropPlus text.toList)).map UInt64.toNat

/-- Whether a value is one that its option takes. -/
def isValidValue (letter : Char) (value : String) : Bool :=
  if letter = ticks.letter then (ticks? value).isSome
  else if letter = config.letter then !value.isEmpty
  else true

/-- What the arguments of a command say. -/
def settleCommand (switches : List Switch) (maxTexts : Nat) (args : List String) :
    Except Request Said :=
  settle maxTexts isValidValue ⟨[], []⟩ (scan (verbose :: help :: switches) none args)

/-- What a command with its arguments asks for. -/
def ofCommand (name : String) (args : List String) : Except Request Request :=
  match name with
  | "compile" => do
    let said ← settleCommand [ticks] 1 args
    match said.texts with
    | [path] => return .compile path (((said.options.lookup ticks.letter).bind ticks?).getD 0)
    | _ => throw .mistake
  | "replay" => do
    match (← settleCommand [] 1 args).texts with
    | [path] => return .replay path
    | _ => throw .mistake
  | "demo" => do
    return .demo ((← settleCommand [config] 0 args).options.lookup config.letter)
  | "help" =>
    match args with
    | [] => return .help
    | [about] =>
      if about ∈ ["compile", "replay", "demo", "help"] then return .help else throw .mistake
    | _ => throw .mistake
  | _ => throw .mistake

/-- What the whole command line asks for. -/
def ofLine (args : List String) : Except Request Request := do
  let (items, command) := splitCommand mainSwitches args
  let _ ← settle 0 isValidValue ⟨[], []⟩ items
  match command with
  | none => return .nothing
  | some (name, args) => ofCommand name args

/-- What a command line asks for. -/
def Request.parse (args : List String) : Request :=
  match ofLine args with
  | .ok request => request
  | .error request => request

end Patchbay.Command
