import Patchbay.Command.Run

/-!
# The command line program

Reads the files that are named on the command line, prints the outcome and exits with its code.
-/

namespace Patchbay

/-- Why a file cannot be read. -/
def obstacle : IO.Error → Command.Obstacle
  | .noFileOrDirectory .. => .missing
  | .inappropriateType _ 20 _ => .notFolder
  | .inappropriateType .. => .isFolder
  | .invalidArgument _ 36 _ => .tooLong
  | .permissionDenied .. => .stated "Permission denied (os error 13)"
  | other => .stated (toString other)

/-- The text of a file. -/
def readText (path : String) : IO (Except Command.Obstacle String) := do
  try
    return .ok (← IO.FS.readFile path)
  catch e =>
    return .error (obstacle e)

/-- The path that a request reads, if it reads one. -/
def Command.Request.path? : Command.Request → Option String
  | .compile path _ => some path
  | .replay path => some path
  | .demo config => config
  | _ => none

end Patchbay

/-- Runs the program. -/
def main (args : List String) : IO UInt32 := do
  let request := Patchbay.Command.Request.parse args
  let text ← match request.path? with
    | some path => Patchbay.readText path
    | none => pure (.error .missing)
  let outcome := Patchbay.Command.answer (fun _ => text) request
  IO.print outcome.output
  IO.eprint outcome.errors
  return UInt32.ofNat outcome.code
