/-!
# Folders

A folder of files, as a command sees it that is started in there. A path is followed name by name;
of the folders around this one nothing is known but that they are there.

* `Obstacle.message`: why a file cannot be read, in the words of the operating system;
* `Folder.read`: the text of the file under a path.
-/

namespace Patchbay.Command

/-- Why a file cannot be read. -/
inductive Obstacle where
  /-- nothing stands under the path -/
  | missing
  /-- the path goes on after a file -/
  | notFolder
  /-- a folder stands under the path -/
  | isFolder
  /-- the path, or a name in it, is too long -/
  | tooLong
  /-- any other reason, in words -/
  | stated (text : String)
deriving DecidableEq

/-- The obstacle in words. -/
def Obstacle.message : Obstacle → String
  | missing => "No such file or directory (os error 2)"
  | notFolder => "Not a directory (os error 20)"
  | isFolder => "Is a directory (os error 21)"
  | tooLong => "File name too long (os error 36)"
  | stated text => text

/-- The files of a program: the text under a path, or why it cannot be read. -/
abbrev Files := String → Except Obstacle String

/-- A folder: the texts of its files by the names on the way to them. -/
structure Folder where
  files : List (List String × String)

/-- Where a path leads. -/
inductive Place where
  /-- to a folder in the folder, by the names on the way to it -/
  | inside (way : List String)
  /-- to a folder around the folder -/
  | outside
  /-- to a file -/
  | file (text : String)
deriving DecidableEq

namespace Folder

/-- The most bytes that a name may have. -/
def maxName : Nat := 255

/-- The most bytes that a path may have. -/
def maxPath : Nat := 4095

/-- The folder with the given files, the names on the way to each with slashes between them. -/
def ofFiles (files : List (String × String)) : Folder :=
  ⟨files.map fun (path, text) => (path.splitOn "/", text)⟩

/-- What stands in the folder at the end of a way. A folder is there if a file is in it. -/
def find (f : Folder) (way : List String) : Except Obstacle Place :=
  match f.files.lookup way with
  | some text => return .file text
  | none =>
    if f.files.any fun (names, _) => way.isPrefixOf names then return .inside way
    else throw .missing

/-- The folder around a place. -/
def around : Place → Place
  | .inside [] => .outside
  | .inside way => .inside way.dropLast
  | place => place

/-- What stands under a name in a folder: one point is the folder itself, as is no name at all, and
two points are the folder around it. -/
def follow (f : Folder) (place : Place) (name : String) : Except Obstacle Place :=
  match place with
  | .file _ => throw .notFolder
  | place =>
    if name = "" ∨ name = "." then return place
    else if name = ".." then return around place
    else if maxName < name.utf8ByteSize then throw .tooLong
    else
      match place with
      | .inside way => f.find (way ++ [name])
      | _ => throw .missing

/-- Where a path starts: one with a leading slash starts outside. -/
def origin (path : String) : Place :=
  if path.toList.head? = some '/' then .outside else .inside []

/-- The text of the file under a path. -/
def read (f : Folder) (path : String) : Except Obstacle String := do
  if path.toList.contains '\x00' then throw (.stated "file name contained an unexpected NUL byte")
  if path.isEmpty then throw .missing
  if maxPath < path.utf8ByteSize then throw .tooLong
  match ← (path.splitOn "/").foldlM f.follow (origin path) with
  | .file text => return text
  | _ => throw .isFolder

end Folder

end Patchbay.Command
