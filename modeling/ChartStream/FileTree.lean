import ChartStream.Config.Files

/-!
# File trees in memory

A file system that is a list of files and directories by their paths. Paths are followed name by name
from the root or from the working directory.
-/

namespace ChartStream

set_option autoImplicit false

/-- What may stand at a path. -/
inductive FileNode where
  | file (bytes : ByteArray)
  | directory

/-- Files and directories by the names on their paths. Directories on the way to one of them need not
be listed. -/
structure FileTree where
  nodes : List (List String × FileNode)
  workingDirectory : List String := []

namespace FileTree

/-- What stands at a path. -/
def node? (t : FileTree) (path : List String) : Option FileNode :=
  match t.nodes.lookup path with
  | some node => some node
  | none =>
    if path.isEmpty || t.nodes.any (fun n => path.isPrefixOf n.1) then some .directory else none

/-- Why nothing can be read at a path. -/
inductive Failure where
  /-- A path holds the character that ends paths. -/
  | zeroInPath
  | missing
  | isDirectory
  | notADirectory
  | nameTooLong
  | notText
  deriving DecidableEq, Repr

/-- The text of a failure. -/
def Failure.message : Failure → String
  | .zeroInPath => "file name contained an unexpected NUL byte"
  | .missing => "No such file or directory (os error 2)"
  | .isDirectory => "Is a directory (os error 21)"
  | .notADirectory => "Not a directory (os error 20)"
  | .nameTooLong => "File name too long (os error 36)"
  | .notText => "stream did not contain valid UTF-8"

/-- How many bytes a name may have. -/
def maxNameLength : Nat := 255

/-- How many bytes a path may have. -/
def maxPathLength : Nat := 4095

/-- Follows names from a path on. Each one but the first needs a directory before it. -/
def walk (t : FileTree) (path : List String) : List String → Except Failure (List String)
  | [] => .ok path
  | name :: rest =>
    match t.node? path with
    | none => .error .missing
    | some (.file _) => .error .notADirectory
    | some .directory =>
      if name = "" || name = "." then walk t path rest
      else if name = ".." then walk t path.dropLast rest
      else if name.utf8ByteSize > maxNameLength then .error .nameTooLong
      else if (t.node? (path ++ [name])).isNone then .error .missing
      else walk t (path ++ [name]) rest

/-- The names on a path. -/
def names (path : String) : List String :=
  path.splitOn "/"

/-- The path from the root that a path leads to. -/
def resolve (t : FileTree) (path : String) : Except Failure (List String) :=
  if path.toList.contains '\x00' then .error .zeroInPath
  else if path.isEmpty then .error .missing
  else if path.utf8ByteSize > maxPathLength then .error .nameTooLong
  else t.walk (if path.toList.head? = some '/' then [] else t.workingDirectory) (names path)

/-- The text of a file. -/
def read (t : FileTree) (path : String) : Except Failure String := do
  let path ← t.resolve path
  match t.node? path with
  | none => .error .missing
  | some .directory => .error .isDirectory
  | some (.file bytes) =>
    match String.fromUTF8? bytes with
    | some text => .ok text
    | none => .error .notText

/-- The names in a directory. -/
def children (t : FileTree) (path : List String) : List String :=
  (t.nodes.filterMap fun n =>
    if path.isPrefixOf n.1 then n.1[path.length]? else none).eraseDups

/-- Whether a path leads to a file. -/
def isFile (t : FileTree) (path : String) : Bool :=
  match (t.resolve path).toOption.bind t.node? with
  | some (.file _) => true
  | _ => false

/-- The names in a directory, each with whether it is a file. -/
def list? (t : FileTree) (path : String) : Option (List (String × Bool)) :=
  match t.resolve path with
  | .error _ => none
  | .ok names =>
    match t.node? names with
    | some .directory =>
      some ((t.children names).map fun name => (name, t.isFile (Files.join path name)))
    | _ => none

/-- The tree as a file system. What is in its directories can always be told. -/
def files (t : FileTree) : Files where
  read path := (t.read path).mapError Failure.message
  list? path := (t.list? path).map .ok

end FileTree

end ChartStream
