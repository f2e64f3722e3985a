/-!
# Files that settings are loaded from

What is asked of a file system, and the rules for paths: how a directory and a name are joined, and
which names are those of files of jobs.
-/

namespace ChartStream

set_option autoImplicit false

/-- The names in a directory, each with whether it is a regular file, or why they cannot be told. -/
abbrev Files.Listing := Except String (List (String × Bool))

/-- A file system, as far as settings are loaded from it. -/
structure Files where
  /-- The text of a file, or why it cannot be read. -/
  read : String → Except String String
  /-- What is in a directory. Nothing is told of a path that leads to none. -/
  list? : String → Option Files.Listing

namespace Files

/-- The path of a name in a directory. -/
def join (directory name : String) : String :=
  if directory.toList.getLast? = some '/' then directory ++ name else directory ++ "/" ++ name

/-- The part of a name after its last dot. A dot at the start of a name does not count. -/
def extension? (name : String) : Option String :=
  let (after, before) := name.toList.reverse.span (· != '.')
  match before with
  | '.' :: _ :: _ => some (String.ofList after.reverse)
  | _ => none

/-- Whether a name is that of a file of jobs. -/
def isJobFile (name : String) : Bool :=
  extension? name = some "yaml" || extension? name = some "yml"

/-- The paths of the files of jobs in a directory in ascending order. -/
def jobFiles (directory : String) (entries : List (String × Bool)) : List String :=
  ((entries.filter fun e => e.2 && isJobFile e.1).map fun e => join directory e.1).mergeSort
    fun a b => decide (a ≤ b)

end Files

end ChartStream
