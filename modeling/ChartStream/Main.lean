import ChartStream.CommandLine

/-!
# The program

Reads the files and variables that a run needs, and ends as the command line says. There are no
connections here, so no job can be started: a configuration with jobs disables the plugin.
-/

namespace ChartStream.Program

set_option autoImplicit false

/-- The text of a file, or why it cannot be read. -/
def readText (path : String) : IO (Except String String) := do
  try
    match String.fromUTF8? (← IO.FS.readBinFile path) with
    | some text => return .ok text
    | none => return .error "stream did not contain valid UTF-8"
  catch e => return .error (toString e)

/-- What is in a directory. A name that leads nowhere is not that of a regular file. -/
def listDirectory (path : String) : IO (Option Files.Listing) := do
  let directory ← try IO.FS.realPath path catch _ => return none
  if !(← directory.isDir) then return none
  try
    let listed ← (← directory.readDir).toList.mapM fun entry => do
      let regular ← try pure ((← entry.path.metadata).type matches .file) catch _ => pure false
      return (entry.fileName, regular)
    return some (.ok listed)
  catch e => return some (.error (toString e))

/-- What was read of the surroundings. -/
structure Seen where
  texts : List (String × Except String String) := []
  directories : List (String × Option Files.Listing) := []
  vars : List (String × Option String) := []

namespace Seen

def files (s : Seen) : Files where
  read path := (s.texts.lookup path).getD (.error "not read")
  list? path := (s.directories.lookup path).join

def env (s : Seen) : Environment :=
  fun name => (s.vars.lookup name).join

/-- Looks at a variable. -/
def seeVariable (s : Seen) (name : String) : IO Seen := do
  return { s with vars := (name, ← IO.getEnv name) :: s.vars }

/-- Looks at a file and at the variables that it refers to. -/
def seeFile (s : Seen) (path : String) : IO Seen := do
  let text ← readText path
  let names := match text with
    | .ok text => EnvReference.namesIn text
    | .error _ => []
  names.foldlM seeVariable { s with texts := (path, text) :: s.texts }

/-- Looks at a directory and at the files of jobs in it. -/
def seeDirectory (s : Seen) (path : String) : IO Seen := do
  let listing ← listDirectory path
  let s := { s with directories := (path, listing) :: s.directories }
  match listing with
  | some (.ok entries) => (Files.jobFiles path entries).foldlM seeFile s
  | _ => return s

end Seen

/-- Looks at all that a run needs. -/
def look (options : CommandLine.Options) : IO Seen := do
  let s ← Seen.seeVariable {} CommandLine.pathVariable
  let path := options.path s.env
  let s ← s.seeFile path
  match PluginConfig.load s.files s.env path with
  | .ok { collectorPath := some directory, .. } => s.seeDirectory directory
  | _ => return s

/-- What is told on the standard error output. -/
def complaint : CommandLine.Outcome → Option String
  | .wrongUsage => some "error: unexpected arguments; try '--help'"
  | .failed e => some ("Error: " ++ e.message)
  | .queueTooLarge => some "the queue of the writer is too large"
  | .disabled => some "No job could be started, disabling plugin"
  | .runs _ => some "No connections can be made, disabling plugin"
  | _ => none

end ChartStream.Program

open ChartStream

/-- The program. -/
def main (args : List String) : IO UInt32 := do
  let seen ← match CommandLine.read? args with
    | some (.run options) => Program.look options
    | _ => Program.Seen.seeVariable {} CommandLine.pathVariable
  let outcome := CommandLine.outcome seen.files seen.env args
  match Program.complaint outcome with
  | some text => IO.eprintln text
  | none => pure ()
  let output := match outcome with
    | .runs _ => CommandLine.disableText
    | outcome => outcome.output seen.env
  IO.print output
  return outcome.exitCode.toUInt32
