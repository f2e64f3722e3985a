import ChartStream.Config.Decode
import ChartStream.Config.Files
import ChartStream.EnvReference
import ChartStream.Yaml.Place

/-!
# Loading the configuration

The settings of the plugin come from one file, and further jobs from the files of a directory that it
names. References to environment variables are replaced in the text of each file before it is read.
Main definitions: `PluginConfig.load`, `PluginConfig.loadWithJobs`.
-/

namespace ChartStream

set_option autoImplicit false

namespace Config

/-- A fault as an error. -/
def checked {α : Type} (value : α) : Except Fault Unit → Except Error α
  | .ok () => .ok value
  | .error fault => .error (.invalid fault)

/-- The text of a file. -/
def readFile (files : Files) (path : String) : Except Error String :=
  match files.read path with
  | .ok text => .ok text
  | .error reason => .error (.io reason)

/-- What the text of a file is read as. `unfit` is the error where it is not of the expected form. -/
def ofText {α : Type} (env : Environment) (unfit : Error) (read : Yaml.Place → Reading α)
    (text : String) : Except Error α :=
  match (Yaml.Tree.read (EnvReference.expand env text)).decode read with
  | .ok value => .ok value
  | .error .unfit => .error unfit
  | .error .overflow => .error .overflow

end Config

namespace CollectorsConfig

/-- The jobs of a file. -/
def loadFile (files : Files) (env : Environment) (path : String) :
    Except Config.Error CollectorsConfig := do
  let text ← Config.readFile files path
  Config.ofText env (.invalid (.unreadableJobs path)) ofDocument text

/-- The jobs of some files one after the other. -/
def loadFiles (files : Files) (env : Environment) :
    List String → Except Config.Error CollectorsConfig
  | [] => .ok {}
  | path :: rest => do
    let jobs ← loadFile files env path
    let others ← loadFiles files env rest
    .ok (jobs.merge others)

/-- The jobs of all files of jobs in a directory. -/
def loadDirectory (files : Files) (env : Environment) (path : String) :
    Except Config.Error CollectorsConfig :=
  match files.list? path with
  | none => .error (.invalid (.notADirectory path))
  | some (.error reason) => .error (.io reason)
  | some (.ok entries) => loadFiles files env (Files.jobFiles path entries)

end CollectorsConfig

namespace PluginConfig

/-- The settings of the main file alone. -/
def load (files : Files) (env : Environment) (path : String) :
    Except Config.Error PluginConfig := do
  let text ← Config.readFile files path
  let c ← Config.ofText env .parse ofDocument text
  Config.checked c c.validate

/-- The settings of the main file, with the jobs of the directory that it names after its own. They
are checked together once more. -/
def loadWithJobs (files : Files) (env : Environment) (path : String) :
    Except Config.Error PluginConfig := do
  let c ← load files env path
  match c.collectorPath with
  | none => .ok c
  | some directory =>
    let others ← CollectorsConfig.loadDirectory files env directory
    let c := { c with collectors := c.collectors.merge others }
    Config.checked c c.validate

end PluginConfig

end ChartStream
