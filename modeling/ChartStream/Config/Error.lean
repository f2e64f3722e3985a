/-!
# Errors of the configuration
-/

namespace ChartStream.Config

set_option autoImplicit false

/-- A setting that is out of range, or that does not fit the others. -/
inductive Fault where
  | zeroInterval (job : String)
  | zeroTimeout (job : String)
  | emptyHost (job : String)
  | zeroPort (job : String)
  | emptyName
  | duplicateName (job : String)
  | zeroCapacity
  | notADirectory (path : String)
  /-- A file of jobs is not of the expected form. -/
  | unreadableJobs (path : String)
  deriving DecidableEq, Repr

/-- The text of a fault. -/
def Fault.message : Fault → String
  | .zeroInterval job => "job '" ++ job ++ "': update_every must be at least 1"
  | .zeroTimeout job => "job '" ++ job ++ "': timeout must be positive"
  | .emptyHost job => "portcheck '" ++ job ++ "': host cannot be empty"
  | .zeroPort job => "portcheck '" ++ job ++ "': port must be non-zero"
  | .emptyName => "portcheck job name cannot be empty"
  | .duplicateName job => "duplicate portcheck job name: '" ++ job ++ "'"
  | .zeroCapacity => "channel_capacity must be positive"
  | .notADirectory path => "collector_path '" ++ path ++ "' is not a directory"
  | .unreadableJobs path => "failed to parse '" ++ path ++ "'"

/-- Why a configuration could not be loaded. -/
inductive Error where
  /-- A file cannot be read. -/
  | io (reason : String)
  /-- The main file is not of the expected form. -/
  | parse
  /-- A duration has more seconds than can be counted. -/
  | overflow
  | invalid (fault : Fault)
  deriving DecidableEq, Repr

/-- The text of an error. -/
def Error.message : Error → String
  | .io reason => "failed to read config file: " ++ reason
  | .parse => "failed to parse YAML config"
  | .overflow => "overflow in a duration"
  | .invalid fault => "config validation error: " ++ fault.message

end ChartStream.Config
