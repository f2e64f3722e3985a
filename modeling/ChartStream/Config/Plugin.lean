import ChartStream.Config.Portcheck

/-!
# Settings of the plugin

The jobs by collector, and the settings of the plugin as a whole.
-/

namespace ChartStream

set_option autoImplicit false

/-- The jobs by collector. -/
structure CollectorsConfig where
  portcheck : List PortcheckConfig := []
  deriving DecidableEq, Inhabited

namespace CollectorsConfig

/-- The jobs of both, those of `other` last. -/
def merge (c other : CollectorsConfig) : CollectorsConfig :=
  ⟨c.portcheck ++ other.portcheck⟩

def jobCount (c : CollectorsConfig) : Nat :=
  c.portcheck.length

/-- Raises the interval of every job to at least `floor` seconds. -/
def applyFloor (c : CollectorsConfig) (floor : UInt64) : CollectorsConfig :=
  ⟨c.portcheck.map fun job => job.applyFloor floor⟩

/-- Refuses the first job that has no name, a name in `seen` or of an earlier job, or settings out
of range. -/
def validateFrom (seen : List String) : List PortcheckConfig → Except Config.Fault Unit
  | [] => .ok ()
  | c :: rest => do
    if c.job.name.isEmpty then .error .emptyName
    else if seen.contains c.job.name then .error (.duplicateName c.job.name)
    else
      c.validate
      validateFrom (c.job.name :: seen) rest

/-- Refuses jobs out of range and jobs that share a name. -/
def validate (c : CollectorsConfig) : Except Config.Fault Unit :=
  validateFrom [] c.portcheck

end CollectorsConfig

/-- The settings of the plugin. -/
structure PluginConfig where
  /-- Whether each job sends a chart of its run time. -/
  internalMonitoring : Bool := true
  /-- How many commands the queue of the writer holds. -/
  channelCapacity : UInt64 := 1024
  collectors : CollectorsConfig := {}
  /-- A directory with further files of jobs. -/
  collectorPath : Option String := none
  deriving DecidableEq, Inhabited

namespace PluginConfig

/-- The variable by which the parent process switches run time charts off. -/
def monitoringVariable : String := "NETDATA_INTERNALS_MONITORING"

/-- Whether run time charts are sent, given the parent's variable. -/
def monitoringEnabled (c : PluginConfig) (override : Option String) : Bool :=
  c.internalMonitoring && override != some "NO"

def applyFloor (c : PluginConfig) (floor : UInt64) : PluginConfig :=
  { c with collectors := c.collectors.applyFloor floor }

/-- Refuses a queue without room, then jobs out of range. -/
def validate (c : PluginConfig) : Except Config.Fault Unit :=
  if c.channelCapacity = 0 then .error .zeroCapacity else c.collectors.validate

end PluginConfig

end ChartStream
