import ChartStream.Config.Job
import ChartStream.Text.Blank

/-!
# Settings of port check jobs
-/

namespace ChartStream

set_option autoImplicit false

/-- The settings of one port check job. -/
structure PortcheckConfig where
  job : JobConfig
  /-- The name or address of the host. -/
  host : String
  port : UInt16
  /-- How long an attempt to connect may take. -/
  connectTimeout : Duration := Duration.ofSeconds 2
  deriving DecidableEq, Inhabited

namespace PortcheckConfig

/-- What is connected to, as `host:port`. -/
def target (c : PortcheckConfig) : String :=
  c.host ++ ":" ++ toString c.port.toNat

/-- Raises the interval to at least `floor` seconds. -/
def applyFloor (c : PortcheckConfig) (floor : UInt64) : PortcheckConfig :=
  { c with job := c.job.applyFloor floor }

/-- Refuses settings out of range: those of the job first, then the host, then the port. -/
def validate (c : PortcheckConfig) : Except Config.Fault Unit := do
  c.job.validate
  if Text.isAllBlank c.host then .error (.emptyHost c.job.name)
  else if c.port = 0 then .error (.zeroPort c.job.name)
  else .ok ()

end PortcheckConfig

end ChartStream
