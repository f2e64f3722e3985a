import ChartStream.Config.Error
import ChartStream.Schedule.Backoff

/-!
# Settings of a job

When a job runs, how it backs off and when it gives up charts.
-/

namespace ChartStream

set_option autoImplicit false

/-- The settings that every job has. -/
structure JobConfig where
  /-- The name within the module, empty for the module's only job. -/
  name : String := ""
  /-- Seconds from one run to the next. -/
  updateEvery : UInt64 := 1
  /-- Whether failures in a row hold the job back. -/
  penalty : Bool := true
  /-- The ceiling of the penalty. -/
  maxPenalty : Duration := Duration.ofSeconds 600
  /-- Cycles without values after which a chart is given up; zero never gives one up. -/
  chartCleanup : UInt64 := 10
  /-- The priority of the first chart. -/
  priority : UInt32 := 60000
  /-- How long a collection may take. -/
  timeout : Duration := Duration.ofSeconds 5
  deriving DecidableEq, Inhabited

namespace JobConfig

/-- Raises the interval to at least `floor` seconds. -/
def applyFloor (c : JobConfig) (floor : UInt64) : JobConfig :=
  { c with updateEvery := max c.updateEvery floor }

/-- The backoff of the settings: its base is the interval. -/
def backoff (c : JobConfig) : Backoff :=
  if c.penalty then .ofDurations (Duration.ofSeconds c.updateEvery) c.maxPenalty else .disabled

/-- Refuses settings out of range. -/
def validate (c : JobConfig) : Except Config.Fault Unit :=
  if c.updateEvery = 0 then .error (.zeroInterval c.name)
  else if c.timeout.nanos = 0 then .error (.zeroTimeout c.name)
  else .ok ()

end JobConfig

end ChartStream
