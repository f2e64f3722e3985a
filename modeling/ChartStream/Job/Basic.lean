import ChartStream.Collector.Call
import ChartStream.Config.Job
import ChartStream.Schedule.Counters

/-!
# Jobs

A job binds a collector to its charts and its schedule. A cycle collects under a limit of time,
encodes the samples into one block, hands the block to the writer and counts success or failure. Main
definitions: `Job`, `Job.cycle`.
-/

namespace ChartStream

set_option autoImplicit false

/-- How a job fares. -/
inductive Job.State where
  /-- No cycle so far. -/
  | created
  /-- The last cycle left no penalty. -/
  | running
  /-- Failures in a row hold the job back. -/
  | backingOff
  | terminated
  deriving DecidableEq, Repr

/-- The word for a state. -/
def Job.State.name : Job.State → String
  | .created => "created"
  | .running => "running"
  | .backingOff => "backing_off"
  | .terminated => "terminated"

/-- One collector's job. -/
structure Job where
  /-- The full name, which is the kind of the job's charts. -/
  name : String
  module : String
  plugin : String
  /-- Whether a chart of the job's own run time is sent. -/
  monitored : Bool
  config : JobConfig
  counters : Counters
  catalog : Catalog
  runtimeChart : Option Chart := none
  state : Job.State := .created

namespace Job

/-- The full name of a job: its module, and its name within the module if it has one of its own. -/
def fullName (module job : String) : String :=
  if job.isEmpty || job = module then module else module ++ "_" ++ job

/-- A job before its first cycle. -/
def ofCollector (plugin : String) (monitored : Bool) (module job : String) (config : JobConfig) :
    Job :=
  let name := fullName module job
  let counters := Counters.start config.updateEvery.toNat config.backoff
  { name := name
    module := module
    plugin := plugin
    monitored := monitored
    config := config
    counters := counters
    catalog := {
      jobName := name
      jobLabel := if job.isEmpty then module else job
      plugin := plugin
      module := module
      updateEvery := counters.updateEvery
      nextPriority := config.priority.toNat } }

/-! ## Collecting -/

/-- What a call counts for in a cycle: an error that does not end the job, and a call that took too
long, bring no samples. -/
def samplesOf : Call.Ending → Except CollectorError (Option Samples)
  | .answered (.ok data) => .ok data
  | .answered (.error e) => if e.isFatal then .error e else .ok none
  | .timedOut => .ok none
  | .cancelled => .ok none

/-- The charts after a call. -/
def afterCall (job : Job) (outcome : Call.Outcome) : Job :=
  { job with catalog := outcome.catalog }

/-- The preliminary collection. A job is of use only if it brings samples. -/
def check (job : Job) (call : Call) : Job × Except CollectorError Unit :=
  let outcome := call.run job.config.timeout false job.catalog
  let verdict := match samplesOf outcome.ending with
    | .error e => .error e
    | .ok (some data) =>
      if data.isEmpty then .error (.checkFailed ("job '" ++ job.name ++ "' returned no data"))
      else .ok ()
    | .ok none => .error (.checkFailed ("job '" ++ job.name ++ "' returned no data"))
  (job.afterCall outcome, verdict)

/-! ## Charts -/

/-- The priority of run time charts. -/
def runtimePriority : Nat := 145000

/-- The chart of the job's own run time. -/
def ownChart (job : Job) : Chart :=
  { kind := "netdata"
    id := "runtime_" ++ job.name
    title := "Execution time for " ++ job.name
    units := "ms"
    family := job.plugin
    context := "netdata.plugind_runtime"
    priority := runtimePriority
    updateEvery := job.counters.updateEvery
    plugin := job.plugin
    module := job.module
    jobLabel := job.name
    dimensions := [{ id := "run_time", name := "run time" }] }

/-- Declares the charts of a layout. Charts declared before an error stay. -/
def create (job : Job) (layout : Layout) : Job × Except CollectorError Unit :=
  match job.catalog.create layout with
  | (catalog, some e) => ({ job with catalog := catalog }, .error (.declaration e))
  | (catalog, none) =>
    let job := { job with catalog := catalog }
    (if job.monitored then { job with runtimeChart := some job.ownChart } else job, .ok ())

/-! ## Cycles -/

/-- The samples of the run time chart. -/
def runtimeSamples (millis : Nat) : Samples :=
  ⟨[("run_time", .integer (min millis 0x7fffffffffffffff))]⟩

/-- What encoding did: the job with its charts after it, the lines and whether a chart was updated. -/
structure Encoded where
  job : Job
  lines : List Line
  updated : Bool

/-- Encodes samples. The run time chart follows if another chart was updated. -/
def encode (job : Job) (data : Samples) (elapsed : Nat) : Encoded :=
  let sinceLast := job.counters.sinceLast
  let cycle := job.catalog.update data sinceLast job.config.chartCleanup.toNat
  let job := { job with catalog := cycle.catalog }
  let updated : Bool := cycle.updated > 0
  match updated, job.runtimeChart with
  | true, some chart =>
    let own := chart.update (runtimeSamples elapsed) sinceLast
    ⟨{ job with runtimeChart := some own.chart }, cycle.lines ++ own.lines, updated⟩
  | _, _ => ⟨job, cycle.lines, updated⟩

/-- Counts a cycle. -/
def record (job : Job) (updated : Bool) : Job :=
  let counters := job.counters.record updated
  { job with
    counters := counters
    state := if counters.penalty > 0 then .backingOff else .running }

/-- What a cycle did: the job after it, the block that the writer took and the outcome. -/
structure Cycle where
  job : Job
  block : List Line
  result : Except CollectorError Bool

/-- Encodes samples, hands the block to a writer, which is open or not, and counts the cycle. There
is nothing to hand over if the block is empty. -/
def emit (job : Job) (writerOpen : Bool) (data : Option Samples) (elapsed : Nat) : Cycle :=
  let encoded := job.encode (data.getD Samples.empty) elapsed
  if !encoded.lines.isEmpty && !writerOpen then
    ⟨encoded.job, [], .error (.output .closed)⟩
  else ⟨encoded.job.record encoded.updated, encoded.lines, .ok encoded.updated⟩

/-- One cycle after a call. -/
def finish (job : Job) (writerOpen : Bool) (outcome : Call.Outcome) : Cycle :=
  let job := job.afterCall outcome
  match samplesOf outcome.ending with
  | .error e => ⟨job, [], .error e⟩
  | .ok data => job.emit writerOpen data outcome.elapsed

/-- One cycle: collects and emits. -/
def cycle (job : Job) (writerOpen : Bool) (call : Call) : Cycle :=
  job.finish writerOpen (call.run job.config.timeout false job.catalog)

end Job

end ChartStream
