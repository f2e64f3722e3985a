import ChartStream.Job.Basic

/-!
# Runs of a job

A job cycles until it is to stop or hits an error that it cannot get over. A signal is heeded between
cycles and while the job waits; a block that is being handed over is always completed. There is no run
if the time of a cycle cannot be told. Main definition: `Job.run?`.
-/

namespace ChartStream.Job

set_option autoImplicit false

/-- Why a run ended. -/
inductive Exit where
  | shutdown
  | fatal (reason : String)
  deriving DecidableEq, Repr

/-- The text of an exit. -/
def Exit.text : Exit → String
  | .shutdown => "shutdown"
  | .fatal reason => "fatal: " ++ reason

/-- What a run did: the job after it, the blocks that the writer took, the reason of its end and the
calls that were not made. -/
structure Run where
  job : Job
  blocks : List (List Line)
  exit : Exit
  script : Script

/-- The run that ends now. -/
def stop (job : Job) (exit : Exit) (script : Script) : Run :=
  ⟨{ job with state := .terminated }, [], exit, script⟩

/-- The run with a block before its blocks. Nothing is handed over for an empty block. -/
def Run.after (block : List Line) (run : Run) : Run :=
  if block.isEmpty then run else { run with blocks := block :: run.blocks }

/-- What comes of the wait before a cycle. -/
inductive Wait where
  /-- The time of the cycle comes. -/
  | over
  /-- The job ends before. -/
  | ended
  /-- The cycle has no time. -/
  | endless
  deriving DecidableEq, Repr

/-- The wait before a cycle. A request to stop is noticed before the time of the cycle is reckoned, and
that nobody could make one afterwards. -/
def wait (job : Job) (now : Duration) (signal : Option StopSignal) : Wait :=
  if signal = some .requested then .ended
  else if (job.counters.delay? now).isNone then .endless
  else if signal = some .abandoned then .ended
  else .over

/-- The end of a run after a cycle with an error; otherwise the job goes on. -/
def goOn (cycle : Cycle) (rest : Script) (further : Job → Option Run) : Option Run :=
  let run := match cycle.result with
    | .error e => some (cycle.job.stop (.fatal e.message) rest)
    | .ok _ => further cycle.job
  run.map (Run.after cycle.block)

/-- Runs a job over a script, by a clock that stands still between cycles. A collector with nothing
left to do ends the run. -/
def run? (job : Job) (writerOpen : Bool) (now : Duration) (signal : Option StopSignal) :
    Script → Option Run
  | [] =>
    match job.wait now signal with
    | .endless => none
    | .ended => some (job.stop .shutdown [])
    | .over => some (job.stop (.fatal Script.exhaustion.message) [])
  | call :: rest =>
    match job.wait now signal with
    | .endless => none
    | .ended => some (job.stop .shutdown (call :: rest))
    | .over =>
      let outcome := call.run job.config.timeout true job.catalog
      match outcome.ending with
      | .cancelled => some ((job.afterCall outcome).stop .shutdown rest)
      | _ => goOn (job.finish writerOpen outcome) rest fun job =>
          run? job writerOpen now outcome.signal rest

/-! ## Laws -/

/-- A job that was asked to stop before its first cycle makes no call. -/
theorem run?_requested (writerOpen : Bool) (now : Duration) (job : Job) (script : Script) :
    job.run? writerOpen now (some .requested) script = some (job.stop .shutdown script) := by
  cases script <;> rfl

end ChartStream.Job
