import ChartStream.Job.Run

/-!
# The registry of jobs

Jobs are checked and created before they are registered, run side by side, and can be listed, removed
and shut down. Jobs have nothing in common but the writer, which stays open here; the registry runs
each one to its end when it is waited for. Main definitions: `Registry`, `Registry.spawn`,
`Registry.waitIdle`.
-/

namespace ChartStream

set_option autoImplicit false

/-- A registered job. -/
structure Registry.Entry where
  id : Nat
  job : Job
  script : Script
  /-- How the job ended, once it has. -/
  exit : Option Job.Exit := none

namespace Registry.Entry

def name (e : Entry) : String :=
  e.job.name

/-- How often the job runs. -/
def schedule (e : Entry) : String :=
  "every " ++ toString e.job.counters.updateEvery ++ "s"

end Registry.Entry

/-- All jobs of the plugin. -/
structure Registry where
  plugin : String
  /-- Whether jobs send a chart of their run time. -/
  monitored : Bool := true
  /-- The id of the next job. All that matters of ids is that they differ, so jobs are numbered. -/
  nextId : Nat := 0
  entries : List Registry.Entry := []
  /-- How many jobs are running, which is always fewer than a word can count. -/
  active : Nat := 0
  /-- The blocks that the writer took. -/
  blocks : List (List Line) := []

namespace Registry

/-- What is known of a collector before its job starts. -/
structure Candidate where
  module : String
  job : String
  layout : Layout := Layout.empty
  config : JobConfig := {}
  script : Script := []

/-- Checks and creates a job. The first call of its script is the check. -/
def prepare (r : Registry) (c : Candidate) : Except CollectorError (Job × Script) :=
  let job := Job.ofCollector r.plugin r.monitored c.module c.job c.config
  let (call, script) := Script.next c.script
  match job.check call with
  | (_, .error e) => .error e
  | (job, .ok ()) =>
    match job.create c.layout with
    | (_, .error e) => .error e
    | (job, .ok ()) => .ok (job, script)

/-- One more job counts as running. -/
def countIn (r : Registry) : Registry :=
  { r with active := r.active + 1 }

/-- Enters a job under the next id. -/
def enroll (r : Registry) (job : Job) (script : Script) : Registry :=
  { r with
    nextId := r.nextId + 1
    entries := r.entries ++ [{ id := r.nextId, job := job, script := script }] }

/-- Registers a job that runs from now on. It counts before it has an entry. -/
def register (r : Registry) (job : Job) (script : Script) : Registry :=
  r.countIn.enroll job script

/-- Checks, creates and starts a job, and gives its id. -/
def spawn (r : Registry) (c : Candidate) : Except CollectorError (Registry × Nat) := do
  let (job, script) ← r.prepare c
  return (r.register job script, r.nextId)

def get? (r : Registry) (id : Nat) : Option Entry :=
  r.entries.find? fun e => e.id = id

/-- The writer takes blocks of a job. -/
def handOver (r : Registry) (blocks : List (List Line)) : Registry :=
  { r with blocks := r.blocks ++ blocks }

/-- Records how a job ended, if it is still registered. -/
def record (r : Registry) (id : Nat) (run : Job.Run) : Registry :=
  { r with
    entries := r.entries.map fun e =>
      if e.id = id then { e with job := run.job, script := run.script, exit := some run.exit } else e }

/-- One job less counts as running. -/
def countOut (r : Registry) : Registry :=
  { r with active := r.active - 1 }

/-- The end of a running job: its exit is recorded before it counts as running no more. -/
def finish (r : Registry) (id : Nat) (run : Job.Run) : Registry :=
  ((r.handOver run.blocks).record id run).countOut

/-- Runs a job to its end, if it has not ended before. A job without a run never ends. -/
def complete (signal : Option StopSignal) (r : Registry) (e : Entry) : Registry :=
  match e.exit with
  | some _ => r
  | none =>
    match e.job.run? true .zero signal e.script with
    | some run => r.finish e.id run
    | none => r

/-- Waits until no job is running. -/
def waitIdle (r : Registry) : Registry :=
  r.entries.foldl (complete none) r

/-- Takes the entry of an id away. -/
def without (r : Registry) (id : Nat) : Registry :=
  { r with entries := r.entries.filter fun e => e.id != id }

/-- The error for an id that no registered job has. -/
def unknownJob (id : String) : CollectorError :=
  .config ("unknown job '" ++ id ++ "'")

/-- Stops a job before its next cycle and removes it. -/
def remove (r : Registry) (id : Nat) : Except CollectorError Registry :=
  match r.get? id with
  | none => .error (unknownJob (toString id))
  | some e => .ok (complete (some .requested) (r.without id) e)

/-- Stops every job before its next cycle. -/
def shutdown (r : Registry) : Registry :=
  r.entries.foldl (complete (some .requested)) r

/-- The registered jobs by name. -/
def list (r : Registry) : List Entry :=
  r.entries.mergeSort fun a b => a.name ≤ b.name

end Registry

end ChartStream
