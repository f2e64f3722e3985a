import ChartStream.Schedule.Backoff

/-!
# Schedule of a job

The counters that decide when a job runs next. Runs fall on whole multiples of the interval since the
epoch, so that jobs of one interval run in the same second; after failures in a row a penalty is
added. The time reported with values is the interval itself and never a measured one.
-/

namespace ChartStream

set_option autoImplicit false

/-- The scheduling state of a job. Interval and penalty fit a word of 64 bits if the interval and the
ceiling of the backoff do that the job starts with. -/
structure Counters where
  /-- Seconds from one run to the next, at least one. -/
  updateEvery : Nat
  backoff : Backoff
  /-- Failures in a row, counted up to `maxRetries`. -/
  retries : Nat := 0
  /-- Seconds that the next run is held back. -/
  penalty : Nat := 0
  /-- One more than the number of cycles so far. It has no bound here, where a word of 64 bits ends
  after more cycles than a job can have. -/
  runs : Nat := 1
  /-- Whether a cycle has succeeded. -/
  collected : Bool := false
  deriving DecidableEq, Repr

namespace Counters

/-- The counters before the first cycle. -/
def start (updateEvery : Nat) (backoff : Backoff) : Counters :=
  { updateEvery := max updateEvery 1, backoff := backoff }

/-- The number of failures in a row at which counting stops. -/
def maxRetries : Nat := UInt32.size - 1

/-- After a failed cycle. -/
def failure (c : Counters) : Counters :=
  let retries := min (c.retries + 1) maxRetries
  { c with retries := retries, penalty := c.backoff.penalty retries }

/-- After a successful cycle. -/
def success (c : Counters) : Counters :=
  { c with retries := 0, penalty := 0, collected := true }

/-- After a cycle. -/
def record (c : Counters) (updated : Bool) : Counters :=
  let counted := { c with runs := c.runs + 1 }
  if updated then counted.success else counted.failure

/-- The time to report with the coming values: none before the first success. -/
def sinceLast (c : Counters) : Nat :=
  if c.collected then c.updateEvery else 0

/-- The interval with the penalty, in seconds that fit a word. -/
def effectiveInterval? (c : Counters) : Option Nat :=
  let seconds := c.updateEvery + c.penalty
  if seconds < UInt64.size then some seconds else none

/-- The interval in nanoseconds. -/
def intervalNanos (c : Counters) : Nat :=
  c.updateEvery * nanosPerSecond

/-- How far a time is into its slot. The count of nanoseconds keeps its low 64 bits. -/
def intoSlot (c : Counters) (now : Duration) : Nat :=
  now.nanos % c.intervalNanos % UInt64.size

/-- The time of the next run: the next multiple of the interval, and the penalty. There is none if it
is beyond the range of durations. -/
def nextRun? (c : Counters) (now : Duration) : Option Duration :=
  Duration.ofNanos?
    (now.nanos - c.intoSlot now + c.intervalNanos + c.penalty * nanosPerSecond)

/-- How long to sleep until the next run. -/
def delay? (c : Counters) (now : Duration) : Option Duration :=
  (c.nextRun? now).map fun next => next.since now

/-! ## Laws -/

theorem one_le_updateEvery_start (updateEvery : Nat) (backoff : Backoff) :
    1 ≤ (start updateEvery backoff).updateEvery :=
  Nat.le_max_right _ _

@[simp] theorem updateEvery_record (c : Counters) (updated : Bool) :
    (c.record updated).updateEvery = c.updateEvery := by
  cases updated <;> rfl

end Counters

end ChartStream
