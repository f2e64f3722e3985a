/-!
# Durations

A span of time in whole nanoseconds. Its whole seconds fit an unsigned word of 64 bits, and so does
every duration that an operation here gives.
-/

namespace ChartStream

set_option autoImplicit false

/-- The nanoseconds of a second. -/
def nanosPerSecond : Nat := 1000000000

/-- The nanoseconds of a millisecond. -/
def nanosPerMilli : Nat := 1000000

/-- The first number of nanoseconds that is no duration. -/
def durationLimit : Nat := UInt64.size * nanosPerSecond

/-- A span of time. -/
structure Duration where
  nanos : Nat
  nanos_lt : nanos < durationLimit
  deriving DecidableEq

namespace Duration

/-- The duration of a number of nanoseconds, if it is not too long. -/
def ofNanos? (nanos : Nat) : Option Duration :=
  if h : nanos < durationLimit then some ⟨nanos, h⟩ else none

/-- The duration of a number of seconds that fit a word. -/
def ofSeconds (seconds : UInt64) : Duration :=
  ⟨seconds.toNat * nanosPerSecond,
    (Nat.mul_lt_mul_right (by decide)).2 seconds.toNat_lt⟩

def zero : Duration := ofSeconds 0

instance : Inhabited Duration := ⟨zero⟩

/-- The duration of some seconds and some nanoseconds, which may make up further seconds. -/
def ofParts? (seconds nanos : Nat) : Option Duration :=
  ofNanos? (seconds * nanosPerSecond + nanos)

/-- The duration of a number of milliseconds. -/
def ofMillis? (millis : Nat) : Option Duration :=
  ofNanos? (millis * nanosPerMilli)

/-- The whole seconds. -/
def seconds (d : Duration) : Nat :=
  d.nanos / nanosPerSecond

/-- The nanoseconds beyond the whole seconds. -/
def subsecNanos (d : Duration) : Nat :=
  d.nanos % nanosPerSecond

/-- The whole microseconds. -/
def micros (d : Duration) : Nat :=
  d.nanos / 1000

/-- The time from `earlier` to `d`, zero if `earlier` is later. -/
def since (d earlier : Duration) : Duration :=
  ⟨d.nanos - earlier.nanos, Nat.lt_of_le_of_lt (Nat.sub_le _ _) d.nanos_lt⟩

/-! ## Laws -/

theorem ofNanos?_of_lt {nanos : Nat} (h : nanos < durationLimit) : ofNanos? nanos = some ⟨nanos, h⟩ :=
  dif_pos h

theorem seconds_lt (d : Duration) : d.seconds < UInt64.size :=
  Nat.div_lt_of_lt_mul (Nat.mul_comm _ _ ▸ d.nanos_lt)

end Duration

end ChartStream
