import ChartStream.Duration.Basic

/-!
# Backoff

How long a job is held back after failures in a row: not at all after the first, then for a time
that doubles with each failure up to a ceiling.
-/

namespace ChartStream

set_option autoImplicit false

/-- A policy for failures in a row. The times are whole seconds. -/
inductive Backoff where
  | disabled
  | doubling (base ceiling : Nat)
  deriving DecidableEq, Repr

namespace Backoff

/-- The policy of a base step, which is at least a second, and a ceiling. -/
def ofDurations (base ceiling : Duration) : Backoff :=
  .doubling (max base.seconds 1) ceiling.seconds

def isEnabled : Backoff → Bool
  | .disabled => false
  | .doubling _ _ => true

/-- The longest penalty. -/
def ceiling : Backoff → Nat
  | .disabled => 0
  | .doubling _ ceiling => ceiling

/-- The number of doublings after which every step of at least a second is above every ceiling. -/
def maxDoublings : Nat := 64

/-- The penalty after a number of failures in a row. -/
def penalty (failures : Nat) : Backoff → Nat
  | .disabled => 0
  | .doubling base ceiling =>
    if failures < 2 then 0 else min ceiling (base * Nat.pow 2 (min (failures - 1) maxDoublings))

/-! ## Laws -/

theorem penalty_le_ceiling (failures : Nat) (b : Backoff) : b.penalty failures ≤ b.ceiling := by
  cases b with
  | disabled => exact Nat.le_refl 0
  | doubling base ceiling =>
    show (if failures < 2 then 0 else _) ≤ ceiling
    split
    · exact Nat.zero_le _
    · exact Nat.min_le_left _ _

end Backoff

end ChartStream
