import ChartStream.Proofs.Penalty
import Mathlib.Order.Bounds.Defs

/-!
# The next run

When a job runs next: on the grid of its interval, after its penalty. Times are counted in words, so that there is
no next run beyond the range of durations. Main definitions: `Counters.Reachable`, `Counters.Planned`,
`Counters.Completes`. Main results: `Counters.next_run_on_grid`, `JobConfig.schedule_completes_iff`.
-/

namespace ChartStream

set_option autoImplicit false

/-- The policy of a job: none, or that of a base step and a ceiling. -/
def Backoff.Built (policy : Backoff) : Prop :=
  policy = .disabled ∨ ∃ base ceiling, policy = .ofDurations base ceiling

theorem Duration.isSome_ofNanos? (nanos : Nat) : (ofNanos? nanos).isSome = true ↔ nanos < durationLimit := by
  unfold ofNanos?
  split
  · next h => exact iff_of_true rfl h
  · next h => exact iff_of_false Bool.false_ne_true h

namespace Counters

/-- The counters of a job that were told any outcomes. -/
def Reachable (c : Counters) : Prop :=
  ∃ (every : UInt64) (policy : Backoff) (ops : List Operation), policy.Built ∧ c = (start every.toNat policy).run ops

theorem Reachable.one_le_updateEvery {c : Counters} (h : c.Reachable) : 1 ≤ c.updateEvery := by
  obtain ⟨every, policy, ops, -, rfl⟩ := h
  rw [(kept_run _ _ ops).updateEvery]
  exact Nat.le_max_right _ _

/-! ## Slots -/

/-- The nanosecond at which the slot of a time begins, as the place in the slot is counted. -/
def slotStart (c : Counters) (now : Duration) : Nat :=
  now.nanos - c.intoSlot now

/-- The place of a time in its slot fits a word. -/
def Uncut (c : Counters) (now : Duration) : Prop :=
  c.updateEvery ≤ 18446744073 ∨ now.nanos < UInt64.size

variable {c : Counters} {now later : Duration}

theorem nextRun?_eq (c : Counters) (now : Duration) :
    c.nextRun? now = Duration.ofNanos? (c.slotStart now + (c.updateEvery + c.penalty) * nanosPerSecond) := by
  rw [Nat.add_mul, ← Nat.add_assoc]
  rfl

theorem intervalNanos_pos (h : 1 ≤ c.updateEvery) : 0 < c.intervalNanos :=
  Nat.mul_pos h (by decide)

theorem slotStart_of_uncut (hevery : 1 ≤ c.updateEvery) (h : c.Uncut now) :
    c.slotStart now = now.nanos / c.intervalNanos * c.intervalNanos := by
  have hinto : now.nanos % c.intervalNanos < UInt64.size := by
    rcases h with hinterval | hnow
    · have hmod := Nat.mod_lt now.nanos (intervalNanos_pos hevery)
      have hlong : c.intervalNanos ≤ 18446744073 * nanosPerSecond := Nat.mul_le_mul_right _ hinterval
      have hfits : 18446744073 * nanosPerSecond < UInt64.size := by decide
      exact Nat.lt_trans (Nat.lt_of_lt_of_le hmod hlong) hfits
    · exact Nat.lt_of_le_of_lt (Nat.mod_le _ _) hnow
  have hsplit := Nat.div_add_mod' now.nanos c.intervalNanos
  rw [slotStart, intoSlot, Nat.mod_eq_of_lt hinto]
  omega

/-- A slot that is cut does not begin later for an earlier time. -/
theorem slotStart_mono (hevery : 1 ≤ c.updateEvery) (h : now.nanos ≤ later.nanos) :
    c.slotStart now ≤ c.slotStart later := by
  have hpos := intervalNanos_pos hevery
  unfold slotStart intoSlot
  generalize c.intervalNanos = interval at hpos ⊢
  have hnow := Nat.div_add_mod' now.nanos interval
  have hlater := Nat.div_add_mod' later.nanos interval
  have hinto := Nat.mod_lt now.nanos hpos
  have hslots : now.nanos / interval ≤ later.nanos / interval := Nat.div_le_div_right h
  rcases Nat.eq_or_lt_of_le hslots with hsame | hbefore
  · -- What is cut off in one slot are whole words.
    have hplace : now.nanos % interval ≤ later.nanos % interval := by
      rw [hsame] at hnow
      omega
    have hwords := Nat.mul_le_mul_right UInt64.size (Nat.div_le_div_right (c := UInt64.size) hplace)
    have hcutNow := Nat.div_add_mod' (now.nanos % interval) UInt64.size
    have hcutLater := Nat.div_add_mod' (later.nanos % interval) UInt64.size
    rw [hsame] at hnow
    omega
  · have hnext : (now.nanos / interval + 1) * interval ≤ later.nanos / interval * interval :=
      Nat.mul_le_mul_right _ hbefore
    have hcut : later.nanos % interval % UInt64.size ≤ later.nanos % interval := Nat.mod_le _ _
    rw [Nat.add_mul] at hnext
    omega

/-- The next multiple of a number is the least one above. -/
theorem isLeast_next_multiple {interval : Nat} (hpos : 0 < interval) (now : Nat) :
    IsLeast {t | interval ∣ t ∧ now < t} ((now / interval + 1) * interval) := by
  constructor
  · refine ⟨Nat.dvd_mul_left _ _, ?_⟩
    rw [Nat.mul_comm]
    exact Nat.lt_mul_div_succ now hpos
  · rintro t ⟨⟨count, rfl⟩, hafter⟩
    have hcount : now / interval < count := Nat.div_lt_of_lt_mul hafter
    rw [Nat.mul_comm interval]
    exact Nat.mul_le_mul_right _ hcount

/-! ## Runs on the grid -/

/-- The next run can be told: it is in the range of durations. -/
structure Plannable (c : Counters) (now : Duration) : Prop where
  uncut : c.Uncut now
  inRange : now.nanos / c.intervalNanos * c.updateEvery + c.updateEvery + c.penalty < UInt64.size

/-- What the next run and the delay until then are. -/
structure Planned (c : Counters) (now next delay : Duration) : Prop where
  nextRun_eq : c.nextRun? now = some next
  delay_eq : c.delay? now = some delay
  /-- It has no nanoseconds. -/
  whole : next.subsecNanos = 0
  penalty_le : c.penalty * nanosPerSecond ≤ next.nanos
  /-- But for the penalty it is the first time of the grid after now. -/
  least : IsLeast {t | c.updateEvery * nanosPerSecond ∣ t ∧ now.nanos < t} (next.nanos - c.penalty * nanosPerSecond)
  now_add_delay : now.nanos + delay.nanos = next.nanos
  penalty_lt_delay : c.penalty * nanosPerSecond < delay.nanos
  delay_le : delay.nanos ≤ (c.penalty + c.updateEvery) * nanosPerSecond

/-- The first time of the grid after now, and the penalty. -/
def onGrid (c : Counters) (now : Duration) : Nat :=
  (now.nanos / c.intervalNanos + 1) * c.intervalNanos + c.penalty * nanosPerSecond

theorem onGrid_eq_seconds (c : Counters) (now : Duration) :
    c.onGrid now = (now.nanos / c.intervalNanos * c.updateEvery + c.updateEvery + c.penalty) * nanosPerSecond := by
  rw [onGrid, Nat.add_mul _ c.penalty, ← Nat.succ_mul, Nat.mul_assoc]
  rfl

theorem nextRun?_of_uncut (hevery : 1 ≤ c.updateEvery) (h : c.Uncut now) :
    c.nextRun? now = Duration.ofNanos? (c.onGrid now) := by
  rw [nextRun?_eq, slotStart_of_uncut hevery h, onGrid, Nat.add_mul, Nat.succ_mul, Nat.add_assoc]
  rfl

theorem Plannable.onGrid_lt (h : c.Plannable now) : c.onGrid now < durationLimit := by
  rw [onGrid_eq_seconds]
  exact Nat.mul_lt_mul_of_pos_right h.inRange (by decide)

theorem Plannable.nextRun? (hevery : 1 ≤ c.updateEvery) (h : c.Plannable now) :
    c.nextRun? now = some ⟨c.onGrid now, h.onGrid_lt⟩ := by
  rw [nextRun?_of_uncut hevery h.uncut]
  exact Duration.ofNanos?_of_lt h.onGrid_lt

theorem Plannable.planned (hevery : 1 ≤ c.updateEvery) (h : c.Plannable now) :
    ∃ next delay, c.Planned now next delay := by
  have hnext := h.nextRun? hevery
  have hleast := isLeast_next_multiple (intervalNanos_pos hevery) now.nanos
  have hafter : now.nanos < (now.nanos / c.intervalNanos + 1) * c.intervalNanos := hleast.1.2
  have hslot := Nat.div_mul_le_self now.nanos c.intervalNanos
  have hgrid : c.onGrid now = (now.nanos / c.intervalNanos + 1) * c.intervalNanos + c.penalty * nanosPerSecond := rfl
  have hinterval : c.intervalNanos = c.updateEvery * nanosPerSecond := rfl
  let next : Duration := ⟨c.onGrid now, h.onGrid_lt⟩
  have hdelay : (next.since now).nanos = c.onGrid now - now.nanos := rfl
  refine ⟨next, next.since now, hnext, ?_, ?_, ?_, ?_, ?_, ?_, ?_⟩
  · rw [delay?, hnext]
    rfl
  · show c.onGrid now % nanosPerSecond = 0
    rw [onGrid_eq_seconds]
    exact Nat.mul_mod_left _ _
  · show _ ≤ c.onGrid now
    omega
  · show IsLeast _ (c.onGrid now - _)
    rw [hgrid, Nat.add_sub_cancel]
    exact hleast
  · show _ = c.onGrid now
    omega
  · omega
  · rw [Nat.add_mul] at hgrid ⊢
    omega

theorem Plannable.of_le (h : c.Plannable later) (hle : now.nanos ≤ later.nanos) : c.Plannable now := by
  have hslots := Nat.mul_le_mul_right c.updateEvery (Nat.div_le_div_right (c := c.intervalNanos) hle)
  have hinRange := h.inRange
  refine ⟨h.uncut.imp_right (Nat.lt_of_le_of_lt hle), ?_⟩
  omega

/-- Whatever has become of a job, its next run is on the grid of its interval, after its penalty. Later times have no
earlier next runs, and jobs of one interval without penalties run together. -/
theorem next_run_on_grid (c : Counters) (hc : c.Reachable) :
    (∀ now, c.Plannable now → ∃ next delay, c.Planned now next delay) ∧
    (∀ now later, c.Plannable later → now.nanos ≤ later.nanos →
      ∃ first second, c.nextRun? now = some first ∧ c.nextRun? later = some second ∧ first.nanos ≤ second.nanos) ∧
    (∀ other : Counters, other.Reachable → other.updateEvery = c.updateEvery → c.penalty = 0 → other.penalty = 0 →
      ∀ now later, c.Plannable now → other.Plannable later →
        now.nanos / c.intervalNanos = later.nanos / c.intervalNanos →
          ∃ next, c.nextRun? now = some next ∧ other.nextRun? later = some next) := by
  have hevery := hc.one_le_updateEvery
  refine ⟨fun now h => h.planned hevery, fun now later h hle => ?_, fun other hother hsame hnone hnone' => ?_⟩
  · refine ⟨_, _, (h.of_le hle).nextRun? hevery, h.nextRun? hevery, ?_⟩
    exact Nat.add_le_add_right (Nat.mul_le_mul_right _ (Nat.succ_le_succ (Nat.div_le_div_right hle))) _
  · intro now later hnow hlater hslot
    have hgrid : other.onGrid later = c.onGrid now := by
      have hinterval : other.intervalNanos = c.intervalNanos := congrArg (· * nanosPerSecond) hsame
      rw [onGrid, onGrid, hinterval, hslot, hnone, hnone']
    refine ⟨_, hnow.nextRun? hevery, ?_⟩
    rw [hlater.nextRun? hother.one_le_updateEvery]
    simp only [hgrid]

/-- An interval of ten seconds, after two failures and without any. -/
theorem next_run_on_grid_after_failures :
    let held := (start 10 (.ofDurations (.ofSeconds 10) (.ofSeconds 600))).run [.failure, .record false]
    let free := start 10 .disabled
    let now : Duration := ⟨103400000000, by decide⟩
    (∃ next delay, held.Planned now next delay ∧ next = .ofSeconds 130 ∧ delay.nanos = 26600000000) ∧
    (∃ first second, held.nextRun? now = some first ∧ held.nextRun? (.ofSeconds 110) = some second ∧
      first.nanos ≤ second.nanos) ∧
    ∃ next, free.nextRun? (.ofSeconds 100) = some next ∧ free.nextRun? now = some next := by
  intro held free now
  have hheld : held.Reachable := ⟨10, _, _, .inr ⟨_, _, rfl⟩, rfl⟩
  have hfree : free.Reachable := ⟨10, .disabled, [], .inl rfl, rfl⟩
  have hplannable : ∀ c : Counters, c.updateEvery = 10 → c.penalty ≤ 20 → ∀ t : Duration, t.nanos ≤ 110000000000 →
      c.Plannable t := by
    intro c hevery hpenalty t ht
    have hlong : UInt64.size = 18446744073709551616 := rfl
    have hslots := Nat.mul_le_mul_right 10 (Nat.div_le_self t.nanos c.intervalNanos)
    refine ⟨.inl (by omega), ?_⟩
    rw [hevery]
    omega
  obtain ⟨hplanned, hmono, -⟩ := next_run_on_grid held hheld
  obtain ⟨-, -, hsame⟩ := next_run_on_grid free hfree
  have hnow := hplannable held rfl (by decide) now (by decide)
  obtain ⟨next, delay, hnext⟩ := hplanned now hnow
  have heq : next = .ofSeconds 130 := Option.some.inj (hnext.nextRun_eq.symm.trans (by decide))
  refine ⟨⟨next, delay, hnext, heq, ?_⟩, ?_, ?_⟩
  · have hsum := hnext.now_add_delay
    rw [heq] at hsum
    exact Nat.add_left_cancel (hsum.trans (by decide : _ = now.nanos + 26600000000))
  · exact hmono now (.ofSeconds 110) (hplannable held rfl (by decide) _ (by decide)) (by decide)
  · exact hsame free hfree rfl rfl rfl (.ofSeconds 100) now (hplannable free rfl (by decide) _ (by decide))
      (hplannable free rfl (by decide) _ (by decide)) (by decide)

/-! ## Times that can be told -/

/-- The interval with the penalty, the next run and the delay until then are all in the range of words. -/
structure Completes (c : Counters) (now : Duration) : Prop where
  effectiveInterval : c.effectiveInterval?.isSome = true
  nextRun : (c.nextRun? now).isSome = true
  delay : (c.delay? now).isSome = true

theorem isSome_nextRun? (c : Counters) (now : Duration) :
    (c.nextRun? now).isSome = true ↔
      c.slotStart now + (c.updateEvery + c.penalty) * nanosPerSecond < durationLimit := by
  rw [nextRun?_eq]
  exact Duration.isSome_ofNanos? _

theorem isSome_effectiveInterval? (c : Counters) :
    c.effectiveInterval?.isSome = true ↔ c.updateEvery + c.penalty < UInt64.size := by
  unfold effectiveInterval?
  dsimp only
  split
  · next h => exact iff_of_true rfl h
  · next h => exact iff_of_false Bool.false_ne_true h

theorem completes_iff (c : Counters) (now : Duration) :
    c.Completes now ↔ c.slotStart now + (c.updateEvery + c.penalty) * nanosPerSecond < durationLimit := by
  rw [← isSome_nextRun?]
  refine ⟨fun h => h.nextRun, fun h => ⟨?_, h, ?_⟩⟩
  · have hrange := (c.isSome_nextRun? now).mp h
    have hseconds : (c.updateEvery + c.penalty) * nanosPerSecond < UInt64.size * nanosPerSecond :=
      Nat.lt_of_le_of_lt (Nat.le_add_left _ _) hrange
    exact c.isSome_effectiveInterval?.mpr (Nat.lt_of_mul_lt_mul_right hseconds)
  · rw [delay?, Option.isSome_map]
    exact h

/-- After cycles with these outcomes. -/
def afterCycles (c : Counters) (outcomes : List Bool) : Counters :=
  c.run (outcomes.map .record)

/-- The last moment before two to the power of forty seconds. -/
def lastMoment : Duration :=
  ⟨1099511627776 * nanosPerSecond - 1, by decide⟩

theorem nanos_le_lastMoment {now : Duration} (h : now.seconds < 1099511627776) : now.nanos ≤ lastMoment.nanos := by
  have hnanos : now.nanos < 1099511627776 * nanosPerSecond := (Nat.div_lt_iff_lt_mul (by decide)).mp h
  exact Nat.le_sub_one_of_lt hnanos

end Counters

/-- After failures enough the penalty is at its ceiling. -/
theorem Backoff.Built.penalty_of_le {policy : Backoff} (h : policy.Built) {failures : Nat} (hmany : 65 ≤ failures) :
    policy.penalty failures = policy.ceiling := by
  obtain rfl | ⟨base, ceiling, rfl⟩ := h
  · rfl
  · exact Backoff.penalty_of_le (Nat.le_max_right _ _) ceiling.seconds_lt hmany

namespace Counters

variable {policy : Backoff}

theorem kept_afterCycles (every : Nat) (policy : Backoff) (outcomes : List Bool) :
    ((start every policy).afterCycles outcomes).Kept every policy (outcomes.map .record) :=
  kept_run every policy _

theorem penalty_afterCycles_le (every : Nat) (policy : Backoff) (outcomes : List Bool) :
    ((start every policy).afterCycles outcomes).penalty ≤ policy.ceiling := by
  rw [(kept_afterCycles every policy outcomes).penalty]
  exact policy.penalty_le_ceiling _

/-- The longest penalty is reached. -/
theorem exists_longest_penalty (every : Nat) (hpolicy : policy.Built) :
    ∃ outcomes, ((start every policy).afterCycles outcomes).penalty = policy.ceiling := by
  refine ⟨List.replicate 65 false, ?_⟩
  have hkept := kept_afterCycles every policy (List.replicate 65 false)
  have hretries : ((start every policy).afterCycles (List.replicate 65 false)).retries = 65 := by
    rw [hkept.retries]
    decide
  rw [hkept.penalty, hretries]
  exact hpolicy.penalty_of_le (Nat.le_refl 65)

theorem updateEvery_afterCycles (every : Nat) (policy : Backoff) (outcomes : List Bool) :
    ((start every policy).afterCycles outcomes).updateEvery = (start every policy).updateEvery :=
  (kept_afterCycles every policy outcomes).updateEvery

theorem slotStart_afterCycles (every : Nat) (policy : Backoff) (outcomes : List Bool) (now : Duration) :
    ((start every policy).afterCycles outcomes).slotStart now = (start every policy).slotStart now := by
  simp only [slotStart, intoSlot, intervalNanos, updateEvery_afterCycles]

theorem effectiveInterval_always_iff (every : Nat) (hpolicy : policy.Built) :
    (∀ outcomes, ((start every policy).afterCycles outcomes).effectiveInterval?.isSome = true) ↔
      max every 1 + policy.ceiling < UInt64.size := by
  have hiff : ∀ outcomes, ((start every policy).afterCycles outcomes).effectiveInterval?.isSome = true ↔
      max every 1 + ((start every policy).afterCycles outcomes).penalty < UInt64.size := by
    intro outcomes
    rw [isSome_effectiveInterval?, updateEvery_afterCycles]
    rfl
  constructor
  · intro h
    obtain ⟨outcomes, hlongest⟩ := exists_longest_penalty every hpolicy
    rw [← hlongest]
    exact (hiff outcomes).mp (h outcomes)
  · intro h outcomes
    have hpenalty := penalty_afterCycles_le every policy outcomes
    exact (hiff outcomes).mpr (by omega)

/-- The latest time and the longest penalty decide. -/
theorem completes_always_iff (every : Nat) (hpolicy : policy.Built) :
    (∀ outcomes now, now.seconds < 1099511627776 → ((start every policy).afterCycles outcomes).Completes now) ↔
      (start every policy).slotStart lastMoment + (max every 1 + policy.ceiling) * nanosPerSecond < durationLimit := by
  have hiff : ∀ outcomes now, ((start every policy).afterCycles outcomes).Completes now ↔
      (start every policy).slotStart now +
        (max every 1 + ((start every policy).afterCycles outcomes).penalty) * nanosPerSecond < durationLimit := by
    intro outcomes now
    rw [completes_iff, slotStart_afterCycles, updateEvery_afterCycles]
    rfl
  constructor
  · intro h
    obtain ⟨outcomes, hlongest⟩ := exists_longest_penalty every hpolicy
    rw [← hlongest]
    exact (hiff outcomes lastMoment).mp (h outcomes lastMoment (by decide))
  · intro h outcomes now hnow
    have hslot := slotStart_mono (one_le_updateEvery_start every policy) (nanos_le_lastMoment hnow)
    have hpenalty := Nat.mul_le_mul_right nanosPerSecond
      (Nat.add_le_add_left (penalty_afterCycles_le every policy outcomes) (max every 1))
    exact (hiff outcomes now).mpr (by omega)

end Counters

namespace JobConfig

/-- The longest penalty of the settings in seconds. -/
def longestPenalty (config : JobConfig) : Nat :=
  if config.penalty then config.maxPenalty.seconds else 0

theorem built_backoff (config : JobConfig) : config.backoff.Built := by
  unfold backoff
  split
  · exact .inr ⟨_, _, rfl⟩
  · exact .inl rfl

theorem ceiling_backoff (config : JobConfig) : config.backoff.ceiling = config.longestPenalty := by
  unfold backoff longestPenalty
  split <;> rfl

theorem updateEvery_pos_of_valid {config : JobConfig} (h : config.validate = .ok ()) :
    0 < config.updateEvery.toNat := by
  unfold validate at h
  split at h
  · cases h
  · next hzero => exact Nat.pos_of_ne_zero fun hnone => hzero (UInt64.toNat_inj.mp hnone)

/-- A job tells the times of its runs, whatever its cycles come to, exactly if the longest penalty and its interval
after the last slot are in the range of durations. The settings are not checked for that. It is enough that they
leave room for the time itself; and not even the interval with its penalty can be told if the two do not fit a
word. -/
theorem schedule_completes_iff (config : JobConfig) (hvalid : config.validate = .ok ()) (floor : UInt64)
    (plugin module name : String) (monitored : Bool) :
    let start := (Job.ofCollector plugin monitored module name (config.applyFloor floor)).counters
    let longest := max config.updateEvery.toNat floor.toNat + config.longestPenalty
    ((∀ outcomes now, now.seconds < 1099511627776 → (start.afterCycles outcomes).Completes now) ↔
      start.slotStart Counters.lastMoment + longest * nanosPerSecond < durationLimit) ∧
    ((∀ outcomes, (start.afterCycles outcomes).effectiveInterval?.isSome = true) ↔ longest < UInt64.size) ∧
    (longest + 1099511627776 ≤ UInt64.size →
      ∀ outcomes now, now.seconds < 1099511627776 → (start.afterCycles outcomes).Completes now) := by
  intro start longest
  have hpolicy := (config.applyFloor floor).built_backoff
  have hevery : (config.applyFloor floor).updateEvery.toNat = max config.updateEvery.toNat floor.toNat :=
    UInt64.toNat_max _ _
  have hpositive := updateEvery_pos_of_valid hvalid
  have hlongest : max (config.applyFloor floor).updateEvery.toNat 1 + (config.applyFloor floor).backoff.ceiling =
      longest := by
    rw [ceiling_backoff, hevery]
    show _ + config.longestPenalty = _
    omega
  have hcompletes := Counters.completes_always_iff (config.applyFloor floor).updateEvery.toNat hpolicy
  have hinterval := Counters.effectiveInterval_always_iff (config.applyFloor floor).updateEvery.toNat hpolicy
  rw [hlongest] at hcompletes hinterval
  refine ⟨hcompletes, hinterval, fun hroom => hcompletes.mpr ?_⟩
  have hslot : start.slotStart Counters.lastMoment < 1099511627776 * nanosPerSecond :=
    Nat.lt_of_le_of_lt (Nat.sub_le _ _) (by decide : Counters.lastMoment.nanos < _)
  calc
    start.slotStart Counters.lastMoment + longest * nanosPerSecond
    _ < 1099511627776 * nanosPerSecond + longest * nanosPerSecond := Nat.add_lt_add_right hslot _
    _ = (longest + 1099511627776) * nanosPerSecond := (Nat.add_comm _ _).trans (Nat.add_mul _ _ _).symm
    _ ≤ UInt64.size * nanosPerSecond := Nat.mul_le_mul_right _ hroom

/-- An hour that is raised to a day. -/
theorem schedule_completes_iff_daily :
    let hourly : JobConfig := { updateEvery := 3600 }
    let counters := (Job.ofCollector "plugind" true "net" "" (hourly.applyFloor 86400)).counters
    hourly.validate = .ok () ∧ (counters.afterCycles [true, false, false]).Completes (.ofSeconds 20000000000) := by
  intro hourly counters
  have hvalid : hourly.validate = .ok () := rfl
  obtain ⟨-, -, hroom⟩ := schedule_completes_iff hourly hvalid 86400 "plugind" "net" "" true
  exact ⟨hvalid, hroom (by decide) _ _ (by decide)⟩

/-- The settings with the longest interval. -/
def ages : JobConfig :=
  { updateEvery := 18446744073709551615 }

/-- They pass the check. But after two failures not even the interval can be told. Without a penalty there is a first
time on the grid for every time in range, and still no next run: the place in a slot that long does not fit a word. -/
theorem longest_interval_overflows :
    let penalised := (Job.ofCollector "plugind" true "net" "" ages).counters.afterCycles [false, false]
    let free := (Job.ofCollector "plugind" true "net" "" { ages with penalty := false }).counters
    let now := Duration.ofSeconds 20000000000
    ages.validate = .ok () ∧
    penalised.effectiveInterval? = none ∧ penalised.nextRun? .zero = none ∧ penalised.delay? .zero = none ∧
    now.seconds < 1099511627776 ∧ free.onGrid now < durationLimit ∧ free.nextRun? now = none ∧
    free.delay? now = none := by
  decide +kernel

end JobConfig

end ChartStream
