import ChartStream.Proofs.JobCycles

/-!
# Penalties

What the counters of a schedule hold after any number of outcomes. The penalty is reckoned in words and with a
count of failures that stops; it is still the one of exact arithmetic. Main definitions: `Counters.Operation`,
`Counters.failuresOf`. Main result: `Counters.penalty_exact`.
-/

namespace ChartStream

set_option autoImplicit false

/-! ## Penalties in words -/

namespace Backoff

/-- The product, or the largest word if the product does not fit. -/
def saturatingMul (a b : UInt64) : UInt64 :=
  .ofNat (min (a.toNat * b.toNat) (UInt64.size - 1))

/-- A power of two, or the largest word if the power does not fit. -/
def doublings (count : UInt32) : UInt64 :=
  if count < 64 then 1 <<< count.toUInt64 else .ofNat (UInt64.size - 1)

/-- The penalty as it is reckoned in words. -/
def penaltyInWords (base ceiling : UInt64) (retries : UInt32) : UInt64 :=
  if retries < 2 then 0 else min (saturatingMul base (doublings (retries - 1))) ceiling

theorem toNat_saturatingMul (a b : UInt64) :
    (saturatingMul a b).toNat = min (a.toNat * b.toNat) (UInt64.size - 1) := by
  have hsize : UInt64.size = 18446744073709551616 := rfl
  rw [saturatingMul, UInt64.toNat_ofNat']
  omega

theorem toNat_doublings (count : UInt32) :
    (doublings count).toNat = if count.toNat < 64 then Nat.pow 2 count.toNat else UInt64.size - 1 := by
  have hlt : count < 64 ↔ count.toNat < 64 := UInt32.lt_iff_toNat_lt
  unfold doublings
  by_cases h : count.toNat < 64
  · have hpower : Nat.pow 2 count.toNat < Nat.pow 2 64 := Nat.pow_lt_pow_right (by decide) h
    rw [if_pos (hlt.mpr h), if_pos h, UInt64.toNat_shiftLeft, UInt32.toNat_toUInt64, Nat.mod_eq_of_lt h]
    exact (congrArg (· % 2 ^ 64) (Nat.one_shiftLeft count.toNat)).trans (Nat.mod_eq_of_lt hpower)
  · rw [if_neg (mt hlt.mp h), if_neg h]
    rfl

variable {base ceiling : Nat}

/-- Sixty-four doublings are above every ceiling. -/
theorem ceiling_le_doubled (hbase : 1 ≤ base) (hceiling : ceiling < UInt64.size) {count : Nat} (hcount : 64 ≤ count) :
    ceiling ≤ base * Nat.pow 2 count := by
  have hpower : Nat.pow 2 64 ≤ Nat.pow 2 count := Nat.pow_le_pow_right (by decide) hcount
  calc
    ceiling ≤ Nat.pow 2 count := Nat.le_of_lt (Nat.lt_of_lt_of_le hceiling hpower)
    _ ≤ base * Nat.pow 2 count := Nat.le_mul_of_pos_left _ hbase

/-- The bound on the number of doublings makes no difference. -/
theorem penalty_doubling (hbase : 1 ≤ base) (hceiling : ceiling < UInt64.size) (failures : Nat) :
    (doubling base ceiling).penalty failures =
      if failures < 2 then 0 else min ceiling (base * Nat.pow 2 (failures - 1)) := by
  have hunfold : (doubling base ceiling).penalty failures =
      if failures < 2 then 0 else min ceiling (base * Nat.pow 2 (min (failures - 1) 64)) := rfl
  rw [hunfold]
  by_cases hcount : failures - 1 ≤ 64
  · rw [Nat.min_eq_left hcount]
  · have hbound : min (failures - 1) 64 = 64 := by omega
    have hmany := ceiling_le_doubled hbase hceiling (show 64 ≤ failures - 1 by omega)
    rw [hbound, Nat.min_eq_left hmany, Nat.min_eq_left (ceiling_le_doubled hbase hceiling (Nat.le_refl 64))]

theorem penalty_of_le (hbase : 1 ≤ base) (hceiling : ceiling < UInt64.size) {failures : Nat} (h : 65 ≤ failures) :
    (doubling base ceiling).penalty failures = ceiling := by
  rw [penalty_doubling hbase hceiling, if_neg (by omega)]
  exact Nat.min_eq_left (ceiling_le_doubled hbase hceiling (by omega))

/-- A product or a power that does not fit a word is above the ceiling, and so is the largest word. -/
theorem toNat_penaltyInWords {base : UInt64} (hbase : 1 ≤ base.toNat) (ceiling : UInt64) (retries : UInt32) :
    (penaltyInWords base ceiling retries).toNat = (doubling base.toNat ceiling.toNat).penalty retries.toNat := by
  have hceiling : ceiling.toNat < UInt64.size := ceiling.toNat_lt
  have hlt : retries < 2 ↔ retries.toNat < 2 := UInt32.lt_iff_toNat_lt
  rw [penalty_doubling hbase hceiling, penaltyInWords]
  by_cases hfew : retries.toNat < 2
  · rw [if_pos (hlt.mpr hfew), if_pos hfew]
    rfl
  · have hcount : (retries - 1).toNat = retries.toNat - 1 :=
      UInt32.toNat_sub_of_le _ _ (UInt32.le_iff_toNat_le.mpr (show 1 ≤ retries.toNat by omega))
    rw [if_neg (mt hlt.mp hfew), if_neg hfew, UInt64.toNat_min, toNat_saturatingMul, toNat_doublings, hcount]
    split
    · omega
    · next hmany =>
      have habove := ceiling_le_doubled hbase hceiling (show 64 ≤ retries.toNat - 1 by omega)
      have hlargest : UInt64.size - 1 ≤ base.toNat * (UInt64.size - 1) := Nat.le_mul_of_pos_left _ hbase
      rw [Nat.min_eq_right hlargest, Nat.min_eq_right (Nat.le_sub_one_of_lt hceiling), Nat.min_eq_left habove]

theorem penalty_mono (policy : Backoff) {few many : Nat} (h : few ≤ many) :
    policy.penalty few ≤ policy.penalty many := by
  cases policy with
  | disabled => exact Nat.le_refl 0
  | doubling base ceiling =>
    show (if few < 2 then 0 else _) ≤ if many < 2 then 0 else _
    have hpower : Nat.pow 2 (min (few - 1) maxDoublings) ≤ Nat.pow 2 (min (many - 1) maxDoublings) :=
      Nat.pow_le_pow_right (by decide) (by omega)
    have hstep := Nat.mul_le_mul_left base hpower
    split
    · exact Nat.zero_le _
    · rw [if_neg (by omega)]
      omega

end Backoff

/-! ## Counters after any number of outcomes -/

namespace Counters

/-- One thing that the counters are told. -/
inductive Operation where
  | record (updated : Bool)
  | failure
  | success
  deriving DecidableEq, Repr

def Operation.succeeds : Operation → Bool
  | .record updated => updated
  | .failure => false
  | .success => true

def apply (c : Counters) : Operation → Counters
  | .record updated => c.record updated
  | .failure => c.failure
  | .success => c.success

def run (c : Counters) (ops : List Operation) : Counters :=
  ops.foldl apply c

/-- How many failures there were since the last success. -/
def failuresOf (ops : List Operation) : Nat :=
  trailing (ops.map Operation.succeeds)

theorem run_append (c : Counters) (first second : List Operation) :
    c.run (first ++ second) = (c.run first).run second :=
  List.foldl_append

theorem failuresOf_concat (ops : List Operation) (op : Operation) :
    failuresOf (ops ++ [op]) = if op.succeeds then 0 else failuresOf ops + 1 := by
  rw [failuresOf, List.map_append]
  exact trailing_concat _ _

theorem failuresOf_append_of_failing (ops more : List Operation) (hmore : ∀ op ∈ more, op.succeeds = false) :
    failuresOf (ops ++ more) = failuresOf ops + more.length := by
  induction more using List.reverseRecOn with
  | nil => simp
  | append_singleton more op ih =>
    have hop : op.succeeds = false := hmore op (by simp)
    have hbefore := ih fun other hother => hmore other (List.mem_append_left _ hother)
    rw [← List.append_assoc, failuresOf_concat, hop, hbefore, List.length_append]
    rfl

/-- What the counters hold after what they were told. -/
structure Kept (every : Nat) (policy : Backoff) (ops : List Operation) (c : Counters) : Prop where
  updateEvery : c.updateEvery = max every 1
  backoff : c.backoff = policy
  retries : c.retries = min (failuresOf ops) maxRetries
  penalty : c.penalty = policy.penalty c.retries

variable {every : Nat} {policy : Backoff} {ops : List Operation} {c : Counters}

/-- Whatever the counters are told counts as a success or as a failure. -/
theorem apply_eq (c : Counters) (op : Operation) :
    ∃ runs, c.apply op = { (if op.succeeds then c.success else c.failure) with runs := runs } := by
  cases op with
  | record updated => exact ⟨c.runs + 1, by cases updated <;> rfl⟩
  | failure => exact ⟨c.runs, rfl⟩
  | success => exact ⟨c.runs, rfl⟩

theorem Kept.apply (h : c.Kept every policy ops) (op : Operation) :
    (c.apply op).Kept every policy (ops ++ [op]) := by
  obtain ⟨runs, heq⟩ := c.apply_eq op
  have hcount := failuresOf_concat ops op
  rw [heq]
  cases hop : op.succeeds with
  | true =>
    rw [hop, if_pos rfl] at hcount
    refine ⟨h.updateEvery, h.backoff, ?_, (penalty_zero policy).symm⟩
    rw [hcount]
    rfl
  | false =>
    rw [hop, if_neg Bool.false_ne_true] at hcount
    refine ⟨h.updateEvery, h.backoff, ?_, ?_⟩
    · show min (c.retries + 1) maxRetries = _
      rw [hcount, h.retries]
      omega
    · show c.backoff.penalty _ = _
      rw [h.backoff]
      rfl

theorem kept_run (every : Nat) (policy : Backoff) (ops : List Operation) :
    ((start every policy).run ops).Kept every policy ops := by
  induction ops using List.reverseRecOn with
  | nil => exact ⟨rfl, rfl, rfl, (penalty_zero policy).symm⟩
  | append_singleton ops op ih =>
    rw [run_append]
    exact ih.apply op

/-- The count of failures stops long after the penalty has come to its ceiling. -/
theorem Kept.penalty_eq {base ceiling : Nat} (h : c.Kept every (.doubling base ceiling) ops) (hbase : 1 ≤ base)
    (hceiling : ceiling < UInt64.size) :
    c.penalty =
      if failuresOf ops < 2 then 0 else min ceiling (base * Nat.pow 2 (failuresOf ops - 1)) := by
  have hmax : 65 ≤ maxRetries := by decide
  rw [h.penalty, h.retries, ← Backoff.penalty_doubling hbase hceiling]
  by_cases hcount : failuresOf ops ≤ maxRetries
  · rw [Nat.min_eq_left hcount]
  · rw [Backoff.penalty_of_le hbase hceiling (by omega), Backoff.penalty_of_le hbase hceiling (by omega)]

/-- After each further failure the penalty is as large at least. -/
theorem Kept.penalty_le (h : c.Kept every policy ops) {more : List Operation} {later : Counters}
    (hlater : later.Kept every policy (ops ++ more)) (hmore : ∀ op ∈ more, op.succeeds = false) :
    c.penalty ≤ later.penalty := by
  have hcount := failuresOf_append_of_failing ops more hmore
  have hretries : c.retries ≤ later.retries := by
    rw [h.retries, hlater.retries]
    omega
  rw [h.penalty, hlater.penalty]
  exact Backoff.penalty_mono policy hretries

/-- Whatever the counters of a schedule are told, and in whatever number: their penalty is the one of exact
arithmetic for the true number of failures since the last success, although it is reckoned in words. It grows with
each failure up to the ceiling. Without a policy there is none. -/
theorem penalty_exact (every : UInt64) (base ceiling : Duration) (ops : List Operation) :
    let c := (start every.toNat (.ofDurations base ceiling)).run ops
    let step := max base.seconds 1
    c.penalty =
      (if failuresOf ops < 2 then 0 else min ceiling.seconds (step * Nat.pow 2 (failuresOf ops - 1))) ∧
    c.penalty = (Backoff.penaltyInWords (.ofNat step) (.ofNat ceiling.seconds) (.ofNat c.retries)).toNat ∧
    c.penalty ≤ ceiling.seconds ∧
    (∀ more, (∀ op ∈ more, op.succeeds = false) → c.penalty ≤ (c.run more).penalty) ∧
    ((start every.toNat .disabled).run ops).penalty = 0 := by
  intro c step
  have hkept : c.Kept every.toNat (.doubling step ceiling.seconds) ops := kept_run _ _ ops
  have hbase : 1 ≤ step := Nat.le_max_right _ _
  have hceiling : ceiling.seconds < UInt64.size := ceiling.seconds_lt
  refine ⟨hkept.penalty_eq hbase hceiling, ?_, ?_, fun more hmore => ?_, ?_⟩
  · have hstep : (UInt64.ofNat step).toNat = step :=
      UInt64.toNat_ofNat_of_lt' (Nat.max_lt.mpr ⟨base.seconds_lt, by decide⟩)
    have hretries : (UInt32.ofNat c.retries).toNat = c.retries := by
      refine UInt32.toNat_ofNat_of_lt' (Nat.lt_of_le_of_lt (hkept.retries ▸ Nat.min_le_right _ _) ?_)
      decide
    rw [Backoff.toNat_penaltyInWords (hstep.symm ▸ hbase), hstep, UInt64.toNat_ofNat_of_lt' hceiling, hretries]
    exact hkept.penalty
  · rw [hkept.penalty]
    exact Backoff.penalty_le_ceiling _ _
  · refine hkept.penalty_le ?_ hmore
    rw [← run_append]
    exact kept_run _ _ _
  · rw [(kept_run _ _ ops).penalty]
    rfl

/-- Two failures after a success, and seventy more. -/
theorem penalty_exact_long_streak :
    let c := (start 10 (.ofDurations (.ofSeconds 3) (.ofSeconds 500))).run
      [.failure, .record true, .failure, .record false]
    let more := List.replicate 70 Operation.failure
    c.penalty = 6 ∧ c.penalty ≤ (c.run more).penalty ∧ (c.run more).penalty = 500 := by
  obtain ⟨hexact, -, -, hgrows, -⟩ := penalty_exact 10 (.ofSeconds 3) (.ofSeconds 500)
    [.failure, .record true, .failure, .record false]
  refine ⟨hexact.trans (by decide), hgrows _ fun op hop => ?_, by decide +kernel⟩
  rw [List.eq_of_mem_replicate hop]
  rfl

end Counters

end ChartStream
