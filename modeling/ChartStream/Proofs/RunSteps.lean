import ChartStream.Proofs.JobCycles

/-!
# A run, move by move

What a running job may do while a signal to stop may come at any moment: the wait before a cycle and the call can
be cut, the hand-over of a block cannot. Main definitions: `Job.Move`, `Job.after`. Main result:
`Job.cut_between_cycles`. The runs of `Job.run?` are such runs (`Job.moves_of_run?`).
-/

namespace ChartStream

set_option autoImplicit false

/-- The time of the next run is never now. -/
theorem Counters.delay_pos {c : Counters} (hevery : 1 ≤ c.updateEvery) {now delay : Duration}
    (h : c.delay? now = some delay) : 0 < delay.nanos := by
  obtain ⟨next, hnext, rfl⟩ := Option.map_eq_some_iff.mp h
  have hinterval : 0 < c.intervalNanos := Nat.mul_pos hevery (by decide)
  have hslot : c.intoSlot now < c.intervalNanos :=
    Nat.lt_of_le_of_lt (Nat.mod_le _ _) (Nat.mod_lt _ hinterval)
  have hsum : next.nanos = now.nanos - c.intoSlot now + c.intervalNanos + c.penalty * nanosPerSecond := by
    unfold nextRun? Duration.ofNanos? at hnext
    split at hnext
    · cases hnext
      rfl
    · cases hnext
  have hsince : (next.since now).nanos = next.nanos - now.nanos := rfl
  omega

theorem Catalog.run_concat (c : Catalog) (ops : List Catalog.Operation) (op : Catalog.Operation) :
    (c.run (ops ++ [op])).catalog = ((c.run ops).catalog.apply op).catalog := by
  induction ops generalizing c with
  | nil => rfl
  | cons first rest ih => exact ih (c.apply first).catalog

namespace Job

/-! ## Runs that nothing cuts -/

/-- A cycle to come: what its call comes to, and whether the writer is open when it gets the block. -/
structure Attempt where
  collection : Collection
  writerOpen : Bool := true

variable (job : Job) (script : Nat → Attempt)

/-- The job after so many cycles that nothing cuts. -/
def after : Nat → Job
  | 0 => job
  | k + 1 => ((after k).finish (script k).writerOpen ((script k).collection.outcome (after k).catalog)).job

/-- A cycle of the run that nothing cuts. -/
def cycleAt (k : Nat) : Cycle :=
  (job.after script k).finish (script k).writerOpen ((script k).collection.outcome (job.after script k).catalog)

/-- The blocks of the first cycles, but for empty ones. -/
def blocksOf (k : Nat) : List (List Line) :=
  ((List.range k).map fun i => (job.cycleAt script i).block).filter fun block => !block.isEmpty

theorem blocksOf_succ (k : Nat) :
    job.blocksOf script (k + 1) =
      job.blocksOf script k ++ if (job.cycleAt script k).block.isEmpty then [] else [(job.cycleAt script k).block] := by
  rw [blocksOf, List.range_succ, List.map_append, List.filter_append]
  cases hempty : (job.cycleAt script k).block.isEmpty <;> simp [blocksOf, hempty]

/-! ## Moves -/

/-- What a running job is at. -/
inductive Phase where
  /-- Before a cycle. -/
  | between
  /-- Waiting for the time of a cycle. If it is `bound` to stop, it will not see the time come. -/
  | asleep (bound : Bool)
  /-- In a call, with some changes of the charts still to be made. -/
  | collecting (left : List Catalog.Operation)
  /-- Handing over a block. -/
  | emitting (encoded : Encoded)
  | ended (exit : Exit)

/-- A running job, with the cycles that it counted and the blocks that the writer took since it runs. -/
structure Running where
  job : Job
  phase : Phase := .between
  signal : Option StopSignal := none
  count : Nat := 0
  blocks : List (List Line) := []

/-- The job ends. -/
def Running.leave (r : Running) (exit : Exit) : Running :=
  { r with job := { r.job with state := .terminated }, phase := .ended exit }

/-- What may happen next. -/
inductive Move (r : Running) : Running → Prop
  /-- A signal may come at any moment, once. -/
  | signal (s : StopSignal) (hsignal : r.signal = none) : Move r { r with signal := some s }
  /-- A request is noticed before a cycle. That nobody is left to make one is not. -/
  | stop (hphase : r.phase = .between) (hsignal : r.signal = some .requested) : Move r (r.leave .shutdown)
  /-- The wait takes time, and a signal that is there already ends it before. -/
  | sleep (now delay : Duration) (hphase : r.phase = .between) (hsignal : r.signal ≠ some .requested)
      (hdelay : r.job.counters.delay? now = some delay) :
      Move r { r with phase := .asleep (r.signal.isSome && decide (0 < delay.nanos)) }
  | cutSleep (bound : Bool) (hphase : r.phase = .asleep bound) (hsignal : r.signal ≠ none) :
      Move r (r.leave .shutdown)
  /-- The time comes, maybe together with a signal. -/
  | wake (hphase : r.phase = .asleep false) :
      Move r { r with phase := .collecting (script r.count).collection.changes }
  | change (op : Catalog.Operation) (left : List Catalog.Operation) (hphase : r.phase = .collecting (op :: left)) :
      Move r { r with
        job := { r.job with catalog := (r.job.catalog.apply op).catalog }
        phase := .collecting left }
  | cutCall (left : List Catalog.Operation) (hphase : r.phase = .collecting left) (hsignal : r.signal ≠ none) :
      Move r (r.leave .shutdown)
  | fail (e : CollectorError) (hphase : r.phase = .collecting [])
      (hending : samplesOf (script r.count).collection.ending = .error e) : Move r (r.leave (.fatal e.message))
  | encode (data : Option Samples) (hphase : r.phase = .collecting [])
      (hending : samplesOf (script r.count).collection.ending = .ok data) :
      Move r { r with
        phase := .emitting (r.job.encode (data.getD Samples.empty) (script r.count).collection.elapsed) }
  /-- The writer takes no block any more. -/
  | refuse (encoded : Encoded) (hphase : r.phase = .emitting encoded) (hlines : encoded.lines.isEmpty = false)
      (hclosed : (script r.count).writerOpen = false) :
      Move r ({ r with job := encoded.job }.leave (.fatal (CollectorError.output .closed).message))
  /-- The cycle is done and counted. -/
  | handOver (encoded : Encoded) (hphase : r.phase = .emitting encoded)
      (htaken : encoded.lines.isEmpty = true ∨ (script r.count).writerOpen = true) :
      Move r { r with
        job := encoded.job.record encoded.updated
        phase := .between
        count := r.count + 1
        blocks := r.blocks ++ if encoded.lines.isEmpty then [] else [encoded.lines] }

/-- What may happen from now on. -/
def Moves : Running → Running → Prop :=
  Relation.ReflTransGen (Move script)

/-! ## Where a run stands -/

/-- The phase is one of the cycle after the first `r.count` ones. -/
def Fits (r : Running) : Prop :=
  match r.phase with
  | .between => r.job = job.after script r.count
  | .asleep _ => r.job = job.after script r.count
  | .collecting left => ∃ made, (script r.count).collection.changes = made ++ left ∧
      r.job = { job.after script r.count with catalog := ((job.after script r.count).catalog.run made).catalog }
  | .emitting encoded => ∃ data, samplesOf (script r.count).collection.ending = .ok data ∧
      encoded = ((job.after script r.count).afterCall
        ((script r.count).collection.outcome (job.after script r.count).catalog)).encode
          (data.getD Samples.empty) (script r.count).collection.elapsed
  | .ended exit => r.job.state = .terminated ∧
      (exit = .shutdown ∧ r.signal ≠ none ∨
        ∃ e, (job.cycleAt script r.count).result = .error e ∧ exit = .fatal e.message)

/-- The run has done some whole cycles of the one that nothing cuts, and is in the next one or has ended. -/
structure Stands (r : Running) : Prop where
  completed : ∀ i < r.count, ∃ updated, (job.cycleAt script i).result = .ok updated
  blocks : r.blocks = job.blocksOf script r.count
  counters : r.job.counters = (job.after script r.count).counters
  fits : job.Fits script r

variable {job script} {r later : Running}

theorem Stands.leave (h : job.Stands script r) {exit : Exit}
    (hexit : exit = .shutdown ∧ r.signal ≠ none ∨
      ∃ e, (job.cycleAt script r.count).result = .error e ∧ exit = .fatal e.message) :
    job.Stands script (r.leave exit) :=
  ⟨h.completed, h.blocks, h.counters, rfl, hexit⟩

theorem emit_of_closed {writerOpen : Bool} {data : Option Samples} {elapsed : Nat}
    (hlines : (job.encode (data.getD Samples.empty) elapsed).lines.isEmpty = false) (hclosed : writerOpen = false) :
    job.emit writerOpen data elapsed =
      ⟨(job.encode (data.getD Samples.empty) elapsed).job, [], .error (.output .closed)⟩ := by
  rw [emit, hlines, hclosed]
  rfl

theorem emit_of_taken {writerOpen : Bool} {data : Option Samples} {elapsed : Nat}
    (htaken : (job.encode (data.getD Samples.empty) elapsed).lines.isEmpty = true ∨ writerOpen = true) :
    job.emit writerOpen data elapsed =
      ⟨(job.encode (data.getD Samples.empty) elapsed).job.record (job.encode (data.getD Samples.empty) elapsed).updated,
        (job.encode (data.getD Samples.empty) elapsed).lines,
        .ok (job.encode (data.getD Samples.empty) elapsed).updated⟩ := by
  have hopen : (!(job.encode (data.getD Samples.empty) elapsed).lines.isEmpty && !writerOpen) = false := by
    rcases htaken with htaken | htaken <;> simp [htaken]
  rw [emit, hopen]
  rfl

theorem emit_cases (job : Job) (writerOpen : Bool) (data : Option Samples) (elapsed : Nat) :
    let encoded := job.encode (data.getD Samples.empty) elapsed
    (encoded.lines.isEmpty = false ∧ writerOpen = false ∧
        job.emit writerOpen data elapsed = ⟨encoded.job, [], .error (.output .closed)⟩) ∨
      (encoded.lines.isEmpty = true ∨ writerOpen = true) ∧
        job.emit writerOpen data elapsed =
          ⟨encoded.job.record encoded.updated, encoded.lines, .ok encoded.updated⟩ := by
  intro encoded
  by_cases htaken : encoded.lines.isEmpty = true ∨ writerOpen = true
  · exact .inr ⟨htaken, emit_of_taken htaken⟩
  · obtain ⟨hlines, hclosed⟩ := not_or.mp htaken
    rw [Bool.not_eq_true] at hlines hclosed
    exact .inl ⟨hlines, hclosed, emit_of_closed hlines hclosed⟩

theorem after_succ (k : Nat) : job.after script (k + 1) = (job.cycleAt script k).job :=
  rfl

theorem counters_encode (job : Job) (data : Samples) (elapsed : Nat) :
    (job.encode data elapsed).job.counters = job.counters := by
  rcases job.encode_cases data elapsed with ⟨-, hjob⟩ | ⟨chart, -, -, hjob⟩ <;> rw [hjob]

/-! A block that is handed over is the one of its cycle. -/

variable {encoded : Encoded}

theorem cycleAt_of_closed (h : job.Stands script r) (hphase : r.phase = .emitting encoded)
    (hlines : encoded.lines.isEmpty = false) (hclosed : (script r.count).writerOpen = false) :
    job.cycleAt script r.count = ⟨encoded.job, [], .error (.output .closed)⟩ := by
  have hfits := h.fits
  rw [Fits, hphase] at hfits
  obtain ⟨data, hending, rfl⟩ := hfits
  rw [cycleAt, finish_of_ok hending]
  exact emit_of_closed hlines hclosed

theorem cycleAt_of_taken (h : job.Stands script r) (hphase : r.phase = .emitting encoded)
    (htaken : encoded.lines.isEmpty = true ∨ (script r.count).writerOpen = true) :
    job.cycleAt script r.count = ⟨encoded.job.record encoded.updated, encoded.lines, .ok encoded.updated⟩ := by
  have hfits := h.fits
  rw [Fits, hphase] at hfits
  obtain ⟨data, hending, rfl⟩ := hfits
  rw [cycleAt, finish_of_ok hending]
  exact emit_of_taken htaken

theorem counters_of_emitting (h : job.Stands script r) (hphase : r.phase = .emitting encoded) :
    encoded.job.counters = (job.after script r.count).counters := by
  have hfits := h.fits
  rw [Fits, hphase] at hfits
  obtain ⟨data, -, rfl⟩ := hfits
  exact counters_encode _ _ _

theorem stands_step (h : job.Stands script r) (hmove : Move script r later) : job.Stands script later := by
  obtain ⟨hcompleted, hblocks, hcounters, hfits⟩ := id h
  cases hmove with
  | signal s hsignal =>
    refine ⟨hcompleted, hblocks, hcounters, ?_⟩
    cases hphase : r.phase with
    | ended exit =>
      rw [Fits, hphase] at hfits
      simp only [Fits]
      exact ⟨hfits.1, hfits.2.imp_left fun hshutdown => ⟨hshutdown.1, by simp⟩⟩
    | _ =>
      rw [Fits, hphase] at hfits
      simp only [Fits]
      exact hfits
  | stop hphase hsignal => exact h.leave (.inl ⟨rfl, by simp [hsignal]⟩)
  | sleep now delay hphase hsignal hdelay =>
    rw [Fits, hphase] at hfits
    exact ⟨hcompleted, hblocks, hcounters, hfits⟩
  | cutSleep bound hphase hsignal => exact h.leave (.inl ⟨rfl, hsignal⟩)
  | wake hphase =>
    rw [Fits, hphase] at hfits
    exact ⟨hcompleted, hblocks, hcounters, [], rfl, hfits⟩
  | change op left hphase =>
    rw [Fits, hphase] at hfits
    obtain ⟨made, hchanges, hjob⟩ := hfits
    refine ⟨hcompleted, hblocks, hcounters, made ++ [op], ?_, ?_⟩
    · rw [hchanges, List.append_assoc, List.singleton_append]
    · simp only [hjob, Catalog.run_concat]
  | cutCall left hphase hsignal => exact h.leave (.inl ⟨rfl, hsignal⟩)
  | fail e hphase hending => exact h.leave (.inr ⟨e, congrArg Cycle.result (finish_of_error hending _ _), rfl⟩)
  | encode data hphase hending =>
    rw [Fits, hphase] at hfits
    obtain ⟨made, hchanges, hjob⟩ := hfits
    rw [List.append_nil] at hchanges
    refine ⟨hcompleted, hblocks, hcounters, data, hending, ?_⟩
    rw [hjob, ← hchanges]
    rfl
  | refuse encoded hphase hlines hclosed =>
    have hcycle := cycleAt_of_closed h hphase hlines hclosed
    have hencoded := counters_of_emitting h hphase
    exact ⟨hcompleted, hblocks, hencoded, rfl, .inr ⟨_, congrArg Cycle.result hcycle, rfl⟩⟩
  | handOver encoded hphase htaken =>
    have hcycle := cycleAt_of_taken h hphase htaken
    have hafter : job.after script (r.count + 1) = encoded.job.record encoded.updated := by
      rw [after_succ, hcycle]
    refine ⟨fun i hi => ?_, ?_, ?_, hafter.symm⟩
    · rcases Nat.lt_succ_iff_lt_or_eq.mp hi with hi | rfl
      · exact hcompleted i hi
      · exact ⟨_, congrArg Cycle.result hcycle⟩
    · rw [blocksOf_succ, hcycle, hblocks]
    · rw [hafter]

theorem stands_moves (h : Moves script { job := job } r) : job.Stands script r := by
  induction h with
  | refl => exact ⟨fun i hi => absurd hi (Nat.not_lt_zero i), rfl, rfl, rfl⟩
  | tail _ hmove ih => exact stands_step ih hmove

/-! ## Blocks on their way -/

theorem count_le_of_move (h : Move script r later) : r.count ≤ later.count := by
  cases h with
  | handOver => exact Nat.le_succ _
  | _ => exact Nat.le_refl _

theorem ended_of_move {exit : Exit} (hphase : r.phase = .ended exit) (h : Move script r later) :
    later.phase = .ended exit ∧ later.count = r.count := by
  cases h with
  | signal s hsignal => exact ⟨hphase, rfl⟩
  | _ => simp_all

/-- Nothing cuts a hand-over: it is still going on, or the cycle was counted, or the writer was closed. -/
theorem emitting_moves (h : job.Stands script r) (hphase : r.phase = .emitting encoded)
    (hmoves : Moves script r later) :
    later.phase = .emitting encoded ∧ later.count = r.count ∨ r.count < later.count ∨
      later.phase = .ended (.fatal (CollectorError.output .closed).message) ∧ later.count = r.count ∧
        (job.cycleAt script r.count).result = .error (.output .closed) := by
  induction hmoves with
  | refl => exact .inl ⟨hphase, rfl⟩
  | tail _ hmove ih =>
    rcases ih with ⟨hstill, hcount⟩ | hcounted | ⟨hended, hcount, hresult⟩
    · cases hmove with
      | signal s hsignal => exact .inl ⟨hstill, hcount⟩
      | handOver => exact .inr (.inl (Nat.lt_succ_of_le (Nat.le_of_eq hcount.symm)))
      | refuse other hother hlines hclosed =>
        cases hstill.symm.trans hother
        have hcycle := cycleAt_of_closed h hphase hlines (hcount ▸ hclosed)
        exact .inr (.inr ⟨rfl, hcount, congrArg Cycle.result hcycle⟩)
      | _ => simp_all
    · exact .inr (.inl (Nat.lt_of_lt_of_le hcounted (count_le_of_move hmove)))
    · obtain ⟨hphase, hsame⟩ := ended_of_move hended hmove
      exact .inr (.inr ⟨hphase, hsame.trans hcount, hresult⟩)

/-! ## The end -/

theorem updateEvery_finish (job : Job) (writerOpen : Bool) (outcome : Call.Outcome) :
    (job.finish writerOpen outcome).job.counters.updateEvery = job.counters.updateEvery := by
  unfold finish
  dsimp only
  split
  · rfl
  · unfold emit
    dsimp only
    split
    · rw [counters_encode]
      rfl
    · rw [record, Counters.updateEvery_record, counters_encode]
      rfl

theorem updateEvery_after (k : Nat) : (job.after script k).counters.updateEvery = job.counters.updateEvery := by
  induction k with
  | zero => rfl
  | succ k ih => exact (updateEvery_finish _ _ _).trans ih

/-- How many cycles may still be counted once there is a signal. -/
def Phase.onTheWay : Phase → Nat
  | .between => 0
  | .asleep true => 0
  | .ended _ => 0
  | _ => 1

/-- How many moves are left once there is a signal, at most. -/
def movesLeft (script : Nat → Attempt) (r : Running) : Nat :=
  match r.phase with
  | .ended _ => 0
  | .asleep true => 1
  | .between => 2
  | .emitting _ => 3
  | .collecting left => left.length + 4
  | .asleep false => (script r.count).collection.changes.length + 5

/-- Each move after a signal brings the end nearer. -/
theorem nearer_of_move (h : job.Stands script r) (hevery : 1 ≤ job.counters.updateEvery) (hsignal : r.signal ≠ none)
    (hmove : Move script r later) :
    later.signal ≠ none ∧ movesLeft script later < movesLeft script r ∧
      later.count + later.phase.onTheWay ≤ r.count + r.phase.onTheWay := by
  have hkept : 1 ≤ r.job.counters.updateEvery := by
    rw [h.counters, updateEvery_after]
    exact hevery
  cases hmove with
  | signal s hnone => exact absurd hnone hsignal
  | sleep now delay hphase hrequest hdelay =>
    have hbound : (r.signal.isSome && decide (0 < delay.nanos)) = true := by
      rw [Option.isSome_iff_ne_none.mpr hsignal, decide_eq_true (Counters.delay_pos hkept hdelay)]
      rfl
    rw [hbound]
    refine ⟨hsignal, ?_, ?_⟩
    · simp [movesLeft, hphase]
    · simp [Phase.onTheWay, hphase]
  | cutSleep bound hphase hsignal =>
    refine ⟨hsignal, ?_, ?_⟩
    · cases bound <;> simp [movesLeft, Running.leave, hphase]
    · simp [Running.leave, Phase.onTheWay]
  | _ =>
    refine ⟨hsignal, ?_, ?_⟩
    · simp_all [movesLeft, Running.leave]
    · simp_all [Phase.onTheWay, Running.leave]

theorem signal_moves (h : job.Stands script r) (hevery : 1 ≤ job.counters.updateEvery) (hsignal : r.signal ≠ none)
    (hmoves : Moves script r later) :
    job.Stands script later ∧ later.signal ≠ none ∧
      later.count + later.phase.onTheWay ≤ r.count + r.phase.onTheWay := by
  induction hmoves with
  | refl => exact ⟨h, hsignal, Nat.le_refl _⟩
  | tail _ hmove ih =>
    obtain ⟨hstands, hkept, hcount⟩ := ih
    obtain ⟨hstill, -, hnext⟩ := nearer_of_move hstands hevery hkept hmove
    exact ⟨stands_step hstands hmove, hstill, Nat.le_trans hnext hcount⟩

/-- Whatever happens from now on, the job ends. -/
inductive Ends (script : Nat → Attempt) : Running → Prop
  | ended {r : Running} (exit : Exit) (hphase : r.phase = .ended exit) : Ends script r
  | go {r : Running} (hmove : ∃ later, Move script r later) (hends : ∀ later, Move script r later → Ends script later) :
      Ends script r

/-- A job with a signal is not stuck, if its clock gives the times of its cycles. -/
theorem exists_move (h : job.Stands script r) (hsignal : r.signal ≠ none)
    (hclock : ∀ k, ∃ now, ((job.after script k).counters.delay? now).isSome) :
    (∃ exit, r.phase = .ended exit) ∨ ∃ later, Move script r later := by
  have hfits := h.fits
  cases hphase : r.phase with
  | between =>
    rw [Fits, hphase] at hfits
    obtain ⟨now, hdelay⟩ := hclock r.count
    obtain ⟨delay, hdelay⟩ := Option.isSome_iff_exists.mp hdelay
    rw [← h.counters] at hdelay
    by_cases hrequest : r.signal = some .requested
    · exact .inr ⟨_, .stop hphase hrequest⟩
    · exact .inr ⟨_, .sleep now delay hphase hrequest hdelay⟩
  | asleep bound => exact .inr ⟨_, .cutSleep bound hphase hsignal⟩
  | collecting left => exact .inr ⟨_, .cutCall left hphase hsignal⟩
  | emitting encoded =>
    by_cases htaken : encoded.lines.isEmpty = true ∨ (script r.count).writerOpen = true
    · exact .inr ⟨_, .handOver encoded hphase htaken⟩
    · obtain ⟨hlines, hclosed⟩ := not_or.mp htaken
      exact .inr ⟨_, .refuse encoded hphase (by simpa using hlines) (by simpa using hclosed)⟩
  | ended exit => exact .inl ⟨exit, rfl⟩

theorem ends_of_signal (h : job.Stands script r) (hevery : 1 ≤ job.counters.updateEvery) (hsignal : r.signal ≠ none)
    (hclock : ∀ k, ∃ now, ((job.after script k).counters.delay? now).isSome) : Ends script r := by
  generalize hleft : movesLeft script r = left
  induction left using Nat.strongRecOn generalizing r with
  | ind left ih =>
    rcases exists_move h hsignal hclock with ⟨exit, hphase⟩ | hmove
    · exact .ended exit hphase
    · refine .go hmove fun later hlater => ?_
      obtain ⟨hstill, hnearer, -⟩ := nearer_of_move h hevery hsignal hlater
      exact ih _ (hleft ▸ hnearer) (stands_step h hlater) hstill rfl

/-! ## Runs over a script of calls -/

theorem signal_of_cancelled {limit : Duration} {stoppable : Bool} {answer : Except CollectorError (Option Samples)}
    {p : Call.Progress} {actions : List Call.Action}
    (h : (Call.runActions limit stoppable answer p actions).ending = .cancelled) :
    (Call.runActions limit stoppable answer p actions).signal ≠ none := by
  have hwait : ∀ signalled : Bool, Call.endingOfWait limit signalled = .cancelled → signalled = true := by
    intro signalled hcancelled
    unfold Call.endingOfWait at hcancelled
    split at hcancelled
    · next hboth => exact (Bool.and_eq_true _ _ ▸ hboth).1
    · cases hcancelled
  induction actions generalizing p with
  | nil => cases h
  | cons action rest ih =>
    cases action with
    | change operation =>
      unfold Call.runActions at h ⊢
      dsimp only at h ⊢
      split at h
      · cases h
      · exact ih h
    | signal s => exact ih (p := { p with signal := some s }) h
    | hang =>
      have hsignalled := hwait _ h
      rw [Bool.and_eq_true] at hsignalled
      exact Option.isSome_iff_ne_none.mp hsignalled.2
    | wait millis =>
      unfold Call.runActions at h ⊢
      dsimp only at h ⊢
      by_cases hzero : millis = 0
      · rw [if_pos hzero] at h ⊢
        exact ih h
      · rw [if_neg hzero] at h ⊢
        split at h
        · next hcut =>
          have hsignalled := hwait _ h
          rw [Bool.and_eq_true] at hsignalled
          rw [if_pos hcut]
          exact Option.isSome_iff_ne_none.mp hsignalled.2
        · next hcut =>
          rw [if_neg hcut]
          exact ih h

variable {script : Nat → Attempt} {now : Duration} {signal : Option StopSignal} {count : Nat}
  {blocks : List (List Line)}

theorem wait_over (h : job.wait now signal = .over) :
    signal = none ∧ ∃ delay, job.counters.delay? now = some delay := by
  unfold wait at h
  split at h
  · cases h
  · next hrequest =>
    split at h
    · cases h
    · next hdelay =>
      split at h
      · cases h
      · next habandoned =>
        refine ⟨?_, Option.ne_none_iff_exists'.mp (by simpa using hdelay)⟩
        cases signal with
        | none => rfl
        | some s => cases s <;> simp_all

theorem moves_of_wait_ended (h : job.wait now signal = .ended) :
    Moves script ⟨job, .between, signal, count, blocks⟩
      (Running.leave ⟨job, .between, signal, count, blocks⟩ .shutdown) := by
  unfold wait at h
  split at h
  · next hrequest => exact .single (.stop rfl hrequest)
  · next hrequest =>
    split at h
    · cases h
    · next hdelay =>
      split at h
      · next habandoned =>
        obtain ⟨delay, hdelay⟩ := Option.ne_none_iff_exists'.mp (by simpa using hdelay)
        have hsleep : Move script ⟨job, .between, signal, count, blocks⟩
            ⟨job, .asleep (signal.isSome && decide (0 < delay.nanos)), signal, count, blocks⟩ :=
          .sleep now delay rfl hrequest hdelay
        exact .head hsleep (.single (.cutSleep _ rfl (by simp [habandoned])))
      · cases h

theorem moves_changes (left : List Catalog.Operation) :
    Moves script ⟨job, .collecting left, signal, count, blocks⟩
      ⟨{ job with catalog := (job.catalog.run left).catalog }, .collecting [], signal, count, blocks⟩ := by
  induction left generalizing job with
  | nil => exact .refl
  | cons op rest ih =>
    have hchange : Move script ⟨job, .collecting (op :: rest), signal, count, blocks⟩
        ⟨{ job with catalog := (job.catalog.apply op).catalog }, .collecting rest, signal, count, blocks⟩ :=
      .change op rest rfl
    exact .head hchange ih

/-- The time of a cycle comes and its call is made, in which a signal may come. -/
theorem moves_call (script : Nat → Attempt) (count : Nat) (blocks : List (List Line)) (h : job.wait now none = .over)
    (signal : Option StopSignal) :
    Moves script ⟨job, .between, none, count, blocks⟩
      ⟨{ job with catalog := (job.catalog.run (script count).collection.changes).catalog }, .collecting [], signal,
        count, blocks⟩ := by
  obtain ⟨-, delay, hdelay⟩ := wait_over h
  have hsleep : Move script ⟨job, .between, none, count, blocks⟩ ⟨job, .asleep false, none, count, blocks⟩ :=
    .sleep now delay rfl (by simp) hdelay
  have hwake : Move script ⟨job, .asleep false, none, count, blocks⟩
      ⟨job, .collecting (script count).collection.changes, none, count, blocks⟩ := .wake rfl
  refine .head hsleep (.head hwake ((moves_changes _).trans ?_))
  cases signal with
  | none => exact .refl
  | some s => exact .single (.signal s rfl)

theorem goOn_of_error {further : Job → Option Run} {rest : Script} {run : Run} {cycle : Cycle} {e : CollectorError}
    (h : goOn cycle rest further = some run) (hresult : cycle.result = .error e) (hblock : cycle.block = []) :
    run = cycle.job.stop (.fatal e.message) rest := by
  unfold goOn at h
  rw [hresult, hblock] at h
  cases h
  rfl

theorem goOn_of_ok {further : Job → Option Run} {rest : Script} {run : Run} {cycle : Cycle} {updated : Bool}
    (h : goOn cycle rest further = some run) (hresult : cycle.result = .ok updated) :
    ∃ more, further cycle.job = some more ∧ run.job = more.job ∧ run.exit = more.exit ∧
      run.blocks = (if cycle.block.isEmpty then [] else [cycle.block]) ++ more.blocks := by
  unfold goOn at h
  rw [hresult] at h
  obtain ⟨more, hmore, rfl⟩ := Option.map_eq_some_iff.mp h
  refine ⟨more, hmore, ?_⟩
  unfold Run.after
  cases hempty : cycle.block.isEmpty <;> simp

variable {attempt : Attempt} {cycle : Cycle}

/-- A cycle whose call failed, or that found the writer closed. -/
theorem moves_of_error {e : CollectorError} (hscript : script count = attempt)
    (hcycle : job.finish attempt.writerOpen (attempt.collection.outcome job.catalog) = cycle)
    (hresult : cycle.result = .error e) :
    cycle.block = [] ∧
      Moves script ⟨job.afterCall (attempt.collection.outcome job.catalog), .collecting [], signal, count, blocks⟩
        (Running.leave ⟨cycle.job, .between, signal, count, blocks⟩ (.fatal e.message)) := by
  subst hscript
  let called := job.afterCall ((script count).collection.outcome job.catalog)
  cases hending : samplesOf (script count).collection.ending with
  | error failure =>
    obtain rfl := (finish_of_error hending _ _).symm.trans hcycle
    cases hresult
    have hfail := Move.fail (r := ⟨called, .collecting [], signal, count, blocks⟩) e rfl hending
    exact ⟨rfl, .single hfail⟩
  | ok data =>
    rw [finish_of_ok hending] at hcycle
    rcases called.emit_cases (script count).writerOpen data (script count).collection.elapsed with
      ⟨hlines, hclosed, hemit⟩ | ⟨-, hemit⟩
    · obtain rfl := hemit.symm.trans hcycle
      cases hresult
      have hencode := Move.encode (r := ⟨called, .collecting [], signal, count, blocks⟩) data rfl hending
      exact ⟨rfl, .head hencode (.single (.refuse _ rfl hlines hclosed))⟩
    · obtain rfl := hemit.symm.trans hcycle
      cases hresult

/-- A cycle that is counted. -/
theorem moves_of_ok {updated : Bool} (hscript : script count = attempt)
    (hcycle : job.finish attempt.writerOpen (attempt.collection.outcome job.catalog) = cycle)
    (hresult : cycle.result = .ok updated) :
    Moves script ⟨job.afterCall (attempt.collection.outcome job.catalog), .collecting [], signal, count, blocks⟩
      ⟨cycle.job, .between, signal, count + 1, blocks ++ if cycle.block.isEmpty then [] else [cycle.block]⟩ := by
  subst hscript
  let called := job.afterCall ((script count).collection.outcome job.catalog)
  cases hending : samplesOf (script count).collection.ending with
  | error failure =>
    obtain rfl := (finish_of_error hending _ _).symm.trans hcycle
    cases hresult
  | ok data =>
    rw [finish_of_ok hending] at hcycle
    rcases called.emit_cases (script count).writerOpen data (script count).collection.elapsed with
      ⟨-, -, hemit⟩ | ⟨htaken, hemit⟩
    · obtain rfl := hemit.symm.trans hcycle
      cases hresult
    · obtain rfl := hemit.symm.trans hcycle
      have hencode := Move.encode (r := ⟨called, .collecting [], signal, count, blocks⟩) data rfl hending
      exact .head hencode (.single (.handOver _ rfl htaken))

/-- The runs over a script of calls are among those that may happen: in each call, its signal comes at its end. -/
theorem moves_of_run?_from {writerOpen : Bool} {calls : Script} {run : Run} (count : Nat) (blocks : List (List Line))
    (given : Nat → Attempt) (h : job.run? writerOpen now signal calls = some run) :
    ∃ script r, (∀ i < count, script i = given i) ∧ Moves script ⟨job, .between, signal, count, blocks⟩ r ∧
      r.phase = .ended run.exit ∧ r.job = run.job ∧ r.blocks = blocks ++ run.blocks := by
  induction calls generalizing job signal count blocks run given with
  | nil =>
    unfold run? at h
    split at h
    · cases h
    · next hwait =>
      cases h
      exact ⟨given, _, fun _ _ => rfl, moves_of_wait_ended hwait, rfl, rfl, (List.append_nil _).symm⟩
    · next hwait =>
      cases h
      obtain ⟨rfl, -⟩ := wait_over hwait
      let script := Function.update given count { collection := { ending := .answered (.error Script.exhaustion) } }
      have hscript : script count = _ := Function.update_self count _ given
      have hcall := moves_call script count blocks hwait none
      have hending : samplesOf (script count).collection.ending = .error Script.exhaustion := by rw [hscript]; rfl
      rw [hscript] at hcall
      exact ⟨script, _, fun i hi => Function.update_of_ne (Nat.ne_of_lt hi) _ _,
        hcall.tail (.fail _ rfl hending), rfl, rfl, (List.append_nil _).symm⟩
  | cons call rest ih =>
    unfold run? at h
    split at h
    · cases h
    · next hwait =>
      cases h
      exact ⟨given, _, fun _ _ => rfl, moves_of_wait_ended hwait, rfl, rfl, (List.append_nil _).symm⟩
    · next hwait =>
      obtain ⟨rfl, -⟩ := wait_over hwait
      dsimp only at h
      obtain ⟨k, -, hcalled, hfinish⟩ := exists_collection call job.config.timeout true job
      let attempt : Attempt := ⟨k, writerOpen⟩
      let next := Function.update given count attempt
      have hbefore : ∀ i < count, next i = given i := fun i hi => Function.update_of_ne (Nat.ne_of_lt hi) _ _
      have hnext : next count = attempt := Function.update_self count attempt given
      have hcall : ∀ script : Nat → Attempt, script count = attempt → ∀ s,
          Moves script ⟨job, .between, none, count, blocks⟩
            ⟨job.afterCall (k.outcome job.catalog), .collecting [], s, count, blocks⟩ := by
        intro script hscript s
        have hmoves := moves_call script count blocks hwait s
        rw [hscript] at hmoves
        exact hmoves
      split at h
      · next hcancelled =>
        cases h
        have hsignal := signal_of_cancelled hcancelled
        refine ⟨next, _, hbefore, (hcall next hnext _).tail (.cutCall [] rfl hsignal), rfl, ?_,
          (List.append_nil _).symm⟩
        rw [hcalled]
        rfl
      · rw [hfinish] at h
        generalize hcycle : job.finish writerOpen (k.outcome job.catalog) = cycle at h
        cases hresult : cycle.result with
        | error e =>
          obtain ⟨hblock, hmoves⟩ := moves_of_error hnext hcycle hresult
          cases goOn_of_error h hresult hblock
          exact ⟨next, _, hbefore, (hcall next hnext none).trans hmoves, rfl, rfl, (List.append_nil _).symm⟩
        | ok updated =>
          obtain ⟨more, hmore, hjob, hexit, hblocks⟩ := goOn_of_ok h hresult
          obtain ⟨script, r, hscript, hmoves, hphase, hlast, hall⟩ := ih (count + 1) _ next hmore
          have hattempt : script count = attempt := (hscript count (Nat.lt_succ_self count)).trans hnext
          refine ⟨script, r, fun i hi => (hscript i (Nat.lt_succ_of_lt hi)).trans (hbefore i hi), ?_,
            hphase.trans (by rw [hexit]), hlast.trans hjob.symm, ?_⟩
          · exact ((hcall script hattempt _).trans (moves_of_ok hattempt hcycle hresult)).trans hmoves
          · rw [hall, hblocks, List.append_assoc]

/-- What a script of calls comes to is one of the runs that may happen. -/
theorem moves_of_run? {writerOpen : Bool} {calls : Script} {run : Run}
    (h : job.run? writerOpen now signal calls = some run) :
    ∃ script r, Moves script { job := job } r ∧ r.phase = .ended run.exit ∧ r.job = run.job ∧
      r.blocks = run.blocks := by
  obtain ⟨script, r, -, hmoves, hphase, hjob, hblocks⟩ := moves_of_run?_from 0 []
    (fun _ => { collection := { ending := .timedOut } }) h
  refine ⟨script, r, ?_, hphase, hjob, hblocks⟩
  cases signal with
  | none => exact hmoves
  | some s => exact .head (.signal s rfl) hmoves

/-! ## Whole cycles -/

/-- At this moment the run has done whole cycles of the one that nothing cuts, and no part of another cycle that
can be seen. -/
structure CutBetweenCycles (job : Job) (script : Nat → Attempt) (r : Running) : Prop where
  completed : ∀ i < r.count, ∃ updated, (job.cycleAt script i).result = .ok updated
  blocks : r.blocks = job.blocksOf script r.count
  counters : r.job.counters = (job.after script r.count).counters
  /-- The job ends after a signal, or with the error of the cycle that it is in. -/
  exit : ∀ exit, r.phase = .ended exit → r.job.state = .terminated ∧
    (exit = .shutdown ∧ r.signal ≠ none ∨
      ∃ e, (job.cycleAt script r.count).result = .error e ∧ exit = .fatal e.message)
  /-- A cycle whose block is being handed over is counted before the job ends, unless the writer is closed. -/
  emitting : ∀ encoded, r.phase = .emitting encoded → ∀ later exit, Moves script r later → later.phase = .ended exit →
    r.count < later.count ∨
      (job.cycleAt script r.count).result = .error (.output .closed) ∧
        exit = .fatal (CollectorError.output .closed).message
  /-- After a signal at most the cycle on its way is counted. -/
  last : r.signal ≠ none → 1 ≤ job.counters.updateEvery → ∀ later, Moves script r later → later.count ≤ r.count + 1
  /-- After a signal the job ends, if its clock gives the times of its cycles. -/
  ends : r.signal ≠ none → 1 ≤ job.counters.updateEvery →
    (∀ k, ∃ now, ((job.after script k).counters.delay? now).isSome) → Ends script r

/-- Whenever a signal comes and whatever the calls come to, the job is cut between whole cycles. -/
theorem cut_between_cycles (job : Job) (script : Nat → Attempt) (r : Running) (h : Moves script { job := job } r) :
    job.CutBetweenCycles script r := by
  have hstands := stands_moves h
  refine ⟨hstands.completed, hstands.blocks, hstands.counters, fun exit hphase => ?_,
    fun encoded hphase later exit hmoves hend => ?_, fun hsignal hevery later hmoves => ?_,
    fun hsignal hevery => ends_of_signal hstands hevery hsignal⟩
  · have hfits := hstands.fits
    rw [Fits, hphase] at hfits
    exact hfits
  · rcases emitting_moves hstands hphase hmoves with ⟨hstill, -⟩ | hcounted | ⟨hended, -, hresult⟩
    · cases hstill.symm.trans hend
    · exact .inl hcounted
    · cases hended.symm.trans hend
      exact .inr ⟨hresult, rfl⟩
  · obtain ⟨-, -, hcount⟩ := signal_moves hstands hevery hsignal hmoves
    have honTheWay : r.phase.onTheWay ≤ 1 := by
      unfold Phase.onTheWay
      split <;> decide
    omega

/-- Every call brings a value. -/
def steady : Nat → Attempt :=
  fun _ => { collection := { ending := .answered (.ok (some ⟨[("in", .integer 3)]⟩)) } }

/-- A request comes in the second call: the first cycle is there, and nothing of the second one. -/
theorem cut_between_cycles_second_call :
    ∃ r, Moves steady { job := counted } r ∧ r.phase = .ended .shutdown ∧ r.job.state = .terminated ∧
      r.blocks = counted.blocksOf steady 1 ∧ r.blocks.length = 1 := by
  let encoded := counted.encode ⟨[("in", .integer 3)]⟩ 0
  have hfirstWait : counted.wait .zero none = .over := by decide +kernel
  have hfirst : Moves steady { job := counted } ⟨counted, .collecting [], none, 0, []⟩ :=
    moves_call steady 0 [] hfirstWait none
  have hencode : Move steady ⟨counted, .collecting [], none, 0, []⟩ ⟨counted, .emitting encoded, none, 0, []⟩ :=
    .encode (some ⟨[("in", .integer 3)]⟩) rfl rfl
  have hhandOver : Move steady ⟨counted, .emitting encoded, none, 0, []⟩
      ⟨encoded.job.record encoded.updated, .between, none, 1,
        [] ++ if encoded.lines.isEmpty then [] else [encoded.lines]⟩ :=
    .handOver encoded rfl (.inr rfl)
  have hsecondWait : (encoded.job.record encoded.updated).wait .zero none = .over := by decide +kernel
  have hsecond := moves_call steady 1 ([] ++ if encoded.lines.isEmpty then [] else [encoded.lines]) hsecondWait
    (some .requested)
  have hmoves := (((hfirst.tail hencode).tail hhandOver).trans hsecond).tail (.cutCall [] rfl (by simp))
  have hcut := cut_between_cycles counted steady _ hmoves
  refine ⟨_, hmoves, rfl, (hcut.exit .shutdown rfl).1, hcut.blocks, ?_⟩
  rw [hcut.blocks]
  decide +kernel

end Job

end ChartStream
