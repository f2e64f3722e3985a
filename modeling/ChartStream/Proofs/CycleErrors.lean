import ChartStream.Proofs.Fleet
import ChartStream.Proofs.GroupIntervals
import ChartStream.Proofs.RunSteps

/-!
# Errors of a cycle

When a cycle ends with an error and what that leaves behind; a call that fails without ending the job is as good as
one that brings no values. Main definitions: `Job.Fails`, `Call.filled`, `Job.SameRuns`. Main result:
`Job.failures_and_gaps`.
-/

namespace ChartStream

set_option autoImplicit false

theorem CollectorError.isFatal_iff (e : CollectorError) :
    e.isFatal = true ↔
      (∃ reason, e = .fatal reason) ∨ (∃ error, e = .output error) ∨ ∃ error, e = .declaration error := by
  cases e <;> simp [isFatal]

/-- A block that holds anything is refused exactly if the writer has stopped once there is room. -/
theorem Writer.writeBlock_error_iff (w : Writer) (block : String) (e : OutputError) :
    (w.writeBlock block).2 = .error e ↔ block ≠ "" ∧ w.makeRoom.stopped = true ∧ e = .closed := by
  by_cases hempty : block = ""
  · simp [writeBlock, hempty]
  · cases hstopped : w.makeRoom.stopped with
    | false => simp [writeBlock, send, hempty, hstopped]
    | true =>
      have hreport : (w.writeBlock block).2 = .error .closed := by simp [writeBlock, send, hempty, hstopped]
      rw [hreport, Except.error.injEq]
      simp only [hempty, ne_eq, not_false_eq_true, true_and]
      exact eq_comm

/-! ## Calls that bring nothing -/

namespace Call

/-- A wait is not begun if it would end beyond the limit. -/
theorem within_runActions {limit : Duration} {stoppable : Bool}
    {answer : Except CollectorError (Option Samples)} {p : Progress} (h : within limit p.elapsed = true)
    (actions : List Action) : within limit (runActions limit stoppable answer p actions).elapsed = true := by
  induction actions generalizing p with
  | nil => exact h
  | cons action rest ih =>
    cases action with
    | change operation =>
      unfold runActions
      dsimp only
      split
      · exact h
      · exact ih h
    | signal signal => exact ih (p := { p with signal := some signal }) h
    | hang => exact h
    | wait millis =>
      unfold runActions
      dsimp only
      split
      · exact ih h
      · split
        · exact h
        · next hwait =>
          rw [Bool.not_eq_true, Bool.or_eq_false_iff, Bool.not_eq_false'] at hwait
          exact ih (p := { p with elapsed := p.elapsed + millis }) hwait.2

theorem within_run (call : Call) (limit : Duration) (stoppable : Bool) (catalog : Catalog) :
    within limit (call.run limit stoppable catalog).elapsed = true :=
  within_runActions (by simp [within]) call.actions

/-- The call brought nothing, and its job goes on. -/
def Ending.isGap : Ending → Bool
  | .answered (.ok data) => data.isNone
  | .answered (.error e) => !e.isFatal
  | .timedOut => true
  | .cancelled => false

/-- The ending with no values in the place of a gap. -/
def Ending.filled (ending : Ending) : Ending :=
  if ending.isGap then .answered (.ok (some Samples.empty)) else ending

theorem Ending.filled_eq_cancelled_iff (ending : Ending) : ending.filled = .cancelled ↔ ending = .cancelled := by
  unfold filled
  split
  · next hgap =>
    refine ⟨fun h => (by cases h), fun h => ?_⟩
    rw [h] at hgap
    cases hgap
  · rfl

/-- What is left of a call at a wait that is too long: nothing, unless the job is to stop. -/
def fillWait (limit : Duration) (signalled : Bool) (left : Call) : Call :=
  if (endingOfWait limit signalled).isGap then { answer := .ok (some Samples.empty) } else left

/-- The call that makes the same changes within the same time and answers with no values instead of a gap. A wait
that is too long, and what would come after it, is left out. -/
def fill (limit : Duration) (stoppable : Bool) (answer : Except CollectorError (Option Samples)) (signalled : Bool)
    (elapsed : Nat) : List Action → Call
  | [] => { answer := if (Ending.answered answer).isGap then .ok (some Samples.empty) else answer }
  | .change operation :: rest =>
    let further := fill limit stoppable answer signalled elapsed rest
    { further with actions := .change operation :: further.actions }
  | .signal signal :: rest =>
    let further := fill limit stoppable answer true elapsed rest
    { further with actions := .signal signal :: further.actions }
  | .hang :: rest => fillWait limit (stoppable && signalled) { actions := .hang :: rest, answer := answer }
  | .wait millis :: rest =>
    if millis = 0 then fill limit stoppable answer signalled elapsed rest
    else if (stoppable && signalled) || !within limit (elapsed + millis) then
      fillWait limit (stoppable && signalled) { actions := .wait millis :: rest, answer := answer }
    else
      let further := fill limit stoppable answer signalled (elapsed + millis) rest
      { further with actions := .wait millis :: further.actions }

/-- The call with no values in the place of a gap, if it is made with this limit. -/
def filled (limit : Duration) (stoppable : Bool) (call : Call) : Call :=
  fill limit stoppable call.answer false 0 call.actions

theorem runActions_fillWait {limit : Duration} {stoppable : Bool} {p : Progress} {left : Call}
    (h : runActions limit stoppable left.answer p left.actions =
      ⟨p, endingOfWait limit (stoppable && p.signal.isSome)⟩) :
    let call := fillWait limit (stoppable && p.signal.isSome) left
    runActions limit stoppable call.answer p call.actions =
      ⟨p, (endingOfWait limit (stoppable && p.signal.isSome)).filled⟩ := by
  unfold fillWait Ending.filled
  cases (endingOfWait limit (stoppable && p.signal.isSome)).isGap with
  | true => rfl
  | false => exact h

theorem runActions_fill (limit : Duration) (stoppable : Bool) (answer : Except CollectorError (Option Samples))
    (p : Progress) (actions : List Action) :
    let call := fill limit stoppable answer p.signal.isSome p.elapsed actions
    let outcome := runActions limit stoppable answer p actions
    runActions limit stoppable call.answer p call.actions = { outcome with ending := outcome.ending.filled } := by
  intro call outcome
  induction actions generalizing p with
  | nil =>
    simp only [call, outcome, fill, runActions, Ending.filled]
    split <;> rfl
  | cons action rest ih =>
    cases action with
    | change operation =>
      have hrest := ih { p with catalog := (p.catalog.apply operation).catalog }
      simp only [call, outcome, fill, runActions]
      -- A refused change ends the call before the wait that was left out.
      cases declarationError? operation (p.catalog.apply operation).answer with
      | some e => rfl
      | none => exact hrest
    | signal signal => exact ih { p with signal := some signal }
    | hang => exact runActions_fillWait rfl
    | wait millis =>
      by_cases hzero : millis = 0
      · simp only [call, outcome, fill, runActions, hzero, if_true]
        exact ih p
      · cases hlong : (stoppable && p.signal.isSome) || !within limit (p.elapsed + millis) with
        | true =>
          have hwait : outcome = ⟨p, endingOfWait limit (stoppable && p.signal.isSome)⟩ := by
            simp only [outcome, runActions, hzero, hlong, if_false, if_true]
          simp only [call, fill, hzero, hlong, if_false, if_true]
          rw [hwait]
          exact runActions_fillWait hwait
        | false =>
          have hrest := ih { p with elapsed := p.elapsed + millis }
          simp only [call, outcome, fill, runActions, hzero, hlong, Bool.false_eq_true, if_false]
          exact hrest

/-- On whatever charts the call is made, only its answer differs. -/
theorem run_filled (call : Call) (limit : Duration) (stoppable : Bool) (catalog : Catalog) :
    (call.filled limit stoppable).run limit stoppable catalog =
      { call.run limit stoppable catalog with ending := (call.run limit stoppable catalog).ending.filled } :=
  runActions_fill limit stoppable call.answer { catalog := catalog } call.actions

end Call

namespace Job

/-! ## Failing cycles -/

theorem samplesOf_eq_error_iff (ending : Call.Ending) (e : CollectorError) :
    samplesOf ending = .error e ↔ ending = .answered (.error e) ∧ e.isFatal = true := by
  cases ending with
  | answered answer =>
    cases answer with
    | ok data => simp [samplesOf]
    | error failure =>
      simp only [samplesOf, Call.Ending.answered.injEq, Except.error.injEq]
      split
      · next hfatal =>
        rw [Except.error.injEq]
        exact ⟨fun h => ⟨h, h ▸ hfatal⟩, And.left⟩
      · next hfatal =>
        refine ⟨fun h => (by cases h), fun h => absurd ?_ hfatal⟩
        exact h.1 ▸ h.2
  | _ => simp [samplesOf]

/-- The call came to an error that ends the job, within its time. -/
def EndedBy (job : Job) (call : Call) (e : CollectorError) : Prop :=
  let outcome := call.run job.config.timeout false job.catalog
  outcome.ending = .answered (.error e) ∧ Call.within job.config.timeout outcome.elapsed = true ∧
    ((∃ reason, e = .fatal reason) ∨ (∃ error, e = .output error) ∨ ∃ error, e = .declaration error)

/-- When a cycle fails, and what is as before then. The block of a cycle is the one that it hands over to an open
writer. -/
structure Fails (job : Job) (writerOpen : Bool) (call : Call) : Prop where
  error_iff : ∀ e, (job.cycle writerOpen call).result = .error e ↔
    job.EndedBy call e ∨ (job.cycle true call).block ≠ [] ∧ writerOpen = false ∧ e = .output .closed
  /-- A writer refuses the block exactly if it is not empty and the writer takes nothing any more. -/
  refused_iff : ∀ w : Writer, w.makeRoom.stopped = !writerOpen → ∀ e,
    (w.writeBlock (Line.renderAll (job.cycle true call).block)).2 = .error e ↔
      (job.cycle true call).block ≠ [] ∧ writerOpen = false ∧ e = .closed
  isFatal : ∀ e, (job.cycle writerOpen call).result = .error e → e.isFatal = true
  unchanged : ∀ e, (job.cycle writerOpen call).result = .error e →
    (job.cycle writerOpen call).job.counters = job.counters ∧ (job.cycle writerOpen call).job.state = job.state
  /-- Even an open writer gets nothing then. -/
  nothingSent : ∀ e, job.EndedBy call e → (job.cycle true call).block = [] ∧ (job.cycle writerOpen call).block = []
  /-- A cycle with nothing to hand over does not need the writer. -/
  quiet : (∀ e, ¬ job.EndedBy call e) → (job.cycle true call).block = [] →
    ∃ updated, (job.cycle writerOpen call).result = .ok updated

theorem endedBy_iff (job : Job) (call : Call) (e : CollectorError) :
    job.EndedBy call e ↔ samplesOf (call.run job.config.timeout false job.catalog).ending = .error e := by
  rw [samplesOf_eq_error_iff, EndedBy, e.isFatal_iff]
  refine and_congr_right fun _ => ?_
  exact and_iff_right (call.within_run _ _ _)

theorem state_encode (job : Job) (data : Samples) (elapsed : Nat) :
    (job.encode data elapsed).job.state = job.state := by
  rcases job.encode_cases data elapsed with ⟨-, hjob⟩ | ⟨chart, -, -, hjob⟩ <;> rw [hjob]

variable {job : Job} {call : Call}

/-- The error of a call is the one of its cycle, whether the writer is open or not. -/
theorem cycle_of_endedBy {e : CollectorError} (h : job.EndedBy call e) (writerOpen : Bool) :
    job.cycle writerOpen call =
      ⟨job.afterCall (call.run job.config.timeout false job.catalog), [], .error e⟩ := by
  have hending := (endedBy_iff job call e).mp h
  simp only [cycle, finish, hending]

/-- After any other call a block is made, which is refused or counted. -/
theorem cycle_of_not_endedBy (h : ∀ e, ¬ job.EndedBy call e) :
    ∃ encoded : Encoded, encoded.job.counters = job.counters ∧ encoded.job.state = job.state ∧
      (job.cycle true call).block = encoded.lines ∧
      ∀ writerOpen,
        (encoded.lines ≠ [] ∧ writerOpen = false ∧
          job.cycle writerOpen call = ⟨encoded.job, [], .error (.output .closed)⟩) ∨
        (encoded.lines = [] ∨ writerOpen = true) ∧
          job.cycle writerOpen call = ⟨encoded.job.record encoded.updated, encoded.lines, .ok encoded.updated⟩ := by
  let outcome := call.run job.config.timeout false job.catalog
  let called := job.afterCall outcome
  cases hending : samplesOf outcome.ending with
  | error e => exact absurd ((endedBy_iff job call e).mpr hending) (h e)
  | ok data =>
    have hcycle : ∀ writerOpen, job.cycle writerOpen call = called.emit writerOpen data outcome.elapsed := by
      intro writerOpen
      simp only [outcome] at hending
      simp only [cycle, finish, hending, called, outcome]
    refine ⟨called.encode (data.getD Samples.empty) outcome.elapsed, counters_encode _ _ _, state_encode _ _ _, ?_,
      fun writerOpen => ?_⟩
    · rw [hcycle, emit_of_taken (.inr rfl)]
    · rw [hcycle]
      simpa using called.emit_cases writerOpen data outcome.elapsed

theorem cycle_error_iff (job : Job) (writerOpen : Bool) (call : Call) (e : CollectorError) :
    (job.cycle writerOpen call).result = .error e ↔
      job.EndedBy call e ∨ (job.cycle true call).block ≠ [] ∧ writerOpen = false ∧ e = .output .closed := by
  by_cases hended : ∃ failure, job.EndedBy call failure
  · obtain ⟨failure, hended⟩ := hended
    have hfailure : job.EndedBy call e ↔ failure = e := by
      rw [endedBy_iff, (endedBy_iff job call failure).mp hended, Except.error.injEq]
    rw [cycle_of_endedBy hended, cycle_of_endedBy hended, hfailure]
    simp
  · have hnone : ∀ failure, ¬ job.EndedBy call failure := not_exists.mp hended
    obtain ⟨encoded, -, -, hblock, hcycle⟩ := cycle_of_not_endedBy hnone
    rw [hblock]
    rcases hcycle writerOpen with ⟨hlines, hclosed, hrun⟩ | ⟨htaken, hrun⟩
    · rw [hrun]
      simp [hnone, hlines, hclosed, eq_comm]
    · rw [hrun]
      refine iff_of_false (fun h => (by cases h)) (not_or.mpr ⟨hnone e, ?_⟩)
      rintro ⟨hlines, hclosed, -⟩
      rcases htaken with hempty | hopen
      · exact hlines hempty
      · cases hclosed.symm.trans hopen

theorem unchanged_of_error {writerOpen : Bool} {e : CollectorError}
    (h : (job.cycle writerOpen call).result = .error e) :
    (job.cycle writerOpen call).job.counters = job.counters ∧
      (job.cycle writerOpen call).job.state = job.state := by
  by_cases hended : ∃ failure, job.EndedBy call failure
  · obtain ⟨failure, hended⟩ := hended
    rw [cycle_of_endedBy hended]
    exact ⟨rfl, rfl⟩
  · obtain ⟨encoded, hcounters, hstate, -, hcycle⟩ := cycle_of_not_endedBy (not_exists.mp hended)
    rcases hcycle writerOpen with ⟨-, -, hrun⟩ | ⟨-, hrun⟩
    · rw [hrun]
      exact ⟨hcounters, hstate⟩
    · rw [hrun] at h
      cases h

theorem refused_iff {w : Writer} {writerOpen : Bool} (hw : w.makeRoom.stopped = !writerOpen) (block : List Line)
    (e : OutputError) :
    (w.writeBlock (Line.renderAll block)).2 = .error e ↔ block ≠ [] ∧ writerOpen = false ∧ e = .closed := by
  have hempty : Line.renderAll block ≠ "" ↔ block ≠ [] := by
    refine ⟨fun htext hnil => htext ?_, Line.renderAll_ne_empty⟩
    rw [hnil, Line.renderAll_nil]
  rw [Writer.writeBlock_error_iff, hempty, hw, Bool.not_eq_true']

theorem fails (job : Job) (writerOpen : Bool) (call : Call) : job.Fails writerOpen call := by
  have herror := job.cycle_error_iff writerOpen call
  refine ⟨herror, fun w hw => refused_iff hw _, fun e he => ?_, fun e he => unchanged_of_error he,
    fun e hended => ⟨?_, ?_⟩, fun hnone hempty => ?_⟩
  · rcases (herror e).mp he with ⟨-, -, hkind⟩ | ⟨-, -, rfl⟩
    · exact e.isFatal_iff.mpr hkind
    · rfl
  · rw [cycle_of_endedBy hended]
  · rw [cycle_of_endedBy hended]
  · cases hresult : (job.cycle writerOpen call).result with
    | ok updated => exact ⟨updated, rfl⟩
    | error e =>
      rcases (herror e).mp hresult with hended | ⟨hblock, -⟩
      · exact absurd hended (hnone e)
      · exact absurd hempty hblock

/-! ## Gaps -/

/-- What a call that ended so makes of the charts, unless it ended the job. -/
def encodedOf (job : Job) (ending : Call.Ending) (elapsed : Nat) : Except CollectorError Encoded :=
  (samplesOf ending).map fun data => job.encode (data.getD Samples.empty) elapsed

theorem encodedOf_eq_ok {job : Job} {ending : Call.Ending} {data : Option Samples} (h : samplesOf ending = .ok data)
    (elapsed : Nat) : job.encodedOf ending elapsed = .ok (job.encode (data.getD Samples.empty) elapsed) := by
  rw [encodedOf, h]
  rfl

theorem encodedOf_eq_error_iff {job : Job} {ending : Call.Ending} {elapsed : Nat} {e : CollectorError} :
    job.encodedOf ending elapsed = .error e ↔ samplesOf ending = .error e := by
  unfold encodedOf
  cases samplesOf ending <;> simp [Except.map]

theorem exists_of_encodedOf_eq_ok {job : Job} {ending : Call.Ending} {elapsed : Nat} {encoded : Encoded}
    (h : job.encodedOf ending elapsed = .ok encoded) :
    ∃ data, samplesOf ending = .ok data ∧ job.encode (data.getD Samples.empty) elapsed = encoded := by
  unfold encodedOf at h
  cases hending : samplesOf ending with
  | error e =>
    rw [hending] at h
    cases h
  | ok data =>
    rw [hending] at h
    exact ⟨data, rfl, Except.ok.inj h⟩

/-- Without values no chart is updated, and so the run time is not told. -/
theorem encode_empty (job : Job) (elapsed elapsed' : Nat) :
    job.encode Samples.empty elapsed = job.encode Samples.empty elapsed' := by
  have hfed : job.catalog.fed Samples.empty = [] := by
    rw [Catalog.fed, List.filter_eq_nil_iff]
    intro chart _
    simp [Chart.accepts]
  have hupdated : ¬ 0 < (job.catalog.update Samples.empty job.counters.sinceLast
      job.config.chartCleanup.toNat).updated := by
    rw [Catalog.updated_cycle, hfed]
    simp
  rw [encode_of_not_updated elapsed hupdated, encode_of_not_updated elapsed' hupdated]

theorem samplesOf_of_isGap {ending : Call.Ending} (h : ending.isGap = true) : samplesOf ending = .ok none := by
  cases ending with
  | answered answer =>
    cases answer with
    | ok data => simpa [Call.Ending.isGap, samplesOf] using h
    | error e =>
      rw [Call.Ending.isGap, Bool.not_eq_true'] at h
      simp [samplesOf, h]
  | _ => rfl

theorem encodedOf_filled (job : Job) (ending : Call.Ending) (elapsed elapsed' : Nat) :
    job.encodedOf ending.filled (if ending.isGap then elapsed' else elapsed) = job.encodedOf ending elapsed := by
  unfold Call.Ending.filled
  cases hgap : ending.isGap with
  | false => rfl
  | true =>
    rw [encodedOf_eq_ok (samplesOf_of_isGap hgap)]
    exact congrArg Except.ok (job.encode_empty elapsed' elapsed)

theorem finish_eq (job : Job) (writerOpen : Bool) (outcome : Call.Outcome) :
    job.finish writerOpen outcome =
      match (job.afterCall outcome).encodedOf outcome.ending outcome.elapsed with
      | .error e => ⟨job.afterCall outcome, [], .error e⟩
      | .ok encoded =>
        if !encoded.lines.isEmpty && !writerOpen then ⟨encoded.job, [], .error (.output .closed)⟩
        else ⟨encoded.job.record encoded.updated, encoded.lines, .ok encoded.updated⟩ := by
  unfold finish encodedOf
  cases samplesOf outcome.ending <;> rfl

/-- A cycle depends on its call only by the charts and what is made of them. -/
theorem finish_congr {job : Job} {outcome other : Call.Outcome} (hcatalog : other.catalog = outcome.catalog)
    (hencoded : (job.afterCall outcome).encodedOf other.ending other.elapsed =
      (job.afterCall outcome).encodedOf outcome.ending outcome.elapsed) (writerOpen : Bool) :
    job.finish writerOpen other = job.finish writerOpen outcome := by
  have hafter : job.afterCall other = job.afterCall outcome := by rw [afterCall, afterCall, hcatalog]
  rw [finish_eq, finish_eq, hafter, hencoded]

theorem finish_filled (job : Job) (writerOpen : Bool) (outcome : Call.Outcome) :
    job.finish writerOpen { outcome with ending := outcome.ending.filled } = job.finish writerOpen outcome := by
  let other : Call.Outcome := { outcome with ending := outcome.ending.filled }
  have hcatalog : other.catalog = outcome.catalog := rfl
  have hencoded := (job.afterCall outcome).encodedOf_filled outcome.ending outcome.elapsed outcome.elapsed
  rw [ite_self] at hencoded
  exact finish_congr hcatalog hencoded writerOpen

/-! ### Runs over calls -/

/-- The configuration of a job does not change. -/
theorem config_finish (job : Job) (writerOpen : Bool) (outcome : Call.Outcome) :
    (job.finish writerOpen outcome).job.config = job.config := by
  unfold finish
  dsimp only
  split
  · rfl
  · next data _ =>
    let called := job.afterCall outcome
    have hencode : (called.encode (data.getD Samples.empty) outcome.elapsed).job.config = job.config := by
      rcases called.encode_cases (data.getD Samples.empty) outcome.elapsed with ⟨-, hjob⟩ | ⟨chart, -, -, hjob⟩ <;>
        rw [hjob] <;> rfl
    rcases called.emit_cases writerOpen data outcome.elapsed with ⟨-, -, hemit⟩ | ⟨-, hemit⟩ <;>
      rw [hemit] <;> exact hencode

/-- The run with the calls that were not made filled as well. -/
def Run.filled (limit : Duration) (run : Run) : Run :=
  { run with script := run.script.map (Call.filled limit true) }

theorem goOn_filled {limit : Duration} {cycle : Cycle} {rest : Script} {further further' : Job → Option Run}
    (h : further' cycle.job = (further cycle.job).map (Run.filled limit)) :
    goOn cycle (rest.map (Call.filled limit true)) further' = (goOn cycle rest further).map (Run.filled limit) := by
  have hafter : ∀ run : Run, Run.after cycle.block (run.filled limit) = (run.after cycle.block).filled limit := by
    intro run
    unfold Run.after
    split <;> rfl
  unfold goOn
  cases cycle.result with
  | error e => exact congrArg some (hafter (cycle.job.stop (.fatal e.message) rest))
  | ok updated =>
    dsimp only
    rw [h, Option.map_map, Option.map_map]
    exact congrArg (Option.map · _) (funext hafter)

theorem run?_filled (job : Job) (writerOpen : Bool) (now : Duration) (signal : Option StopSignal) (script : Script) :
    job.run? writerOpen now signal (script.map (Call.filled job.config.timeout true)) =
      (job.run? writerOpen now signal script).map (Run.filled job.config.timeout) := by
  induction script generalizing job signal with
  | nil =>
    rw [List.map_nil]
    unfold run?
    split <;> rfl
  | cons call rest ih =>
    rw [List.map_cons]
    unfold run?
    rcases job.wait now signal with _ | _ | _
    · dsimp only
      rw [Call.run_filled]
      generalize call.run job.config.timeout true job.catalog = outcome
      -- A call that a signal cuts is cut as well once it is filled; every other one is followed by a cycle.
      split
      · next hcancelled =>
        rw [Call.Ending.filled_eq_cancelled_iff] at hcancelled
        simp only [hcancelled]
        rfl
      · next hgoesOn =>
        split
        · next hcancelled => exact absurd (outcome.ending.filled_eq_cancelled_iff.mpr hcancelled) hgoesOn
        · rw [finish_filled]
          refine goOn_filled ?_
          have hrest := ih (job.finish writerOpen outcome).job outcome.signal
          rwa [config_finish] at hrest
    · rfl
    · rfl

/-! ### Runs that may be cut at any moment -/

/-- The collection with no values in the place of a gap. A gap may take any time then. -/
def Collection.filled (k : Collection) (elapsed : Nat) : Collection :=
  { k with ending := k.ending.filled, elapsed := if k.ending.isGap then elapsed else k.elapsed }

/-- Two scripts that differ at most in what calls answered, and not in what is made of it. -/
structure Alike (script other : Nat → Attempt) : Prop where
  writerOpen : ∀ k, (other k).writerOpen = (script k).writerOpen
  changes : ∀ k, (other k).collection.changes = (script k).collection.changes
  encoded : ∀ k (job : Job), job.encodedOf (other k).collection.ending (other k).collection.elapsed =
    job.encodedOf (script k).collection.ending (script k).collection.elapsed

variable {script other : Nat → Attempt}

theorem Alike.symm (h : Alike script other) : Alike other script :=
  ⟨fun k => (h.writerOpen k).symm, fun k => (h.changes k).symm, fun k job => (h.encoded k job).symm⟩

theorem Alike.finish (h : Alike script other) (job : Job) (k : Nat) :
    job.finish (other k).writerOpen ((other k).collection.outcome job.catalog) =
      job.finish (script k).writerOpen ((script k).collection.outcome job.catalog) := by
  have hcatalog : ((other k).collection.outcome job.catalog).catalog =
      ((script k).collection.outcome job.catalog).catalog := by
    rw [Collection.outcome, Collection.outcome, h.changes]
  have hencoded := h.encoded k (job.afterCall ((script k).collection.outcome job.catalog))
  rw [h.writerOpen]
  exact finish_congr hcatalog hencoded _

theorem Alike.after (h : Alike script other) (job : Job) (k : Nat) : job.after other k = job.after script k := by
  induction k with
  | zero => rfl
  | succ k ih =>
    rw [after_succ, after_succ, Job.cycleAt, Job.cycleAt, ih]
    exact congrArg Cycle.job (h.finish _ k)

theorem Alike.cycleAt (h : Alike script other) (job : Job) (k : Nat) : job.cycleAt other k = job.cycleAt script k := by
  rw [Job.cycleAt, Job.cycleAt, h.after]
  exact h.finish _ k

/-- What may happen next does not depend on what calls answered beyond what is made of it. -/
theorem Alike.move (h : Alike script other) {r later : Running} (hmove : Move script r later) :
    Move other r later := by
  cases hmove with
  | signal s hsignal => exact .signal s hsignal
  | stop hphase hsignal => exact .stop hphase hsignal
  | sleep now delay hphase hsignal hdelay => exact .sleep now delay hphase hsignal hdelay
  | cutSleep bound hphase hsignal => exact .cutSleep bound hphase hsignal
  | wake hphase =>
    rw [← h.changes]
    exact .wake hphase
  | change op left hphase => exact .change op left hphase
  | cutCall left hphase hsignal => exact .cutCall left hphase hsignal
  | fail e hphase hending =>
    have hencoded := h.encoded r.count r.job
    rw [encodedOf_eq_error_iff.mpr hending, encodedOf_eq_error_iff] at hencoded
    exact .fail e hphase hencoded
  | encode data hphase hending =>
    have hencoded := h.encoded r.count r.job
    rw [encodedOf_eq_ok hending] at hencoded
    obtain ⟨brought, hother, heq⟩ := exists_of_encodedOf_eq_ok hencoded
    rw [← heq]
    exact .encode brought hphase hother
  | refuse encoded hphase hlines hclosed => exact .refuse encoded hphase hlines (h.writerOpen _ ▸ hclosed)
  | handOver encoded hphase htaken => exact .handOver encoded hphase (h.writerOpen _ ▸ htaken)

theorem Alike.moves (h : Alike script other) {r later : Running} (hmoves : Moves script r later) :
    Moves other r later :=
  Relation.ReflTransGen.mono (fun _ _ => h.move) r later hmoves

/-- A job goes the same way over two scripts: its charts, counters and states, its blocks and results, and whatever
may happen to it while signals come. -/
structure SameRuns (job : Job) (script other : Nat → Attempt) : Prop where
  after : ∀ k, job.after other k = job.after script k
  cycleAt : ∀ k, job.cycleAt other k = job.cycleAt script k
  blocksOf : ∀ k, job.blocksOf other k = job.blocksOf script k
  moves : ∀ r, Moves other { job := job } r ↔ Moves script { job := job } r

theorem Alike.sameRuns (h : Alike script other) (job : Job) : job.SameRuns script other := by
  refine ⟨h.after job, h.cycleAt job, fun k => ?_, fun r => ⟨h.symm.moves, h.moves⟩⟩
  rw [Job.blocksOf, Job.blocksOf]
  simp only [h.cycleAt]

/-- A collection with no values in the place of a gap, which may take any time. -/
def Attempt.filled (attempt : Attempt) (elapsed : Nat) : Attempt :=
  { attempt with collection := attempt.collection.filled elapsed }

theorem alike_filled (script : Nat → Attempt) (times : Nat → Nat) :
    Alike script fun k => (script k).filled (times k) :=
  ⟨fun _ => rfl, fun _ => rfl, fun _ job => job.encodedOf_filled _ _ _⟩

/-- A cycle fails exactly if its call ended with an error that ends the job or the writer refuses its block, and then
counts for nothing. Every other failure of a call is as good as no values: in a cycle, over a script of calls, and in
every run that signals may cut. -/
theorem failures_and_gaps (job : Job) :
    (∀ writerOpen call, job.Fails writerOpen call) ∧
    (∀ (call : Call) limit stoppable catalog, (call.filled limit stoppable).run limit stoppable catalog =
      { call.run limit stoppable catalog with ending := (call.run limit stoppable catalog).ending.filled }) ∧
    (∀ writerOpen call, job.cycle writerOpen (call.filled job.config.timeout false) = job.cycle writerOpen call) ∧
    (∀ writerOpen now signal script,
      job.run? writerOpen now signal (script.map (Call.filled job.config.timeout true)) =
        (job.run? writerOpen now signal script).map (Run.filled job.config.timeout)) ∧
    ∀ (script : Nat → Attempt) (times : Nat → Nat), job.SameRuns script fun k => (script k).filled (times k) := by
  refine ⟨job.fails, Call.run_filled, fun writerOpen call => ?_, job.run?_filled, fun script times => ?_⟩
  · rw [cycle, Call.run_filled, finish_filled, cycle]
  · exact (alike_filled script times).sameRuns job

/-- The collector has the chart taken back and then does not answer. -/
def hanging : Call :=
  { actions := [.change (.obsoleteChart "net"), .hang], answer := .ok none }

/-- A closed writer is in the way of values, but not of a call that brings none. -/
theorem failures_and_gaps_closed_writer :
    (counted.cycle false { answer := .ok (some ⟨[("in", .integer 3)]⟩) }).result = .error (.output .closed) ∧
      (∃ updated, (counted.cycle false hanging).result = .ok updated) ∧
      counted.cycle true { actions := [.change (.obsoleteChart "net")], answer := .ok (some Samples.empty) } =
        counted.cycle true hanging := by
  obtain ⟨hfails, -, hcycle, -⟩ := failures_and_gaps counted
  have hnone : ∀ e, ¬ counted.EndedBy hanging e := by
    rintro e ⟨hending, -⟩
    cases hending
  refine ⟨?_, ?_, hcycle true hanging⟩
  · exact ((hfails false _).error_iff _).mpr (.inr ⟨by decide +kernel, rfl, rfl⟩)
  · exact (hfails false hanging).quiet hnone (by decide +kernel)

end Job

end ChartStream
