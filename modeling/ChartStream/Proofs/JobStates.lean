import ChartStream.Proofs.CycleErrors

/-!
# The state of a job from call to call

A job is checked, gets its charts, does single cycles and runs, in any order. A run leaves it terminated, and it stays
so until a cycle is counted. Main definitions: `Job.Returns`, `Job.Lives`. Main result: `Job.terminated_until_counted`.
-/

namespace ChartStream.Job

set_option autoImplicit false

/-! ## Calls that return -/

/-- What a call on a job was and came to. -/
inductive Returned where
  | checked
  | created
  | cycled (result : Except CollectorError Bool)
  | ran (exit : Exit)

/-- The call was a run. -/
def Returned.isRun : Returned → Bool
  | .ran _ => true
  | _ => false

/-- The call was a cycle, and the job counted it. -/
def Returned.isCounted : Returned → Bool
  | .cycled (.ok _) => true
  | _ => false

/-- A call on a job returns and leaves it so. The collector may do anything, the writer may be closed, and a run may
be stopped at any moment. -/
inductive Returns (job : Job) : Returned → Job → Prop
  | check (k : Collection) : Returns job .checked (job.afterCall (k.outcome job.catalog))
  | create (layout : Layout) : Returns job .created (job.create layout).1
  | cycle (attempt : Attempt) (c : Cycle)
      (hcycle : job.finish attempt.writerOpen (attempt.collection.outcome job.catalog) = c) :
      Returns job (.cycled c.result) c.job
  | run (script : Nat → Attempt) (r : Running) (exit : Exit) (hmoves : Moves script { job := job } r)
      (hphase : r.phase = .ended exit) : Returns job (.ran exit) r.job

/-- Calls on a job in order, the last one at the end, and what they leave. -/
inductive Lives (job : Job) : List Returned → Job → Prop
  | start : Lives job [] job
  | call {past : List Returned} {reached later : Job} {returned : Returned} (h : Lives job past reached)
      (hcall : Returns reached returned later) : Lives job (past ++ [returned]) later

variable {job later : Job} {returned : Returned}

theorem returns_check (job : Job) (call : Call) : Returns job .checked (job.check call).1 := by
  obtain ⟨k, -, hcalled, -⟩ := exists_collection call job.config.timeout false job
  have hcheck : (job.check call).1 = job.afterCall (call.run job.config.timeout false job.catalog) := rfl
  rw [hcheck, hcalled]
  exact .check k

theorem returns_cycle (job : Job) (writerOpen : Bool) (call : Call) :
    Returns job (.cycled (job.cycle writerOpen call).result) (job.cycle writerOpen call).job := by
  obtain ⟨k, -, -, hfinish⟩ := exists_collection call job.config.timeout false job
  exact .cycle ⟨k, writerOpen⟩ _ (hfinish writerOpen).symm

theorem returns_run {writerOpen : Bool} {now : Duration} {signal : Option StopSignal} {script : Script} {run : Run}
    (h : job.run? writerOpen now signal script = some run) : Returns job (.ran run.exit) run.job := by
  obtain ⟨attempts, r, hmoves, hphase, hjob, -⟩ := moves_of_run? h
  rw [← hjob]
  exact .run attempts r run.exit hmoves hphase

/-! ## What a call does to the state -/

/-- The state that a call leaves, with so much of a penalty, if it found the job in the state `before`. -/
def Returned.leaves (before : State) (penalty : Nat) : Returned → State
  | .cycled (.ok _) => if 0 < penalty then .backingOff else .running
  | .ran _ => .terminated
  | _ => before

theorem Returned.leaves_of_isCounted (h : returned.isCounted = true) (before : State) (penalty : Nat) :
    returned.leaves before penalty = if 0 < penalty then .backingOff else .running := by
  cases returned with
  | cycled result =>
    cases result with
    | ok updated => rfl
    | error e => cases h
  | _ => cases h

theorem Returned.leaves_of_not (hrun : returned.isRun = false) (hcounted : returned.isCounted = false)
    (before : State) (penalty : Nat) : returned.leaves before penalty = before := by
  cases returned with
  | cycled result =>
    cases result with
    | ok updated => cases hcounted
    | error e => rfl
  | ran exit => cases hrun
  | _ => rfl

theorem create_counters (job : Job) (layout : Layout) :
    (job.create layout).1.counters = job.counters ∧ (job.create layout).1.state = job.state := by
  unfold create
  split
  · exact ⟨rfl, rfl⟩
  · dsimp only
    split <;> exact ⟨rfl, rfl⟩

/-- A cycle that ends with an error leaves counters and state alone; any other one is counted. -/
theorem finish_attempt (job : Job) (attempt : Attempt) :
    let cycle := job.finish attempt.writerOpen (attempt.collection.outcome job.catalog)
    (∃ e, cycle.result = .error e) ∧ cycle.job.counters = job.counters ∧ cycle.job.state = job.state ∨
      (∃ updated, cycle.result = .ok updated) ∧
        cycle.job.state = if 0 < cycle.job.counters.penalty then .backingOff else .running := by
  intro cycle
  cases hending : samplesOf attempt.collection.ending with
  | error e =>
    have hcycle : cycle = _ := finish_of_error hending attempt.writerOpen job.catalog
    rw [hcycle]
    exact .inl ⟨⟨e, rfl⟩, rfl, rfl⟩
  | ok data =>
    let called := job.afterCall (attempt.collection.outcome job.catalog)
    have hcycle : cycle = called.emit attempt.writerOpen data attempt.collection.elapsed :=
      finish_of_ok hending attempt.writerOpen job.catalog
    rcases called.emit_cases attempt.writerOpen data attempt.collection.elapsed with
      ⟨-, -, hemit⟩ | ⟨-, hemit⟩ <;> rw [hcycle, hemit]
    · exact .inl ⟨⟨_, rfl⟩, counters_encode _ _ _, state_encode _ _ _⟩
    · exact .inr ⟨⟨_, rfl⟩, rfl⟩

theorem state_of_returns (h : Returns job returned later) :
    later.state = returned.leaves job.state later.counters.penalty := by
  cases h with
  | check k => rfl
  | create layout => exact (job.create_counters layout).2
  | cycle attempt c hcycle =>
    subst hcycle
    rcases job.finish_attempt attempt with ⟨⟨e, hresult⟩, -, hstate⟩ | ⟨⟨updated, hresult⟩, hstate⟩ <;>
      rw [hresult] <;> exact hstate
  | run script r exit hmoves hphase => exact ((cut_between_cycles job script r hmoves).exit exit hphase).1

/-- Only counted cycles count, alone or in a run. -/
theorem counters_of_returns (h : Returns job returned later) (hrun : returned.isRun = false)
    (hcounted : returned.isCounted = false) : later.counters = job.counters := by
  cases h with
  | check k => rfl
  | create layout => exact (job.create_counters layout).1
  | cycle attempt c hcycle =>
    subst hcycle
    rcases job.finish_attempt attempt with ⟨-, hcounters, -⟩ | ⟨⟨updated, hresult⟩, -⟩
    · exact hcounters
    · rw [hresult] at hcounted
      cases hcounted
  | run => cases hrun

/-! ## After a run -/

/-- Since the last run no cycle was counted, and the job is terminated still; or one was, and it is not. -/
theorem state_after_run {past before after : List Returned} {exit : Exit} (h : Lives job past later)
    (hpast : past = before ++ .ran exit :: after) (hlast : ∀ call ∈ after, call.isRun = false) :
    (∀ call ∈ after, call.isCounted = false) ∧ later.state = .terminated ∨
      (∃ call ∈ after, call.isCounted = true) ∧
        later.state = if 0 < later.counters.penalty then .backingOff else .running := by
  induction h generalizing after with
  | start => simp at hpast
  | @call past reached later returned hbefore hcall ih =>
    have hstate := state_of_returns hcall
    rcases List.eq_nil_or_concat after with rfl | ⟨earlier, last, rfl⟩
    · obtain ⟨-, hran⟩ := List.append_inj' hpast rfl
      cases hran
      exact .inl ⟨by simp, hstate⟩
    · rw [List.concat_eq_append] at hpast hlast ⊢
      rw [← List.cons_append, ← List.append_assoc] at hpast
      obtain ⟨rfl, hsame⟩ := List.append_inj' hpast rfl
      cases hsame
      have hrun := hlast returned (List.mem_append_right _ (List.mem_singleton_self _))
      cases hcounted : returned.isCounted with
      | true =>
        rw [Returned.leaves_of_isCounted hcounted] at hstate
        exact .inr ⟨⟨returned, List.mem_append_right _ (List.mem_singleton_self _), hcounted⟩, hstate⟩
      | false =>
        -- The call leaves state and penalty as they were.
        rw [Returned.leaves_of_not hrun hcounted] at hstate
        rcases ih rfl fun call hmem => hlast call (List.mem_append_left _ hmem) with
          ⟨hnone, hterminated⟩ | ⟨⟨call, hmem, hsome⟩, hheld⟩
        · refine .inl ⟨fun call hmem => ?_, hstate.trans hterminated⟩
          rcases List.mem_append.mp hmem with hmem | hmem
          · exact hnone call hmem
          · rwa [List.mem_singleton.mp hmem]
        · refine .inr ⟨⟨call, List.mem_append_left _ hmem, hsome⟩, ?_⟩
          rw [hstate, hheld, counters_of_returns hcall hrun hcounted]

/-- From the return of a run on, a job is terminated until a cycle is counted; from then on, until the next run, its
state tells whether it is held back. -/
theorem terminated_until_counted (job later : Job) (before after : List Returned) (exit : Exit)
    (h : Lives job (before ++ .ran exit :: after) later) (hlast : ∀ call ∈ after, call.isRun = false) :
    (later.state = .terminated ↔ ∀ call ∈ after, call.isCounted = false) ∧
      ((∃ call ∈ after, call.isCounted = true) →
        later.state = if 0 < later.counters.penalty then .backingOff else .running) := by
  rcases state_after_run h rfl hlast with ⟨hnone, hterminated⟩ | ⟨⟨call, hmem, hcounted⟩, hstate⟩
  · refine ⟨iff_of_true hterminated hnone, fun ⟨call, hmem, hcounted⟩ => ?_⟩
    cases (hnone call hmem).symm.trans hcounted
  · refine ⟨iff_of_false (fun hterminated => ?_) fun hnone => ?_, fun _ => hstate⟩
    · rw [hstate] at hterminated
      split at hterminated <;> cases hterminated
    · cases (hnone call hmem).symm.trans hcounted

/-- A run that was stopped at once. -/
theorem run?_counted : counted.run? true .zero (some .requested) [] = some (counted.stop .shutdown []) :=
  run?_requested true .zero counted []

/-- A check and a cycle that fails leave a job terminated that was stopped. -/
theorem terminated_until_counted_failure :
    ∃ later result, Lives counted ([] ++ .ran .shutdown :: [.checked, .cycled result]) later ∧
      (∀ call ∈ [Returned.checked, .cycled result], call.isRun = false) ∧ later.state = .terminated := by
  let stopped := (counted.stop .shutdown []).job
  let call : Call := { answer := .error (.fatal "gone") }
  let checked := (stopped.check call).1
  have hlives : Lives counted [.ran .shutdown, .checked, .cycled (checked.cycle true call).result]
      (checked.cycle true call).job :=
    .call (.call (.call .start (returns_run run?_counted)) (stopped.returns_check call))
      (checked.returns_cycle true call)
  have hlast : ∀ c ∈ [Returned.checked, .cycled (checked.cycle true call).result], c.isRun = false := by
    simp [Returned.isRun]
  have hfailed : (Returned.cycled (checked.cycle true call).result).isCounted = false := by decide +kernel
  obtain ⟨hiff, -⟩ := terminated_until_counted counted _ [] _ .shutdown hlives hlast
  refine ⟨_, _, hlives, hlast, hiff.mpr fun c hc => ?_⟩
  rcases List.mem_pair.mp hc with rfl | rfl
  · rfl
  · exact hfailed

/-- A cycle after the run takes the job back into the running state. -/
theorem running_after_run :
    let stopped := (counted.stop .shutdown []).job
    let cycle := stopped.cycle true { answer := .ok (some ⟨[("in", .integer 3)]⟩) }
    Lives counted [.ran .shutdown, .cycled cycle.result] cycle.job ∧ stopped.state = .terminated ∧
      cycle.job.state = .running := by
  intro stopped cycle
  exact ⟨.call (.call .start (returns_run run?_counted)) (stopped.returns_cycle true _), rfl, by decide +kernel⟩

end ChartStream.Job
