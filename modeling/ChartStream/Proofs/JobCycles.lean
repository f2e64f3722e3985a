import ChartStream.Proofs.CatalogInterval
import ChartStream.Proofs.JobStream
import Mathlib.Data.List.Induction

/-!
# Cycles of a job

What a job tells of its cycles, and which charts their blocks are about. Main definitions: `Job.cycles`,
`Job.Created`. Main result: `Job.cycles_accounted`.
-/

namespace ChartStream

set_option autoImplicit false

/-! ## Counting outcomes -/

namespace Counters

/-- How many cycles failed since the last one that succeeded. -/
def trailing (outcomes : List Bool) : Nat :=
  (outcomes.reverse.takeWhile fun updated => !updated).length

theorem trailing_concat (outcomes : List Bool) (updated : Bool) :
    trailing (outcomes ++ [updated]) = if updated then 0 else trailing outcomes + 1 := by
  rw [trailing, List.reverse_append]
  cases updated <;> rfl

theorem two_le_trailing_iff (outcomes : List Bool) : 2 ≤ trailing outcomes ↔ [false, false] <:+ outcomes := by
  rw [← List.reverse_prefix, trailing]
  generalize outcomes.reverse = latest
  match latest with
  | [] => simp
  | [last] => cases last <;> simp
  | true :: before :: rest => simp
  | false :: true :: rest => simp
  | false :: false :: rest => simp

/-- The counters of a job after cycles with these outcomes. -/
structure Tallies (every : Nat) (policy : Backoff) (outcomes : List Bool) (c : Counters) : Prop where
  updateEvery : c.updateEvery = max every 1
  backoff : c.backoff = policy
  runs : c.runs = outcomes.length + 1
  retries : c.retries = min (trailing outcomes) maxRetries
  penalty : c.penalty = policy.penalty c.retries
  collected : c.collected = true ↔ true ∈ outcomes

theorem penalty_zero (policy : Backoff) : policy.penalty 0 = 0 := by
  cases policy <;> rfl

theorem tallies_start (every : Nat) (policy : Backoff) : (start every policy).Tallies every policy [] := by
  refine ⟨rfl, rfl, rfl, rfl, (penalty_zero policy).symm, ?_⟩
  simp [start]

variable {every : Nat} {policy : Backoff} {outcomes : List Bool} {c : Counters}

theorem Tallies.record (h : c.Tallies every policy outcomes) (updated : Bool) :
    (c.record updated).Tallies every policy (outcomes ++ [updated]) := by
  have hruns : c.runs + 1 = (outcomes ++ [updated]).length + 1 := by
    rw [h.runs, List.length_append, List.length_singleton]
  have hretries := trailing_concat outcomes updated
  cases updated with
  | true =>
    refine ⟨h.updateEvery, h.backoff, hruns, ?_, (penalty_zero policy).symm, ?_⟩
    · rw [hretries]
      rfl
    · simp [Counters.record, success]
  | false =>
    refine ⟨h.updateEvery, h.backoff, hruns, ?_, ?_, ?_⟩
    · have hcount : (c.record false).retries = min (c.retries + 1) maxRetries := rfl
      rw [hretries, hcount, h.retries, if_neg (by decide)]
      omega
    · have hpenalty : (c.record false).penalty = c.backoff.penalty (c.record false).retries := rfl
      rw [hpenalty, h.backoff]
    · have hcollected : (c.record false).collected = c.collected := rfl
      rw [hcollected, h.collected]
      simp

theorem Tallies.sinceLast (h : c.Tallies every policy outcomes) :
    c.sinceLast = if true ∈ outcomes then max every 1 else 0 := by
  rw [Counters.sinceLast, h.updateEvery]
  exact if_congr h.collected rfl rfl

end Counters

/-- Failures hold a job back from the second one on, if its settings say so and leave room for it. -/
theorem JobConfig.penalty_pos_iff (config : JobConfig) (failures : Nat) :
    0 < config.backoff.penalty failures ↔
      config.penalty = true ∧ 1 ≤ config.maxPenalty.seconds ∧ 2 ≤ failures := by
  unfold JobConfig.backoff
  cases config.penalty with
  | false => simp [Backoff.penalty]
  | true =>
    have hbase : 0 < max (Duration.ofSeconds config.updateEvery).seconds 1 := by omega
    have hpower : 0 < Nat.pow 2 (min (failures - 1) Backoff.maxDoublings) := Nat.pow_pos (by decide)
    have hstep := Nat.mul_pos hbase hpower
    simp only [if_true, Backoff.ofDurations, Backoff.penalty, true_and]
    split
    · omega
    · rw [Nat.lt_min]
      omega

theorem Counters.Tallies.penalty_pos_iff {config : JobConfig} {every : Nat} {outcomes : List Bool} {c : Counters}
    (h : c.Tallies every config.backoff outcomes) :
    0 < c.penalty ↔ config.penalty = true ∧ 1 ≤ config.maxPenalty.seconds ∧ [false, false] <:+ outcomes := by
  have hretries : 2 ≤ c.retries ↔ [false, false] <:+ outcomes := by
    have hmax : 2 ≤ maxRetries := by decide
    rw [← two_le_trailing_iff, h.retries]
    omega
  rw [h.penalty, config.penalty_pos_iff, hretries]

/-! ## What lines open -/

/-- The declaration of a chart, or a group of its values. -/
inductive Opening where
  | declaration (fullId : String)
  | group (fullId : String)
  deriving DecidableEq

/-- What the line opens. An announcement that takes a chart back declares nothing. -/
def Line.opens? : Line → Option Opening
  | .chart a => if a.obsolete then none else some (.declaration a.fullId)
  | .groupStart id _ => some (.group id)
  | _ => none

namespace Chart

theorem accepts_iff (c : Chart) (data : Samples) :
    c.accepts data = true ↔
      (∃ d ∈ c.dimensions, d.obsolete = false ∧ data.contains d.id = true) ∨
        ∃ v ∈ c.vars, data.contains v.id = true := by
  simp [accepts]

theorem fullId_of_header {c other : Chart} (h : other.toChartHeader = c.toChartHeader) : other.fullId = c.fullId := by
  rw [fullId, fullId, h]

variable (c : Chart) (data : Samples) (sinceLast : Nat)

/-- What a cycle with values for the chart opens: its declaration if that is due, and a group. -/
def openings : List Opening :=
  (if c.revived.state.push then [.declaration c.fullId] else []) ++ [.group c.fullId]

theorem group_mem_openings {id : String} : .group id ∈ c.openings ↔ id = c.fullId := by
  unfold openings
  split <;> simp

theorem opens_declaration : c.declaration.filterMap Line.opens? = [.declaration c.fullId] := by
  simp [declaration, announcement, Line.opens?, List.filterMap_cons, List.filterMap_append, List.filterMap_filterMap]

theorem opens_overture :
    c.overture.filterMap Line.opens? = if c.revived.state.push then [.declaration c.fullId] else [] := by
  unfold overture
  split
  · rw [opens_declaration, fullId_of_header c.header_revived]
  · rfl

theorem opens_group : (c.group data sinceLast).filterMap Line.opens? = [.group c.fullId] := by
  have hvalues : (c.values data).filterMap Line.opens? = [] := by
    rw [List.filterMap_eq_nil_iff]
    intro line hline
    have hkind := c.isValue_values data line.onWire (List.mem_map_of_mem hline)
    cases line <;> simp_all [Line.onWire, Line.isValue, Line.opens?]
  rw [group_eq, List.filterMap_cons, List.filterMap_append, hvalues]
  rfl

theorem opens_update :
    (c.update data sinceLast).lines.filterMap Line.opens? = if c.accepts data then c.openings else [] := by
  cases haccepts : c.accepts data with
  | false =>
    rw [update_of_not_accepts haccepts]
    rfl
  | true =>
    rw [update_of_accepts haccepts, List.filterMap_append, opens_overture, opens_group, fullId_of_header c.header_known]
    rfl

theorem opens_obsoletion : c.obsoletion.filterMap Line.opens? = [] := by
  rw [List.filterMap_eq_nil_iff]
  intro line hline
  rw [mem_obsoletion hline]
  rfl

theorem updated_update : (c.update data sinceLast).updated = c.accepts data := by
  cases haccepts : c.accepts data with
  | false => rw [update_of_not_accepts haccepts]
  | true => rw [update_of_accepts haccepts]

end Chart

namespace Catalog

section Cycle

variable (data : Samples) (sinceLast cleanup : Nat) (c : Catalog)

/-- The charts that there are values for, those that were given up included. -/
def fed : List Chart :=
  c.charts.filter (·.accepts data)

theorem updated_step (chart : Chart) : (step data sinceLast cleanup chart).updated = chart.accepts data := by
  have hupdated := chart.updated_update data sinceLast
  unfold step
  cases haccepts : chart.accepts data <;> rw [haccepts] at hupdated
  · split
    · rfl
    · dsimp only
      split
      · rfl
      · exact hupdated
  · simp [hupdated]

theorem opens_step (chart : Chart) :
    (step data sinceLast cleanup chart).lines.filterMap Line.opens? =
      if chart.accepts data then chart.openings else [] := by
  have hupdate := chart.opens_update data sinceLast
  unfold step
  split
  · next hskipped =>
    rw [Bool.and_eq_true, Bool.not_eq_true'] at hskipped
    rw [hskipped.2]
    rfl
  · dsimp only
    split
    · rw [List.filterMap_append, hupdate, Chart.opens_obsoletion, List.append_nil]
    · exact hupdate

theorem updated_cycle : 0 < (c.update data sinceLast cleanup).updated ↔ c.fed data ≠ [] := by
  have hcount : (c.update data sinceLast cleanup).updated = (c.fed data).length := by
    rw [update, fed, ← List.countP_eq_length_filter, List.countP_map]
    exact List.countP_congr fun chart _ => by simp [updated_step]
  rw [hcount, List.length_pos_iff]

variable {c} {every : Nat}

theorem Uniform.opens_pending (h : c.Uniform every) : c.pending.filterMap Line.opens? = [] := by
  rw [List.filterMap_eq_nil_iff]
  intro line hline
  obtain ⟨a, rfl, hobsolete, -⟩ := h.pending line hline
  rw [Line.opens?, if_pos hobsolete]

theorem opens_cycle (h : c.Uniform every) :
    (c.update data sinceLast cleanup).lines.filterMap Line.opens? = (c.fed data).flatMap Chart.openings := by
  rw [lines_update, List.filterMap_append, h.opens_pending, List.nil_append, fed]
  generalize c.charts = charts
  induction charts with
  | nil => rfl
  | cons chart rest ih =>
    rw [List.flatMap_cons, List.filterMap_append, opens_step, ih, List.filter_cons]
    split <;> rfl

end Cycle

end Catalog

namespace Job

/-! ## Completed cycles -/

/-- The samples of a collection: none if the call brought none. -/
def Collection.samples (k : Collection) : Samples :=
  match k.ending with
  | .answered (.ok (some data)) => data
  | _ => Samples.empty

theorem samples_of_samplesOf {k : Collection} {data : Option Samples} (h : samplesOf k.ending = .ok data) :
    data.getD Samples.empty = k.samples := by
  unfold Collection.samples
  cases hending : k.ending with
  | answered answer =>
    rw [hending] at h
    cases answer with
    | ok brought =>
      cases h
      cases data <;> rfl
    | error e =>
      simp only [samplesOf] at h
      split at h
      · cases h
      · cases h
        rfl
  | _ =>
    rw [hending] at h
    cases h
    rfl

/-- A cycle that came to its end: the job before it, what was collected, the block that was handed over and
whether a chart was updated. -/
structure Completed where
  job : Job
  collection : Collection
  block : List Line
  updated : Bool

/-- What calls came to: the job after them, and the cycles that came to their ends. -/
structure Cycles where
  job : Job
  completed : List Completed

/-- Cycles with an open writer, one for each collection. A cycle that ends with an error is not counted. -/
def cycles (job : Job) : List Collection → Cycles
  | [] => ⟨job, []⟩
  | k :: rest =>
    let cycle := job.finish true (k.outcome job.catalog)
    let further := cycle.job.cycles rest
    match cycle.result with
    | .error _ => further
    | .ok updated => ⟨further.job, ⟨job, k, cycle.block, updated⟩ :: further.completed⟩

/-- Whether charts were updated, cycle by cycle. -/
def Cycles.outcomes (run : Cycles) : List Bool :=
  run.completed.map (·.updated)

/-- The charts of a completed cycle that there were values for, once the call had changed them. -/
def Completed.fed (c : Completed) : List Chart :=
  (c.job.catalog.run c.collection.changes).catalog.fed c.collection.samples

theorem finish_of_error {job : Job} {k : Collection} {e : CollectorError} (h : samplesOf k.ending = .error e)
    (writerOpen : Bool) (catalog : Catalog) :
    job.finish writerOpen (k.outcome catalog) = ⟨job.afterCall (k.outcome catalog), [], .error e⟩ := by
  simp only [finish, Collection.outcome, h]

theorem finish_of_ok {job : Job} {k : Collection} {data : Option Samples} (h : samplesOf k.ending = .ok data)
    (writerOpen : Bool) (catalog : Catalog) :
    job.finish writerOpen (k.outcome catalog) = (job.afterCall (k.outcome catalog)).emit writerOpen data k.elapsed := by
  simp only [finish, Collection.outcome, h]

theorem finish_cases (job : Job) (k : Collection) :
    (∃ e, samplesOf k.ending = .error e ∧
        job.finish true (k.outcome job.catalog) = ⟨job.changed (.cycle k), [], .error e⟩) ∨
      ∃ data encoded, samplesOf k.ending = .ok data ∧
        encoded = (job.changed (.cycle k)).encode k.samples k.elapsed ∧
        job.finish true (k.outcome job.catalog) =
          ⟨encoded.job.record encoded.updated, encoded.lines, .ok encoded.updated⟩ := by
  cases hending : samplesOf k.ending with
  | error e => exact .inl ⟨e, rfl, finish_of_error hending true _⟩
  | ok data =>
    refine .inr ⟨data, _, rfl, rfl, ?_⟩
    rw [finish_of_ok hending, ← samples_of_samplesOf hending]
    simp only [emit, Bool.not_true, Bool.and_false]
    rfl

/-! ## The run time chart -/

/-- The run time chart before or after its first values. -/
def ownAfter (job : Job) (sent : Bool) : Chart :=
  { job.ownChart with state := if sent then .collected else .pending }

theorem accepts_ownAfter (job : Job) (sent : Bool) (millis : Nat) :
    (job.ownAfter sent).accepts (runtimeSamples millis) = true := by
  rfl

theorem update_ownAfter (job : Job) (sent : Bool) (millis sinceLast : Nat) :
    ((job.ownAfter sent).update (runtimeSamples millis) sinceLast).chart = job.ownAfter true := by
  rw [Chart.update_of_accepts (job.accepts_ownAfter sent millis)]
  cases sent <;> rfl

theorem opens_ownAfter (job : Job) (sent : Bool) (millis sinceLast : Nat) :
    ((job.ownAfter sent).update (runtimeSamples millis) sinceLast).lines.filterMap Line.opens? =
      (if sent then [] else [.declaration job.ownChart.fullId]) ++ [.group job.ownChart.fullId] := by
  rw [Chart.opens_update, accepts_ownAfter]
  cases sent <;> rfl

/-! ## From one cycle to the next -/

/-- The job has gone on from `start` through cycles with these outcomes. -/
structure Ongoing (start : Job) (outcomes : List Bool) (job : Job) : Prop where
  tallies : job.counters.Tallies start.config.updateEvery.toNat start.config.backoff outcomes
  uniform : ∃ every, job.catalog.Uniform every
  runtime : job.runtimeChart = if start.monitored then some (start.ownAfter (decide (true ∈ outcomes))) else none
  state : outcomes ≠ [] → job.state = if 0 < job.counters.penalty then .backingOff else .running

/-- What a completed cycle answered and opened, after cycles with the outcomes `earlier`. -/
structure Completed.Accounted (start : Job) (earlier : List Bool) (c : Completed) : Prop where
  updated : c.updated = true ↔ c.fed ≠ []
  opens : c.block.filterMap Line.opens? = c.fed.flatMap Chart.openings ++
    if start.monitored && c.updated then
      (if true ∈ earlier then [] else [.declaration start.ownChart.fullId]) ++ [.group start.ownChart.fullId]
    else []

variable {start job : Job} {outcomes : List Bool}

theorem Ongoing.changed (h : Ongoing start outcomes job) (step : Step) : Ongoing start outcomes (job.changed step) := by
  obtain ⟨every, huniform⟩ := h.uniform
  exact ⟨h.tallies, ⟨every, huniform.run step.changes⟩, h.runtime, h.state⟩

theorem Ongoing.record (h : Ongoing start outcomes job) (updated : Bool) {runtime : Option Chart}
    (hruntime : runtime =
      if start.monitored then some (start.ownAfter (decide (true ∈ outcomes ++ [updated]))) else none) :
    Ongoing start (outcomes ++ [updated]) ({ job with runtimeChart := runtime }.record updated) :=
  ⟨h.tallies.record updated, h.uniform, hruntime, fun _ => rfl⟩

/-- Samples are encoded and the cycle is counted: the run time chart follows exactly if a chart was updated, and it
is declared the first time. -/
theorem Ongoing.encode (h : Ongoing start outcomes job) (data : Samples) (elapsed : Nat) {encoded : Encoded}
    (hencoded : encoded = job.encode data elapsed) :
    Ongoing start (outcomes ++ [encoded.updated]) (encoded.job.record encoded.updated) ∧
      (encoded.updated = true ↔ job.catalog.fed data ≠ []) ∧
      encoded.lines.filterMap Line.opens? = (job.catalog.fed data).flatMap Chart.openings ++
        if start.monitored && encoded.updated then
          (if true ∈ outcomes then [] else [.declaration start.ownChart.fullId]) ++ [.group start.ownChart.fullId]
        else [] := by
  obtain ⟨every, huniform⟩ := h.uniform
  let cycle := job.catalog.update data job.counters.sinceLast job.config.chartCleanup.toNat
  have hopens : cycle.lines.filterMap Line.opens? = _ := Catalog.opens_cycle data _ _ huniform
  have hfed : 0 < cycle.updated ↔ _ := Catalog.updated_cycle data _ _ job.catalog
  have hcharts : Ongoing start outcomes { job with catalog := cycle.catalog } :=
    ⟨h.tallies, ⟨every, huniform.update data _ _⟩, h.runtime, h.state⟩
  cases hupdated : decide (0 < cycle.updated) with
  | false =>
    have heq : encoded = ⟨{ job with catalog := cycle.catalog }, cycle.lines, false⟩ := by
      simp only [hencoded, Job.encode, cycle, hupdated]
    have hnone : ¬ 0 < cycle.updated := of_decide_eq_false hupdated
    subst heq
    refine ⟨hcharts.record false ?_, ?_, ?_⟩
    · rw [hcharts.runtime]
      simp
    · simp [← hfed, hnone]
    · simp [hopens]
  | true =>
    have hsome : 0 < cycle.updated := of_decide_eq_true hupdated
    cases hmonitored : start.monitored with
    | false =>
      have hruntime : job.runtimeChart = none := by rw [h.runtime, hmonitored]; rfl
      have heq : encoded = ⟨{ job with catalog := cycle.catalog }, cycle.lines, true⟩ := by
        simp only [hencoded, Job.encode, cycle, hupdated, hruntime]
      subst heq
      refine ⟨hcharts.record true ?_, ?_, ?_⟩
      · rw [hcharts.runtime, hmonitored]
        rfl
      · simp [← hfed, hsome]
      · simp [hopens]
    | true =>
      let chart := start.ownAfter (decide (true ∈ outcomes))
      let own := chart.update (runtimeSamples elapsed) job.counters.sinceLast
      have hruntime : job.runtimeChart = some chart := by rw [h.runtime, hmonitored]; rfl
      have heq : encoded =
          ⟨{ job with catalog := cycle.catalog, runtimeChart := some own.chart }, cycle.lines ++ own.lines, true⟩ := by
        simp only [hencoded, Job.encode, cycle, hupdated, hruntime, own]
      have hchart : own.chart = start.ownAfter true := update_ownAfter start _ elapsed _
      have hown : own.lines.filterMap Line.opens? = _ := opens_ownAfter start _ elapsed _
      subst heq
      refine ⟨?_, ?_, ?_⟩
      · refine hcharts.record true ?_
        simp [hmonitored, hchart]
      · simp [← hfed, hsome]
      · simp [hopens, hown]

/-- Of each call it is known what it came to: an error that leaves the count as it is, or a completed cycle. -/
theorem Ongoing.finish (h : Ongoing start outcomes job) (k : Collection) :
    (∃ after e, job.finish true (k.outcome job.catalog) = ⟨after, [], .error e⟩ ∧ Ongoing start outcomes after) ∨
      ∃ after block updated, job.finish true (k.outcome job.catalog) = ⟨after, block, .ok updated⟩ ∧
        Ongoing start (outcomes ++ [updated]) after ∧ Completed.Accounted start outcomes ⟨job, k, block, updated⟩ := by
  have hchanged := h.changed (.cycle k)
  rcases job.finish_cases k with ⟨e, -, hfinish⟩ | ⟨data, encoded, -, hencoded, hfinish⟩
  · exact .inl ⟨_, e, hfinish, hchanged⟩
  · obtain ⟨hongoing, hupdated, hopens⟩ := hchanged.encode k.samples k.elapsed hencoded
    exact .inr ⟨_, _, _, hfinish, hongoing, hupdated, hopens⟩

theorem Ongoing.cycles (h : Ongoing start outcomes job) (calls : List Collection) :
    Ongoing start (outcomes ++ (job.cycles calls).outcomes) (job.cycles calls).job ∧
      ∀ before c after, (job.cycles calls).completed = before ++ c :: after →
        c.Accounted start (outcomes ++ before.map (·.updated)) := by
  induction calls generalizing job outcomes with
  | nil =>
    refine ⟨?_, fun before c after hsplit => ?_⟩
    · simpa [Job.cycles, Cycles.outcomes] using h
    · simp [Job.cycles] at hsplit
  | cons k rest ih =>
    rcases h.finish k with ⟨after, e, hfinish, hafter⟩ | ⟨after, block, updated, hfinish, hafter, haccounted⟩
    · have hrun : job.cycles (k :: rest) = after.cycles rest := by rw [Job.cycles, hfinish]
      rw [hrun]
      exact ih hafter
    · have hrun : job.cycles (k :: rest) =
          ⟨(after.cycles rest).job, ⟨job, k, block, updated⟩ :: (after.cycles rest).completed⟩ := by
        rw [Job.cycles, hfinish]
      obtain ⟨hend, hlater⟩ := ih hafter
      rw [hrun]
      refine ⟨?_, fun before c later hsplit => ?_⟩
      · simpa [Cycles.outcomes] using hend
      · cases before with
        | nil =>
          obtain ⟨rfl, -⟩ := List.cons.inj hsplit
          simpa using haccounted
        | cons first before =>
          obtain ⟨rfl, hmore⟩ := List.cons.inj hsplit
          simpa using hlater before c later hmore

/-! ## Jobs with their charts -/

/-- The step is no cycle. -/
def Step.isPreparation : Step → Bool
  | .cycle _ => false
  | _ => true

/-- The charts of the job were created, and it had no cycle so far. -/
def Created (job : Job) : Prop :=
  ∃ (start : Job) (layout : Layout) (before after : List Step), start.Unstarted ∧
    (∀ step ∈ before ++ after, step.isPreparation = true) ∧
    ((start.alone before).job.create layout).2 = .ok () ∧
    (((start.alone before).job.create layout).1.alone after).job = job

/-- The job had no cycle so far. -/
structure Idle (job : Job) : Prop where
  counters : job.counters = Counters.start job.config.updateEvery.toNat job.config.backoff
  uniform : ∃ every, job.catalog.Uniform every
  runtime : job.runtimeChart = none ∨ job.monitored = true ∧ job.runtimeChart = some job.ownChart

/-- The run time chart is there if it is wanted. -/
def Equipped (job : Job) : Prop :=
  job.monitored = true → job.runtimeChart = some job.ownChart

theorem Unstarted.idle {job : Job} (h : job.Unstarted) : job.Idle := by
  obtain ⟨plugin, monitored, module, name, config, rfl⟩ := h
  exact ⟨rfl, ⟨_, Catalog.uniform_empty rfl rfl⟩, .inl rfl⟩

theorem Idle.create {job : Job} (h : job.Idle) (layout : Layout) :
    (job.create layout).1.Idle ∧ (job.Equipped → (job.create layout).1.Equipped) ∧
      ((job.create layout).2 = .ok () → (job.create layout).1.Equipped) := by
  obtain ⟨every, huniform⟩ := h.uniform
  have hcreated := huniform.createAll layout layout.order
  cases hcreate : job.catalog.create layout with
  | mk created error =>
    rw [← Catalog.create, hcreate] at hcreated
    cases error with
    | some e =>
      simp only [Job.create, hcreate]
      exact ⟨⟨h.counters, ⟨every, hcreated⟩, h.runtime⟩, id, fun hok => by cases hok⟩
    | none =>
      simp only [Job.create, hcreate]
      split
      · next hmonitored =>
        exact ⟨⟨h.counters, ⟨every, hcreated⟩, .inr ⟨hmonitored, rfl⟩⟩, fun _ _ => rfl, fun _ _ => rfl⟩
      · next hmonitored =>
        have hnone : Equipped { job with catalog := created } := fun hyes => absurd hyes hmonitored
        exact ⟨⟨h.counters, ⟨every, hcreated⟩, h.runtime⟩, fun _ => hnone, fun _ => hnone⟩

theorem Idle.take {job : Job} (h : job.Idle) {step : Step} (hstep : step.isPreparation = true) :
    (job.take step).1.Idle ∧ (job.Equipped → (job.take step).1.Equipped) := by
  cases step with
  | check k =>
    obtain ⟨every, huniform⟩ := h.uniform
    exact ⟨⟨h.counters, ⟨every, huniform.run k.changes⟩, h.runtime⟩, id⟩
  | create layout => exact ⟨(h.create layout).1, (h.create layout).2.1⟩
  | cycle k => cases hstep

theorem Idle.alone {job : Job} (h : job.Idle) (steps : List Step)
    (hsteps : ∀ step ∈ steps, step.isPreparation = true) :
    (job.alone steps).job.Idle ∧ (job.Equipped → (job.alone steps).job.Equipped) := by
  induction steps generalizing job with
  | nil => exact ⟨h, id⟩
  | cons step rest ih =>
    obtain ⟨hidle, hkept⟩ := h.take (hsteps step List.mem_cons_self)
    obtain ⟨hend, hmore⟩ := ih hidle fun other hother => hsteps other (List.mem_cons_of_mem step hother)
    exact ⟨hend, fun hequipped => hmore (hkept hequipped)⟩

theorem Created.ongoing {job : Job} (h : job.Created) : Ongoing job [] job := by
  obtain ⟨start, layout, before, after, hstart, hsteps, hcreate, rfl⟩ := h
  have hbefore := (hstart.idle.alone before fun step hstep => hsteps step (List.mem_append_left _ hstep)).1
  obtain ⟨hcreated, -, hequipped⟩ := hbefore.create layout
  obtain ⟨hidle, hkept⟩ := hcreated.alone after fun step hstep => hsteps step (List.mem_append_right _ hstep)
  have hruntime := hkept (hequipped hcreate)
  generalize (((start.alone before).job.create layout).1.alone after).job = job at hidle hruntime ⊢
  refine ⟨?_, hidle.uniform, ?_, fun hnone => absurd rfl hnone⟩
  · rw [hidle.counters]
    exact Counters.tallies_start _ _
  · rcases hidle.runtime with hnone | ⟨hmonitored, hown⟩
    · rw [if_neg fun hmonitored => ?_]
      · exact hnone
      · rw [hruntime hmonitored] at hnone
        cases hnone
    · rw [if_pos hmonitored]
      exact hown

/-! ## Accounts -/

/-- What a job tells after a run of cycles, and what the blocks of these open. -/
structure Accounted (start : Job) (run : Cycles) : Prop where
  /-- A cycle answers whether there is a value for some chart, and not whether the chart is given up. -/
  answers : ∀ c ∈ run.completed, c.updated = true ↔
    ∃ chart ∈ (c.job.catalog.run c.collection.changes).catalog.charts,
      (∃ d ∈ chart.dimensions, d.obsolete = false ∧ c.collection.samples.contains d.id = true) ∨
        ∃ v ∈ chart.vars, c.collection.samples.contains v.id = true
  runs : run.job.counters.runs = run.completed.length + 1
  retries : run.job.counters.retries = min (Counters.trailing run.outcomes) Counters.maxRetries
  sinceLast : run.job.counters.sinceLast =
    if true ∈ run.outcomes then max start.config.updateEvery.toNat 1 else 0
  state : run.completed ≠ [] → run.job.state =
    if start.config.penalty = true ∧ 1 ≤ start.config.maxPenalty.seconds ∧ [false, false] <:+ run.outcomes then
      .backingOff
    else .running
  /-- A block opens groups of the charts with values, each after its declaration if that is due. The group of the
  run time chart is the last one; it is there in the cycles that updated a chart, and declared in the first. -/
  opens : ∀ before c after, run.completed = before ++ c :: after →
    c.block.filterMap Line.opens? = c.fed.flatMap Chart.openings ++
      if start.monitored && c.updated then
        (if true ∈ before.map (·.updated) then [] else [.declaration start.ownChart.fullId]) ++
          [.group start.ownChart.fullId]
      else []
  /-- If no other chart has its id, the run time chart is declared at most once in all blocks. -/
  declaredOnce : (∀ c ∈ run.completed, ∀ chart ∈ c.fed, chart.fullId ≠ start.ownChart.fullId) →
    (run.completed.flatMap fun c => c.block.filterMap Line.opens?).count (.declaration start.ownChart.fullId) ≤ 1

theorem count_declaration (start : Job) (completed : List Completed)
    (haccounted : ∀ before c after, completed = before ++ c :: after → c.Accounted start (before.map (·.updated)))
    (hapart : ∀ c ∈ completed, ∀ chart ∈ c.fed, chart.fullId ≠ start.ownChart.fullId) :
    (completed.flatMap fun c => c.block.filterMap Line.opens?).count (.declaration start.ownChart.fullId) =
      if start.monitored = true ∧ true ∈ completed.map (·.updated) then 1 else 0 := by
  induction completed using List.reverseRecOn with
  | nil => simp
  | append_singleton earlier last ih =>
    have hlast := haccounted earlier last [] rfl
    have hearlier := ih
      (fun before c after hsplit => haccounted before c (after ++ [last]) (by rw [hsplit]; simp))
      (fun c hc => hapart c (List.mem_append_left _ hc))
    have hothers : (last.fed.flatMap Chart.openings).count (.declaration start.ownChart.fullId) = 0 := by
      rw [List.count_eq_zero, List.mem_flatMap]
      rintro ⟨chart, hchart, hopening⟩
      have hne := hapart last (List.mem_append_right _ (List.mem_singleton_self _)) chart hchart
      unfold Chart.openings at hopening
      split at hopening <;> simp [hne.symm] at hopening
    rw [List.flatMap_append, List.count_append, hearlier, List.flatMap_singleton, hlast.opens, List.count_append,
      hothers, List.map_append]
    -- The first cycle that updates a chart adds one, and no other cycle adds any.
    cases hmonitored : start.monitored <;> cases hupdated : last.updated <;>
      by_cases hbefore : true ∈ earlier.map (·.updated) <;> simp [hbefore, hupdated]

/-- Whatever its collector brings and does to its charts, a job whose charts were created accounts for every number
of cycles. -/
theorem cycles_accounted (job : Job) (h : job.Created) (calls : List Collection) :
    job.Accounted (job.cycles calls) := by
  obtain ⟨hend, hcycles⟩ := h.ongoing.cycles calls
  rw [List.nil_append] at hend
  refine ⟨fun c hc => ?_, ?_, hend.tallies.retries, hend.tallies.sinceLast, fun hsome => ?_,
    fun before c after hsplit => (hcycles before c after hsplit).opens, fun hapart => ?_⟩
  · obtain ⟨before, after, hsplit⟩ := List.append_of_mem hc
    have hfed : c.fed ≠ [] ↔ ∃ chart ∈ (c.job.catalog.run c.collection.changes).catalog.charts,
        chart.accepts c.collection.samples = true := by
      simp [Completed.fed, Catalog.fed]
    rw [(hcycles before c after hsplit).updated, hfed]
    exact exists_congr fun chart => and_congr_right fun _ => chart.accepts_iff _
  · rw [hend.tallies.runs, Cycles.outcomes, List.length_map]
  · have houtcomes : (job.cycles calls).outcomes ≠ [] := fun hnone => hsome (List.map_eq_nil_iff.mp hnone)
    rw [hend.state houtcomes]
    exact if_congr hend.tallies.penalty_pos_iff rfl rfl
  · rw [count_declaration job _ hcycles hapart]
    split <;> decide

/-- A layout of one chart. -/
def traffic : Layout :=
  Layout.empty.append "net"
    { options := [.null, .string "Traffic", .string "kb", .string "net", .string "net.traffic"]
      lines := [.array [.string "in"]] }

/-- A job with this chart. -/
def counted : Job :=
  ((ofCollector "plugind" true "net" "" {}).create traffic).1

/-- There are samples once; then the chart is given up and calls fail. A call that ends with a fatal error is not
counted. -/
def failing : List Collection :=
  [{ ending := .answered (.ok (some ⟨[("in", .integer 3)]⟩)) },
    { changes := [.obsoleteChart "net"], ending := .timedOut },
    { ending := .answered (.error (.fatal "no more")) },
    { ending := .answered (.error (.network "refused")) }]

/-- The second failure in a row holds the job back. -/
theorem cycles_accounted_held_back :
    counted.Created ∧ (counted.cycles failing).job.state = .backingOff ∧
      (counted.cycles failing).job.counters.retries = 2 ∧ (counted.cycles failing).job.counters.sinceLast = 1 := by
  have hcreated : counted.Created :=
    ⟨_, traffic, [], [], ⟨"plugind", true, "net", "", {}, rfl⟩, by simp, by decide +kernel, rfl⟩
  have haccounted := cycles_accounted counted hcreated failing
  have houtcomes : (counted.cycles failing).outcomes = [true, false, false] := by decide +kernel
  have hsome : (counted.cycles failing).completed ≠ [] := fun hnone => by
    rw [Cycles.outcomes, hnone] at houtcomes
    cases houtcomes
  refine ⟨hcreated, ?_, ?_, ?_⟩
  · rw [haccounted.state hsome, houtcomes]
    decide +kernel
  · rw [haccounted.retries, houtcomes]
    decide
  · rw [haccounted.sinceLast, houtcomes]
    decide +kernel

end Job

end ChartStream
