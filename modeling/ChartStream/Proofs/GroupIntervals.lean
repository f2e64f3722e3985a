import ChartStream.Proofs.ChartHistory

/-!
# The intervals of groups

The first group of a chart after it was built reports no time since the last one, and every other group the
interval that was announced. Main definition: `Job.trace`. Main result: `Job.group_intervals`.
-/

namespace ChartStream

set_option autoImplicit false

open Event

namespace Job

/-! ## The history of a job -/

/-- What a step does: charts are built, then the lines of the catalog's charts are sent, then those of the run time
chart. -/
def events (job : Job) : Step → List Event
  | .check k => job.catalog.history k.changes
  | .create layout =>
    job.catalog.history [.create layout] ++
      match (job.create layout).2 with
      | .ok _ => if job.monitored then [.built .job job.ownChart.fullId] else []
      | .error _ => []
  | .cycle k =>
    let changed := job.changed (.cycle k)
    let theirs := (changed.catalog.update k.samples job.counters.sinceLast job.config.chartCleanup.toNat).lines
    job.catalog.history k.changes ++
      match samplesOf k.ending with
      | .ok _ =>
        theirs.map (.sent .catalog) ++
          ((changed.encode k.samples k.elapsed).lines.drop theirs.length).map (.sent .job)
      | .error _ => []

/-- What some steps do, in order. -/
def trace (job : Job) : List Step → List Event
  | [] => []
  | step :: rest => job.events step ++ (job.take step).1.trace rest

theorem lines_history (c : Catalog) (ops : List Catalog.Operation) : (c.history ops).filterMap Event.line? = [] := by
  rw [List.filterMap_eq_nil_iff]
  intro e he
  obtain ⟨id, rfl⟩ := Catalog.built_of_mem_history he
  rfl

theorem lines_sent (owner : Owner) (lines : List Line) :
    (lines.map (Event.sent owner)).filterMap Event.line? = lines := by
  rw [List.filterMap_map]
  exact List.filterMap_some

theorem encode_of_not_updated {job : Job} {data : Samples} (elapsed : Nat)
    (h : ¬ 0 < (job.catalog.update data job.counters.sinceLast job.config.chartCleanup.toNat).updated) :
    job.encode data elapsed =
      ⟨{ job with catalog := (job.catalog.update data job.counters.sinceLast job.config.chartCleanup.toNat).catalog },
        (job.catalog.update data job.counters.sinceLast job.config.chartCleanup.toNat).lines, false⟩ := by
  simp only [encode, h, decide_false]

theorem updated_encode {job : Job} {data : Samples} (elapsed : Nat)
    (h : 0 < (job.catalog.update data job.counters.sinceLast job.config.chartCleanup.toNat).updated) :
    (job.encode data elapsed).updated = true := by
  unfold encode
  dsimp only
  split
  · exact decide_eq_true h
  · exact decide_eq_true h

/-- The history has the lines of the blocks, in order. -/
theorem lines_events (job : Job) (step : Step) :
    (job.events step).filterMap Event.line? = (job.take step).2 := by
  cases step with
  | check k => exact lines_history _ _
  | create layout =>
    rw [events, List.filterMap_append, lines_history]
    split
    · split <;> rfl
    · rfl
  | cycle k =>
    rw [events, List.filterMap_append, lines_history, List.nil_append, take]
    rcases job.finish_cases k with ⟨e, hending, hfinish⟩ | ⟨data, encoded, hending, hencoded, hfinish⟩
    · simp only [hending, hfinish]
      rfl
    · simp only [hending, hfinish]
      rw [List.filterMap_append, lines_sent, lines_sent, hencoded]
      rcases (job.changed (.cycle k)).encode_cases k.samples k.elapsed with ⟨hlines, -⟩ | ⟨chart, -, hlines, -⟩
      · rw [hlines]
        exact List.append_right_eq_self.mpr List.drop_length
      · rw [hlines]
        exact congrArg (_ ++ ·) List.drop_left

theorem lines_trace (job : Job) (steps : List Step) :
    (job.trace steps).filterMap Event.line? = (job.alone steps).blocks.flatten := by
  induction steps generalizing job with
  | nil => rfl
  | cons step rest ih =>
    rw [trace, List.filterMap_append, lines_events, ih, alone]
    dsimp only
    split
    · next hempty => rw [List.isEmpty_iff.mp hempty, List.nil_append]
    · rfl

/-! ## What the job keeps -/

/-- The job keeps to one interval, and what it knows of its charts is what its history says. -/
structure Recorded (every : Nat) (job : Job) (history : List Event) : Prop where
  interval : job.counters.updateEvery = every
  catalog : job.catalog.Recorded every history
  honest : Honest every history
  runtime : ∀ chart, job.runtimeChart = some chart → chart.Recorded .job history ∧ chart.updateEvery = every
  collected : ∀ owner id n, .sent owner (.groupStart id n) ∈ history → job.counters.collected = true

variable {every : Nat} {job : Job} {history : List Event}

/-- A chart that had a group is told the interval. -/
theorem Recorded.sinceLast (h : job.Recorded every history) {owner : Owner} {chart : Chart}
    (hchart : chart.Recorded owner history) (hupdated : chart.state.isUpdated = true) :
    job.counters.sinceLast = every := by
  rw [hchart.updated] at hupdated
  obtain ⟨n, hmem⟩ := mem_of_begun hupdated
  rw [Counters.sinceLast, if_pos (h.collected owner _ n hmem)]
  exact h.interval

theorem apart_of_owner {owner o : Owner} (hne : owner ≠ o) (id : String) (lines : List Line) :
    ∀ e ∈ lines.map (Event.sent o), e ≠ .built owner id ∧ begins owner id e = false := by
  intro e he
  obtain ⟨line, -, rfl⟩ := List.mem_map.mp he
  refine ⟨fun hbuilt => (by cases hbuilt), ?_⟩
  cases line with
  | groupStart other n => simp [begins, hne.symm]
  | _ => rfl

theorem Recorded.changed (h : job.Recorded every history) {step : Step}
    (hsilent : ∀ op ∈ step.changes, op.isSilent = true) :
    (job.changed step).Recorded every (history ++ job.catalog.history step.changes) := by
  have hbuilt : ∀ e ∈ job.catalog.history step.changes, ∃ id, e = .built .catalog id :=
    fun e he => Catalog.built_of_mem_history he
  have hnot : ∀ owner line, .sent owner line ∉ job.catalog.history step.changes := by
    intro owner line hmem
    obtain ⟨id, heq⟩ := hbuilt _ hmem
    cases heq
  refine ⟨h.interval, h.catalog.run step.changes hsilent,
    h.honest.append_silent hnot,
    fun chart hchart => ?_, fun owner id n hmem => ?_⟩
  · obtain ⟨hrecorded, hevery⟩ := h.runtime chart hchart
    refine ⟨hrecorded.append fun e he => ?_, hevery⟩
    obtain ⟨id, rfl⟩ := hbuilt e he
    exact ⟨fun heq => (by cases heq), rfl⟩
  · rcases List.mem_append.mp hmem with hmem | hmem
    · exact h.collected owner id n hmem
    · exact absurd hmem (hnot owner _)

/-- The run time chart is built, for the first time or again. -/
theorem Recorded.equipped (h : job.Recorded every history) :
    ({ job with runtimeChart := some job.ownChart }).Recorded every
      (history ++ [Event.built .job job.ownChart.fullId]) := by
  have hnot : ∀ owner line, .sent owner line ∉ [Event.built .job job.ownChart.fullId] := by simp
  refine ⟨h.interval, ⟨h.catalog.coherent, h.catalog.uniform, fun chart hchart => ?_⟩,
    h.honest.append_silent hnot,
    fun chart hchart => ?_, fun owner id n hmem => ?_⟩
  · refine (h.catalog.charts chart hchart).append fun e he => ?_
    cases List.mem_singleton.mp he
    exact ⟨fun heq => (by cases heq), rfl⟩
  · cases hchart
    refine ⟨Chart.recorded_of_pending rfl ?_, h.interval⟩
    rw [begun_concat]
    simp
  · rcases List.mem_append.mp hmem with hmem | hmem
    · exact h.collected owner id n hmem
    · exact absurd hmem (hnot owner _)

/-- The lines of a cycle: those of the catalog's charts, then those of the run time chart. -/
theorem Recorded.encode (h : job.Recorded every history) (data : Samples) (elapsed : Nat) {theirs : List Line}
    (htheirs : theirs = (job.catalog.update data job.counters.sinceLast job.config.chartCleanup.toNat).lines)
    {encoded : Encoded} (hencoded : encoded = job.encode data elapsed) :
    (encoded.job.record encoded.updated).Recorded every
      (history ++ (theirs.map (.sent .catalog) ++ (encoded.lines.drop theirs.length).map (.sent .job))) := by
  obtain ⟨hsent, hcatalog⟩ := h.catalog.update data job.config.chartCleanup.toNat h.honest
    fun chart hchart hupdated => h.sinceLast (h.catalog.charts chart hchart) hupdated
  rw [← htheirs] at hsent hcatalog
  have hruntime : ∀ chart, job.runtimeChart = some chart →
      chart.Recorded .job (history ++ theirs.map (.sent .catalog)) ∧ chart.updateEvery = every := by
    intro chart hchart
    obtain ⟨hrecorded, hevery⟩ := h.runtime chart hchart
    exact ⟨hrecorded.append (apart_of_owner (by decide) _ _), hevery⟩
  by_cases hupdated : 0 < (job.catalog.update data job.counters.sinceLast job.config.chartCleanup.toNat).updated
  · have htrue : encoded.updated = true := hencoded ▸ updated_encode elapsed hupdated
    rw [htrue]
    rcases job.encode_cases data elapsed with ⟨hlines, hjob⟩ | ⟨chart, hchart, hlines, hjob⟩ <;>
      rw [← hencoded, ← htheirs] at hlines <;> rw [← hencoded] at hjob
    · rw [hlines, List.drop_length, List.map_nil, List.append_nil, hjob]
      exact ⟨h.interval, hcatalog, hsent, hruntime, fun _ _ _ _ => rfl⟩
    · obtain ⟨hrecorded, hevery⟩ := hruntime chart hchart
      obtain ⟨hend, hown⟩ := hrecorded.update hsent hevery (runtimeSamples elapsed)
        fun hupdated => h.sinceLast (h.runtime chart hchart).1 hupdated
      rw [hlines, List.drop_left, ← List.append_assoc, hjob]
      refine ⟨h.interval, ⟨hcatalog.coherent, hcatalog.uniform, fun other hother => ?_⟩, hend,
        fun other hother => ?_, fun _ _ _ _ => rfl⟩
      · exact (hcatalog.charts other hother).append (apart_of_owner (by decide) _ _)
      · cases hother
        exact ⟨hown, (congrArg ChartHeader.updateEvery (chart.header_update _ _)).trans hevery⟩
  · rw [encode_of_not_updated elapsed hupdated, ← htheirs] at hencoded
    have hopens : theirs.filterMap Line.opens? = [] := by
      have hfed : job.catalog.fed data = [] := not_not.mp (mt (Catalog.updated_cycle data _ _ job.catalog).mpr hupdated)
      rw [htheirs, Catalog.opens_cycle data _ _ h.catalog.uniform, hfed]
      rfl
    subst hencoded
    rw [List.drop_length, List.map_nil, List.append_nil]
    refine ⟨h.interval, hcatalog, hsent, hruntime, fun owner id n hmem => ?_⟩
    rcases List.mem_append.mp hmem with hmem | hmem
    · exact h.collected owner id n hmem
    · have hgroup := group_of_begins hmem
      rw [hopens] at hgroup
      cases hgroup

theorem Recorded.take (h : job.Recorded every history) {step : Step}
    (hsilent : ∀ op ∈ step.changes, op.isSilent = true) :
    (job.take step).1.Recorded every (history ++ job.events step) := by
  have hchanged := h.changed hsilent
  cases step with
  | check k => exact hchanged
  | create layout =>
    rw [events, ← List.append_assoc]
    cases hcreate : job.catalog.create layout with
    | mk created error =>
      have hcatalog : job.changed (.create layout) = { job with catalog := created } := by
        cases error <;> simp only [Job.changed, Step.changes, Catalog.run, Catalog.apply, hcreate]
      rw [hcatalog] at hchanged
      cases error with
      | some e =>
        simp only [Job.take, create, hcreate, List.append_nil]
        exact hchanged
      | none =>
        simp only [Job.take, create, hcreate]
        split
        · exact hchanged.equipped
        · rw [List.append_nil]
          exact hchanged
  | cycle k =>
    rw [events, ← List.append_assoc, Job.take]
    rcases job.finish_cases k with ⟨e, hending, hfinish⟩ | ⟨data, encoded, hending, hencoded, hfinish⟩
    · simp only [hending, hfinish, List.append_nil]
      exact hchanged
    · simp only [hending, hfinish]
      have hcycle := hchanged.encode k.samples k.elapsed rfl hencoded
      rw [hencoded] at hcycle ⊢
      exact hcycle

theorem Recorded.alone (h : job.Recorded every history) (steps : List Step)
    (hsilent : ∀ step ∈ steps, ∀ op ∈ step.changes, op.isSilent = true) :
    (job.alone steps).job.Recorded every (history ++ job.trace steps) := by
  induction steps generalizing job history with
  | nil => rwa [trace, List.append_nil]
  | cons step rest ih =>
    have hstep := h.take (hsilent step List.mem_cons_self)
    rw [trace, ← List.append_assoc]
    exact ih hstep fun other hother => hsilent other (List.mem_cons_of_mem step hother)

theorem Unstarted.recorded (h : job.Unstarted) : job.Recorded job.counters.updateEvery [] := by
  have hcoherent := h.coherent.catalog
  obtain ⟨plugin, monitored, module, name, config, rfl⟩ := h
  let job := ofCollector plugin monitored module name config
  have huniform : job.catalog.Uniform job.catalog.updateEvery := Catalog.uniform_empty rfl rfl
  refine ⟨rfl, ⟨hcoherent, huniform, ?_⟩, .empty _, ?_, ?_⟩
  · exact fun _ hmem => by cases hmem
  · exact fun _ hmem => by cases hmem
  · exact fun _ _ _ hmem => by cases hmem

/-- In the history of every job the lines of its blocks are those of its events; each group reports nothing if it
is the first one since its chart was built, and otherwise the interval of the latest declaration of the chart.
Whatever is announced has the interval of the job, which is a second at least. -/
theorem group_intervals (job : Job) (h : job.Unstarted) (steps : List Step)
    (hsilent : ∀ step ∈ steps, ∀ op ∈ step.changes, op.isSilent = true) :
    (job.trace steps).filterMap Event.line? = (job.alone steps).blocks.flatten ∧
    (∀ before owner id n after, job.trace steps = before ++ .sent owner (.groupStart id n) :: after →
      ∃ a ∈ lastDeclaration? owner id before, n = if begun owner id before then a.updateEvery else 0) ∧
    (∀ owner a, .sent owner (.chart a) ∈ job.trace steps → a.updateEvery = job.counters.updateEvery) ∧
    1 ≤ job.counters.updateEvery := by
  have hpositive : 1 ≤ job.counters.updateEvery := by
    obtain ⟨plugin, monitored, module, name, config, rfl⟩ := h
    exact Counters.one_le_updateEvery_start _ _
  have hhonest := (h.recorded.alone steps hsilent).honest
  rw [List.nil_append] at hhonest
  refine ⟨job.lines_trace steps, fun before owner id n after hsplit => ?_, hhonest.announcements, hpositive⟩
  obtain ⟨hn, hdeclared⟩ := hhonest.groups before owner id n after hsplit
  have hbefore : Honest job.counters.updateEvery before := .of_append (hsplit ▸ hhonest)
  obtain ⟨a, ha, hevery⟩ := hbefore.lastDeclaration hdeclared
  exact ⟨a, ha, by rw [hn, hevery]⟩

/-- A job with an interval of five seconds. -/
def gauge : Job :=
  ofCollector "plugind" true "net" "" { updateEvery := 5 }

/-- There are values in three cycles. The chart is replaced before the last one. -/
def replacing : List Step :=
  [.create traffic,
    .cycle { ending := .answered (.ok (some ⟨[("in", .integer 3)]⟩)) },
    .cycle { ending := .answered (.ok (some ⟨[("in", .integer 4)]⟩)) },
    .cycle
      { changes := [.replaceChart (.array [.string "net", .null, .string "Traffic", .string "kb", .string "net",
            .string "net.traffic"]), .onChart "net" (.insertDimension (.ofId "in"))]
        ending := .answered (.ok (some ⟨[("in", .integer 5)]⟩)) }]

/-- The time that a group reports. -/
def reported? : Line → Option Nat
  | .groupStart _ n => some n
  | _ => none

/-- The chart that was replaced starts again; the run time chart goes on. -/
theorem group_intervals_replaced :
    (gauge.alone replacing).blocks.flatten.filterMap reported? = [0, 0, 5, 5, 0, 5] ∧
      ∀ owner a, .sent owner (.chart a) ∈ gauge.trace replacing → a.updateEvery = 5 := by
  have hsilent : ∀ step ∈ replacing, ∀ op ∈ step.changes, op.isSilent = true := by
    simp [replacing, Step.changes, Catalog.Operation.isSilent, Chart.Operation.isTopology]
  obtain ⟨hlines, -, hannounced, -⟩ := group_intervals gauge ⟨"plugind", true, "net", "", _, rfl⟩ replacing hsilent
  refine ⟨?_, hannounced⟩
  rw [← hlines]
  decide +kernel

end Job

end ChartStream
