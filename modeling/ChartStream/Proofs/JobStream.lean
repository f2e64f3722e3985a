import ChartStream.Job.Run
import ChartStream.Proofs.CatalogStream

/-!
# The stream of a job

What a job sends if it is alone, block after block. Main definitions: `Job.Step`, `Job.alone`. Main result:
`Job.admits_alone`. The runs of `Job.run?` are such streams (`Job.run?_alone`).
-/

namespace ChartStream

set_option autoImplicit false

/-- The operation changes charts and sends nothing. -/
def Catalog.Operation.isSilent : Catalog.Operation → Bool
  | .update _ _ _ => false
  | .onChart _ op => op.isTopology
  | _ => true

theorem Catalog.isRegular_of_isSilent {op : Catalog.Operation} (h : op.isSilent = true) :
    op.isRegular = true := by
  cases op with
  | update data sinceLast cleanup => cases h
  | onChart id operation => exact h
  | _ => rfl

theorem Catalog.lines_run_of_isSilent (c : Catalog) (ops : List Catalog.Operation)
    (h : ∀ op ∈ ops, op.isSilent = true) : (c.run ops).lines = [] := by
  induction ops generalizing c with
  | nil => rfl
  | cons op rest ih =>
    have hop : (c.apply op).lines = [] := by
      cases op with
      | update data sinceLast cleanup => cases h _ List.mem_cons_self
      | onChart id operation =>
        cases hget : c.get? id with
        | none => simp only [apply, hget]
        | some held =>
          simp only [apply, hget]
          exact held.lines_of_isTopology (h _ List.mem_cons_self)
      | create layout =>
        cases hcreate : c.create layout with
        | mk created error => cases error <;> simp only [apply, hcreate]
      | addChart params => cases hadd : c.addChart params <;> simp only [apply, hadd, Effect.ofExcept]
      | replaceChart params =>
        cases hreplace : c.replaceChart params <;> simp only [apply, hreplace, Effect.ofExcept]
      | obsoleteChart id => rfl
    rw [run, hop, List.nil_append]
    exact ih _ fun other hother => h other (List.mem_cons_of_mem op hother)

namespace Job

/-! ## Steps of a job -/

/-- What came of a call: how it changed the charts, how it ended and how many milliseconds it took. -/
structure Collection where
  changes : List Catalog.Operation := []
  ending : Call.Ending
  elapsed : Nat := 0

/-- The outcome of such a call on charts. -/
def Collection.outcome (k : Collection) (catalog : Catalog) : Call.Outcome :=
  { catalog := (catalog.run k.changes).catalog, elapsed := k.elapsed, ending := k.ending }

/-- One thing that a job does. -/
inductive Step where
  /-- The preliminary collection. -/
  | check (collection : Collection)
  | create (layout : Layout)
  | cycle (collection : Collection)

/-- What the step changes about the charts before anything is sent. -/
def Step.changes : Step → List Catalog.Operation
  | .check k => k.changes
  | .create layout => [.create layout]
  | .cycle k => k.changes

/-- Takes a step while the writer is open. Gives the job after it and the block to hand over, which may be
empty. -/
def take (job : Job) : Step → Job × List Line
  | .check k => (job.afterCall (k.outcome job.catalog), [])
  | .create layout => ((job.create layout).1, [])
  | .cycle k =>
    let cycle := job.finish true (k.outcome job.catalog)
    (cycle.job, cycle.block)

/-- What some steps did: the job after them and the blocks that it handed over. -/
structure Alone where
  job : Job
  blocks : List (List Line)

/-- Takes steps in order. -/
def alone (job : Job) : List Step → Alone
  | [] => ⟨job, []⟩
  | step :: rest =>
    let further := (job.take step).1.alone rest
    ⟨further.job,
      if (job.take step).2.isEmpty then further.blocks else (job.take step).2 :: further.blocks⟩

theorem alone_append (job : Job) (first second : List Step) :
    job.alone (first ++ second) = ⟨((job.alone first).job.alone second).job,
      (job.alone first).blocks ++ ((job.alone first).job.alone second).blocks⟩ := by
  induction first generalizing job with
  | nil => rfl
  | cons step rest ih =>
    simp only [List.cons_append, alone, ih]
    split <;> rfl

/-! ## Calls and runs -/

theorem runActions_changes (limit : Duration) (stoppable : Bool)
    (answer : Except CollectorError (Option Samples)) (p : Call.Progress) (actions : List Call.Action) :
    ∃ changes, (∀ op ∈ changes, .change op ∈ actions) ∧
      (Call.runActions limit stoppable answer p actions).catalog = (p.catalog.run changes).catalog := by
  induction actions generalizing p with
  | nil => exact ⟨[], by simp, rfl⟩
  | cons action rest ih =>
    have hmore : ∀ changes : List Catalog.Operation, (∀ op ∈ changes, .change op ∈ rest) →
        ∀ op ∈ changes, .change op ∈ action :: rest :=
      fun changes h op hop => List.mem_cons_of_mem action (h op hop)
    cases action with
    | change operation =>
      unfold Call.runActions
      dsimp only
      split
      · exact ⟨[operation], by simp, rfl⟩
      · obtain ⟨changes, hchanges, heq⟩ := ih { p with catalog := (p.catalog.apply operation).catalog }
        refine ⟨operation :: changes, ?_, heq⟩
        simpa using fun op hop => .inr (hchanges op hop)
    | signal signal =>
      obtain ⟨changes, hchanges, heq⟩ := ih { p with signal := some signal }
      exact ⟨changes, hmore changes hchanges, heq⟩
    | hang => exact ⟨[], by simp, rfl⟩
    | wait millis =>
      unfold Call.runActions
      dsimp only
      split
      · obtain ⟨changes, hchanges, heq⟩ := ih p
        exact ⟨changes, hmore changes hchanges, heq⟩
      · split
        · exact ⟨[], by simp, rfl⟩
        · obtain ⟨changes, hchanges, heq⟩ := ih { p with elapsed := p.elapsed + millis }
          exact ⟨changes, hmore changes hchanges, heq⟩

/-- A call comes to a collection whose changes are among its actions. -/
theorem exists_collection (call : Call) (limit : Duration) (stoppable : Bool) (job : Job) :
    ∃ k : Collection, (∀ op ∈ k.changes, .change op ∈ call.actions) ∧
      job.afterCall (call.run limit stoppable job.catalog) = job.afterCall (k.outcome job.catalog) ∧
      ∀ writerOpen, job.finish writerOpen (call.run limit stoppable job.catalog) =
        job.finish writerOpen (k.outcome job.catalog) := by
  obtain ⟨changes, hchanges, heq⟩ :=
    runActions_changes limit stoppable call.answer { catalog := job.catalog } call.actions
  let outcome := call.run limit stoppable job.catalog
  have hcatalog : outcome.catalog = (job.catalog.run changes).catalog := heq
  refine ⟨⟨changes, outcome.ending, outcome.elapsed⟩, hchanges, ?_, fun writerOpen => ?_⟩
  · simp only [afterCall, Collection.outcome]
    rw [← hcatalog]
  · simp only [finish, afterCall, Collection.outcome]
    rw [← hcatalog]

theorem blocks_after (block : List Line) (run : Run) :
    (Run.after block run).blocks = if block.isEmpty then run.blocks else block :: run.blocks := by
  unfold Run.after
  split <;> rfl

/-- The blocks of a run are those of some steps of the job alone. -/
theorem run?_alone {job : Job} {now : Duration} {signal : Option StopSignal} {script : Script} {run : Run}
    (h : job.run? true now signal script = some run) :
    ∃ steps, run.blocks = (job.alone steps).blocks ∧
      ∀ step ∈ steps, ∀ op ∈ step.changes, ∃ call ∈ script, .change op ∈ call.actions := by
  induction script generalizing job signal run with
  | nil =>
    refine ⟨[], ?_, by simp⟩
    unfold run? at h
    split at h <;> cases h <;> rfl
  | cons call rest ih =>
    unfold run? at h
    split at h
    · cases h
    · cases h
      exact ⟨[], rfl, by simp⟩
    · dsimp only at h
      split at h
      · cases h
        exact ⟨[], rfl, by simp⟩
      · obtain ⟨k, hchanges, -, hfinish⟩ := exists_collection call job.config.timeout true job
        have htake : job.take (.cycle k) = ((job.finish true (call.run job.config.timeout true job.catalog)).job,
            (job.finish true (call.run job.config.timeout true job.catalog)).block) := by
          rw [take, hfinish]
        have hfirst : ∀ op ∈ k.changes, ∃ other ∈ call :: rest, .change op ∈ other.actions :=
          fun op hop => ⟨call, List.mem_cons_self, hchanges op hop⟩
        unfold goOn at h
        obtain ⟨further, hfurther, rfl⟩ := Option.map_eq_some_iff.mp h
        split at hfurther
        · cases hfurther
          refine ⟨[.cycle k], ?_, by simpa [Step.changes] using hfirst⟩
          rw [blocks_after, alone, htake]
          rfl
        · obtain ⟨steps, hblocks, hmore⟩ := ih hfurther
          refine ⟨.cycle k :: steps, ?_, fun step hstep op hop => ?_⟩
          · rw [blocks_after, alone, htake, hblocks]
          · rcases List.mem_cons.mp hstep with rfl | hstep
            · exact hfirst op hop
            · obtain ⟨other, hother, haction⟩ := hmore step hstep op hop
              exact ⟨other, List.mem_cons_of_mem call hother, haction⟩

/-! ## What has been announced -/

/-- The ids by which the charts of the job are known on the wire. -/
def wireIds (job : Job) : List String :=
  job.catalog.wireIds ++ (job.runtimeChart.map Chart.wireId).toList

/-- A receiver knows of each chart of the job what it was told. -/
structure Announced (job : Job) (r : Receiver) : Prop where
  catalog : job.catalog.Announced r
  runtime : ∀ chart, job.runtimeChart = some chart → chart.Told (r.view chart.wireId)

/-- No text of the charts holds a line break. -/
structure Plain (job : Job) : Prop where
  catalog : job.catalog.Plain
  runtime : ∀ chart, job.runtimeChart = some chart → chart.Plain

/-- No text of a chart holds a line break at any time. -/
def PlainAlong (job : Job) : List Step → Prop
  | [] => job.Plain
  | step :: rest =>
    job.Plain ∧ Catalog.Along Catalog.Plain job.catalog step.changes ∧ PlainAlong (job.take step).1 rest

instance (job : Job) : Decidable job.Plain :=
  decidable_of_iff
    ((∀ chart ∈ job.catalog.charts, chart.Plain) ∧ ∀ chart ∈ job.runtimeChart.toList, chart.Plain)
    ⟨fun h => ⟨h.1, fun chart hchart => h.2 chart (Option.mem_toList.mpr hchart)⟩,
      fun h => ⟨h.1, fun chart hchart => h.2 chart (Option.mem_toList.mp hchart)⟩⟩

instance PlainAlong.decidable (job : Job) : (steps : List Step) → Decidable (job.PlainAlong steps)
  | [] => inferInstanceAs (Decidable job.Plain)
  | step :: rest =>
    have := PlainAlong.decidable (job.take step).1 rest
    have : DecidablePred Catalog.Plain := fun c =>
      inferInstanceAs (Decidable (∀ chart ∈ c.charts, chart.Plain))
    inferInstanceAs (Decidable
      (job.Plain ∧ Catalog.Along Catalog.Plain job.catalog step.changes ∧ PlainAlong (job.take step).1 rest))

/-- The job once a step has changed its charts. -/
def changed (job : Job) (step : Step) : Job :=
  { job with catalog := (job.catalog.run step.changes).catalog }

theorem take_cases (job : Job) (step : Step) :
    (∃ runtime, (runtime = job.runtimeChart ∨ runtime = some job.ownChart) ∧
      job.take step = ({ job.changed step with runtimeChart := runtime }, [])) ∨
    ∃ data elapsed, job.take step =
      (((job.changed step).encode data elapsed).job.record ((job.changed step).encode data elapsed).updated,
        ((job.changed step).encode data elapsed).lines) := by
  cases step with
  | check k => exact .inl ⟨job.runtimeChart, .inl rfl, rfl⟩
  | create layout =>
    left
    cases hcreate : job.catalog.create layout with
    | mk created error =>
      have hrun : (job.catalog.run [.create layout]).catalog = created := by
        cases error <;> simp only [Catalog.run, Catalog.apply, hcreate]
      cases error with
      | some e =>
        refine ⟨job.runtimeChart, .inl rfl, ?_⟩
        simp only [take, create, hcreate, changed, Step.changes, hrun]
      | none =>
        simp only [take, create, hcreate, changed, Step.changes, hrun]
        cases hmonitored : job.monitored with
        | true => exact ⟨some job.ownChart, .inr rfl, rfl⟩
        | false => exact ⟨job.runtimeChart, .inl rfl, rfl⟩
  | cycle k =>
    unfold take finish
    dsimp only
    split
    · exact .inl ⟨job.runtimeChart, .inl rfl, rfl⟩
    · next data _ =>
      refine .inr ⟨data.getD Samples.empty, k.elapsed, ?_⟩
      unfold emit
      simp only [Bool.not_true, Bool.and_false]
      rfl

theorem encode_cases (job : Job) (data : Samples) (elapsed : Nat) :
    ((job.encode data elapsed).lines =
        (job.catalog.update data job.counters.sinceLast job.config.chartCleanup.toNat).lines ∧
      (job.encode data elapsed).job =
        { job with catalog :=
            (job.catalog.update data job.counters.sinceLast job.config.chartCleanup.toNat).catalog }) ∨
    ∃ chart, job.runtimeChart = some chart ∧
      (job.encode data elapsed).lines =
        (job.catalog.update data job.counters.sinceLast job.config.chartCleanup.toNat).lines
          ++ (chart.update (runtimeSamples elapsed) job.counters.sinceLast).lines ∧
      (job.encode data elapsed).job =
        { job with
          catalog := (job.catalog.update data job.counters.sinceLast job.config.chartCleanup.toNat).catalog
          runtimeChart := some (chart.update (runtimeSamples elapsed) job.counters.sinceLast).chart } := by
  unfold encode
  dsimp only
  split
  · next chart hupdated hchart => exact .inr ⟨chart, hchart, rfl, rfl⟩
  · exact .inl ⟨rfl, rfl⟩

/-- The catalog is coherent, and the run time chart is the one of the job. -/
structure Coherent (job : Job) : Prop where
  catalog : job.catalog.Coherent
  runtime : ∀ chart, job.runtimeChart = some chart → chart.wireId = job.ownChart.wireId

theorem coherent_changed {job : Job} (hc : job.Coherent) {step : Step}
    (hsilent : ∀ op ∈ step.changes, op.isSilent = true) :
    (job.changed step).Coherent ∧ job.wireIds.Sublist (job.changed step).wireIds := by
  obtain ⟨hcatalog, hprefix⟩ := Catalog.coherent_run hc.catalog step.changes
    fun op hop => Catalog.isRegular_of_isSilent (hsilent op hop)
  exact ⟨⟨hcatalog, hc.runtime⟩, hprefix.sublist.append (.refl _)⟩

theorem coherent_encode {job : Job} (hc : job.Coherent) (data : Samples) (elapsed : Nat) :
    (job.encode data elapsed).job.Coherent ∧ (job.encode data elapsed).job.wireIds = job.wireIds := by
  have hupdate := hc.catalog.update data job.counters.sinceLast job.config.chartCleanup.toNat
  have hids := Catalog.wireIds_update data job.counters.sinceLast job.config.chartCleanup.toNat job.catalog
  rcases job.encode_cases data elapsed with ⟨-, hjob⟩ | ⟨chart, hchart, -, hjob⟩ <;> rw [hjob]
  · exact ⟨⟨hupdate, hc.runtime⟩, by rw [wireIds, hids]; rfl⟩
  · have hwire := chart.wireId_update (runtimeSamples elapsed) job.counters.sinceLast
    refine ⟨⟨hupdate, fun other hother => ?_⟩, ?_⟩
    · cases hother
      exact hwire.trans (hc.runtime chart hchart)
    · rw [wireIds, wireIds, hids, hchart]
      simp [hwire]

theorem coherent_take {job : Job} (hc : job.Coherent) {step : Step}
    (hsilent : ∀ op ∈ step.changes, op.isSilent = true) :
    (job.take step).1.Coherent ∧ (job.changed step).wireIds.Sublist (job.take step).1.wireIds := by
  obtain ⟨hchanged, -⟩ := coherent_changed hc hsilent
  rcases job.take_cases step with ⟨runtime, hruntime, htake⟩ | ⟨data, elapsed, htake⟩
  · rw [htake]
    refine ⟨⟨hchanged.catalog, fun chart hchart => ?_⟩, List.Sublist.append (.refl _) ?_⟩
    · rcases hruntime with rfl | rfl
      · exact hc.runtime chart hchart
      · cases hchart
        rfl
    · rcases hruntime with rfl | rfl
      · exact .refl _
      · change ((job.runtimeChart.map Chart.wireId).toList).Sublist [job.ownChart.wireId]
        cases hchart : job.runtimeChart with
        | none => exact List.nil_sublist _
        | some chart => simp [hc.runtime chart hchart]
  · obtain ⟨hencode, hids⟩ := coherent_encode hchanged data elapsed
    rw [htake]
    exact ⟨⟨hencode.catalog, hencode.runtime⟩, hids.symm ▸ .refl _⟩

theorem admits_encode {job : Job} {r : Receiver} (ha : job.Announced r) (hp : job.Plain)
    (hs : job.wireIds.Nodup) (data : Samples) (elapsed : Nat) :
    r.Admits job.wireIds (job.encode data elapsed).lines ∧
      (job.encode data elapsed).job.Announced (r.readAll ((job.encode data elapsed).lines.map Line.onWire)) := by
  have hseparate : job.catalog.Separate := hs.sublist (List.sublist_append_left _ _)
  obtain ⟨hadmits, hannounced⟩ := Catalog.admits_cycle data job.counters.sinceLast
    job.config.chartCleanup.toNat ha.catalog hseparate hp.catalog
  have hmore : job.catalog.wireIds ⊆ job.wireIds := List.subset_append_left _ _
  -- The run time chart is not one of the catalog.
  have hapart : ∀ chart, job.runtimeChart = some chart → chart.wireId ∉ job.catalog.wireIds := by
    intro chart hchart hmem
    rw [wireIds, hchart] at hs
    exact List.disjoint_of_nodup_append hs hmem (List.mem_singleton_self _)
  have hruntime : ∀ chart, job.runtimeChart = some chart → chart.Told
      ((r.readAll ((job.catalog.update data job.counters.sinceLast job.config.chartCleanup.toNat).lines.map
        Line.onWire)).view chart.wireId) := by
    intro chart hchart
    rw [hadmits.within.view_eq r (hapart chart hchart)]
    exact ha.runtime chart hchart
  rcases job.encode_cases data elapsed with ⟨hlines, hjob⟩ | ⟨chart, hchart, hlines, hjob⟩
  · rw [hlines, hjob]
    exact ⟨hadmits.mono hmore, hannounced, hruntime⟩
  · have hown := Chart.admits_update (hruntime chart hchart) (hp.runtime chart hchart)
      (runtimeSamples elapsed) job.counters.sinceLast
    have hownId : [chart.wireId] ⊆ job.wireIds := by
      rw [wireIds, hchart]
      exact List.subset_append_right _ _
    rw [hlines, hjob, List.map_append, Receiver.readAll_append]
    refine ⟨(hadmits.mono hmore).append (hown.mono hownId), ?_, fun other hother => ?_⟩
    · refine hannounced.readAll hown.within fun id hid hmem => ?_
      rw [Catalog.wireIds_update] at hid
      exact hapart chart hchart (List.mem_singleton.mp hmem ▸ hid)
    · cases hother
      rw [chart.wireId_update]
      exact (hruntime chart hchart).update (runtimeSamples elapsed) job.counters.sinceLast

theorem admits_take {job : Job} {r : Receiver} (hc : job.Coherent) (ha : job.Announced r) (hp : job.Plain)
    {step : Step} (hsilent : ∀ op ∈ step.changes, op.isSilent = true)
    (hplain : Catalog.Along Catalog.Plain job.catalog step.changes) (hs : (job.take step).1.wireIds.Nodup) :
    r.Admits (job.take step).1.wireIds (job.take step).2 ∧
      (job.take step).1.Announced (r.readAll ((job.take step).2.map Line.onWire)) := by
  obtain ⟨-, hids⟩ := coherent_take hc hsilent
  have hdistinct : (job.changed step).wireIds.Nodup := hs.sublist hids
  have hseparate : (job.catalog.run step.changes).catalog.Separate :=
    hdistinct.sublist (List.sublist_append_left _ _)
  obtain ⟨-, hcatalog⟩ := Catalog.admits_run ha.catalog hc.catalog step.changes
    (fun op hop => Catalog.isRegular_of_isSilent (hsilent op hop)) hplain hseparate
  rw [Catalog.lines_run_of_isSilent _ _ hsilent] at hcatalog
  have hannounced : (job.changed step).Announced r := ⟨hcatalog, ha.runtime⟩
  rcases job.take_cases step with ⟨runtime, hruntime, htake⟩ | ⟨data, elapsed, htake⟩
  · rw [htake]
    refine ⟨r.admits_nil _, hcatalog, fun chart hchart => ?_⟩
    rcases hruntime with rfl | rfl
    · exact ha.runtime chart hchart
    · cases hchart
      exact Catalog.told_of_push rfl _
  · have hplain' : (job.changed step).Plain := ⟨hplain.final, hp.runtime⟩
    obtain ⟨hadmits, hafter⟩ := admits_encode hannounced hplain' hdistinct data elapsed
    rw [htake] at hids ⊢
    exact ⟨hadmits.mono hids.subset, hafter.catalog, hafter.runtime⟩

/-! ## Streams -/

/-- A receiver admits blocks one after the other. -/
def AdmitsAll (ids : List String) (r : Receiver) : List (List Line) → Prop
  | [] => True
  | block :: rest => r.Admits ids block ∧ AdmitsAll ids (r.readAll (block.map Line.onWire)) rest

theorem AdmitsAll.of_append {ids : List String} {r : Receiver} {first second : List (List Line)}
    (h : AdmitsAll ids r (first ++ second)) : AdmitsAll ids r first := by
  induction first generalizing r with
  | nil => trivial
  | cons block rest ih => exact ⟨h.1, ih h.2⟩

theorem coherent_alone {job : Job} (hc : job.Coherent) (steps : List Step)
    (hsilent : ∀ step ∈ steps, ∀ op ∈ step.changes, op.isSilent = true) :
    (job.alone steps).job.Coherent ∧ job.wireIds.Sublist (job.alone steps).job.wireIds := by
  induction steps generalizing job with
  | nil => exact ⟨hc, .refl _⟩
  | cons step rest ih =>
    have hstep := hsilent step List.mem_cons_self
    obtain ⟨hcoherent, hids⟩ := coherent_take hc hstep
    obtain ⟨hend, hmore⟩ := ih hcoherent fun other h => hsilent other (List.mem_cons_of_mem step h)
    exact ⟨hend, ((coherent_changed hc hstep).2.trans hids).trans hmore⟩

/-- The stream of a job alone is admitted block by block by a receiver that knows what was announced. -/
theorem admits_alone {job : Job} {r : Receiver} (hc : job.Coherent) (ha : job.Announced r)
    (steps : List Step) (hsilent : ∀ step ∈ steps, ∀ op ∈ step.changes, op.isSilent = true)
    (hplain : job.PlainAlong steps) (hs : (job.alone steps).job.wireIds.Nodup) :
    AdmitsAll (job.alone steps).job.wireIds r (job.alone steps).blocks := by
  induction steps generalizing job r with
  | nil => trivial
  | cons step rest ih =>
    have hstep := hsilent step List.mem_cons_self
    have hrest := fun other h => hsilent other (List.mem_cons_of_mem step h)
    obtain ⟨hp, halong, hmore⟩ := hplain
    obtain ⟨hcoherent, -⟩ := coherent_take hc hstep
    have hids := (coherent_alone hcoherent rest hrest).2
    obtain ⟨hadmits, hannounced⟩ := admits_take hc ha hp hstep halong (hs.sublist hids)
    have hlater := ih hcoherent hannounced hrest hmore hs
    cases hblock : (job.take step).2 with
    | nil =>
      rw [hblock] at hlater
      simpa [alone, hblock] using hlater
    | cons line lines =>
      rw [hblock] at hadmits hlater
      simpa [alone, hblock] using ⟨hadmits.mono hids.subset, hlater⟩

/-- The job has just been made for a collector. -/
def Unstarted (job : Job) : Prop :=
  ∃ plugin monitored module name config, job = ofCollector plugin monitored module name config

theorem Unstarted.coherent {job : Job} (h : job.Unstarted) : job.Coherent := by
  obtain ⟨plugin, monitored, module, name, config, rfl⟩ := h
  exact ⟨Catalog.coherent_empty rfl, fun _ h => by cases h⟩

theorem Unstarted.announced {job : Job} (h : job.Unstarted) (r : Receiver) : job.Announced r := by
  obtain ⟨plugin, monitored, module, name, config, rfl⟩ := h
  exact ⟨Catalog.announced_empty rfl rfl r, fun _ h => by cases h⟩

end Job

end ChartStream
