import ChartStream.Proofs.ChartMarks
import ChartStream.Proofs.GroupIntervals
import ChartStream.Proofs.WireIds

/-!
# Cycles of a port check

What a port check sends and how its job fares, attempt after attempt. A cycle takes samples of the outcome alone, so
the charts stay as they were built but for their states. Main definitions: `Chart.AsBuilt`, `Portcheck.Attempt`,
`Portcheck.after`, `Portcheck.Going`. Main result: `Portcheck.cycles_of_attempts`.
-/

namespace ChartStream

set_option autoImplicit false

/-! ## Charts that keep their dimensions -/

/-- The chart is the one built, but for its priority, its state and the cycles it missed. -/
def Chart.AsBuilt (built c : Chart) : Prop :=
  c = { built with priority := c.priority, state := c.state, missed := c.missed }

namespace Chart.AsBuilt

variable {built c : Chart}

theorem accepts (h : AsBuilt built c) (data : Samples) : c.accepts data = built.accepts data := by
  rw [h]
  rfl

theorem dueGroup (h : AsBuilt built c) (data : Samples) : c.dueGroup data = built.dueGroup data := by
  rw [h]
  rfl

theorem wireId (h : AsBuilt built c) : c.wireId = built.wireId := by
  rw [h]
  rfl

theorem plain (h : AsBuilt built c) (hplain : built.Plain) : c.Plain := by
  rw [h]
  exact hplain

theorem known (hlive : ∀ d ∈ built.dimensions, d.obsolete = false) (h : AsBuilt built c) : AsBuilt built c.known := by
  have hdimensions : c.known.dimensions = c.dimensions := by
    have hrevived : c.revived.dimensions = c.dimensions := by rw [revived_eq]
    have hall : c.dimensions.filter (fun d => !d.obsolete) = c.dimensions := by
      rw [List.filter_eq_self, h]
      exact fun d hd => by rw [hlive d hd]; rfl
    unfold Chart.known
    split
    · rw [declared, hrevived, hall]
    · exact hrevived
  rw [AsBuilt, c.known_eq, hdimensions, h]

/-- Without a dimension to take back, a cycle changes nothing about a chart but its state. -/
theorem step (hlive : ∀ d ∈ built.dimensions, d.obsolete = false) (h : AsBuilt built c) (data : Samples)
    (sinceLast cleanup : Nat) : AsBuilt built (Catalog.step data sinceLast cleanup c).chart := by
  cases haccepts : c.accepts data with
  | true =>
    rw [Catalog.step_of_accepts sinceLast cleanup haccepts, update_of_accepts haccepts]
    have hknown := h.known hlive
    rw [AsBuilt] at hknown ⊢
    rw [hknown]
  | false =>
    rw [Catalog.step_of_not_accepts sinceLast cleanup haccepts]
    rw [AsBuilt] at h
    split
    · exact h
    · split
      · rw [h]
        unfold obsolete
        split <;> rfl
      · rw [h]
        rfl

end Chart.AsBuilt

/-! ## Encoding when a chart was updated -/

/-- If a chart was updated, the values of the run time chart follow those of the others. -/
theorem Job.encode_of_updated {job : Job} {data : Samples} (elapsed : Nat)
    (h : 0 < (job.catalog.update data job.counters.sinceLast job.config.chartCleanup.toNat).updated) :
    (job.encode data elapsed).lines =
        (job.catalog.update data job.counters.sinceLast job.config.chartCleanup.toNat).lines ++
          job.runtimeChart.toList.flatMap fun own =>
            (own.update (runtimeSamples elapsed) job.counters.sinceLast).lines := by
  cases hruntime : job.runtimeChart with
  | none => simp [encode, hruntime]
  | some own => simp [encode, hruntime, h]

theorem Job.charts_encode (job : Job) (data : Samples) (elapsed : Nat) :
    (job.encode data elapsed).job.config = job.config ∧
      (job.encode data elapsed).job.catalog =
        (job.catalog.update data job.counters.sinceLast job.config.chartCleanup.toNat).catalog := by
  rcases job.encode_cases data elapsed with ⟨-, hjob⟩ | ⟨chart, -, -, hjob⟩ <;> rw [hjob] <;> exact ⟨rfl, rfl⟩

/-! ## Outcomes of attempts -/

namespace Portcheck

namespace Probe

/-- The dimension that tells of the outcome. -/
def dimension : Probe → String
  | .success _ => "success"
  | .timedOut => "timeout"
  | .failed => "failed"

/-- One for the outcome that came about and zero for the others. -/
def mark (probe : Probe) (id : String) : Int :=
  if id = probe.dimension then 1 else 0

/-- The latency that is sent of a success: whole microseconds, as far as they fit a signed word. -/
def latency? : Probe → Option Int
  | .success took => some (min took.micros 0x7fffffffffffffff)
  | _ => none

def isSuccess (probe : Probe) : Bool :=
  probe matches .success _

/-- How many attempts in a row did not succeed, counted back from the last one. -/
def failing (probes : List Probe) : Nat :=
  Counters.trailing (probes.map isSuccess)

variable (probe : Probe)

theorem failing_concat (probes : List Probe) :
    failing (probes ++ [probe]) = if probe.isSuccess then 0 else failing probes + 1 := by
  rw [failing, List.map_append, List.map_singleton, Counters.trailing_concat, failing]

theorem isSome_latency? : probe.latency?.isSome = probe.isSuccess := by
  cases probe <;> rfl

theorem mark_cases (id : String) : probe.mark id = 0 ∨ probe.mark id = 1 := by
  unfold mark
  split
  · exact .inr rfl
  · exact .inl rfl

theorem mark_dimension : probe.mark probe.dimension = 1 :=
  if_pos rfl

theorem sum_mark : probe.mark "success" + probe.mark "timeout" + probe.mark "failed" = 1 := by
  cases probe <;> rfl

theorem integer?_status :
    probe.samples.integer? "success" = some (probe.mark "success") ∧
      probe.samples.integer? "timeout" = some (probe.mark "timeout") ∧
      probe.samples.integer? "failed" = some (probe.mark "failed") := by
  cases probe <;> exact ⟨rfl, rfl, rfl⟩

theorem integer?_latency : probe.samples.integer? "latency" = probe.latency? := by
  cases probe with
  | success took =>
    have hfits : Text.inSigned64 (min (took.micros : Int) 0x7fffffffffffffff) = true := by
      simp only [Text.inSigned64, Bool.and_eq_true, decide_eq_true_eq]
      omega
    have hread : (success took).samples.integer? "latency" =
        Samples.integerOf? (.integer (min (took.micros : Int) 0x7fffffffffffffff)) := rfl
    rw [hread, Samples.integerOf?, if_pos hfits]
    rfl
  | _ => rfl

end Probe

/-! ## The charts -/

section Charts

variable (c : Catalog) (check : PortcheckConfig) (probe : Probe)

theorem live_latency : ∀ d ∈ (latency c check).dimensions, d.obsolete = false := by
  simp [latency, plot]

theorem live_status : ∀ d ∈ (status c check).dimensions, d.obsolete = false := by
  simp [status, plot, Dimension.ofId]

theorem accepts_latency : (latency c check).accepts probe.samples = probe.isSuccess := by
  cases probe <;> rfl

theorem accepts_status : (status c check).accepts probe.samples = true := by
  cases probe <;> rfl

theorem dueGroup_latency {micros : Int} (h : probe.latency? = some micros) :
    (latency c check).dueGroup probe.samples = ⟨(latency c check).wireId, [.set "latency" micros]⟩ := by
  have hvalue : probe.samples.integer? "latency" = some micros := probe.integer?_latency.trans h
  have hids : (latency c check).idsInUse = ["latency"] := rfl
  have hid : Line.bare "latency" = "latency" := by decide
  rw [Chart.dueGroup, hids]
  simp [Samples.readings, hvalue, hid, latency, plot, Chart.wireId]

theorem dueGroup_status : (status c check).dueGroup probe.samples =
    ⟨(status c check).wireId, ["success", "timeout", "failed"].map fun id => .set id (probe.mark id)⟩ := by
  have hids : (status c check).idsInUse = ["success", "timeout", "failed"] := rfl
  have hbare : ∀ id ∈ ["success", "timeout", "failed"], Line.bare id = id := by decide
  simp only [List.forall_mem_cons] at hbare
  obtain ⟨hsuccess, htimeout, hfailed⟩ := probe.integer?_status
  rw [Chart.dueGroup, hids]
  simp [Samples.readings, hsuccess, htimeout, hfailed, hbare, status, plot, Chart.wireId]

variable {c check} {chart : Chart}

theorem due_latency (h : (latency c check).AsBuilt chart) :
    (if chart.Matches probe.samples then [chart.dueGroup probe.samples] else []) =
      probe.latency?.toList.map fun micros => ⟨chart.wireId, [.set "latency" micros]⟩ := by
  simp only [chart.matches_iff, h.accepts, accepts_latency, h.dueGroup, h.wireId, ← probe.isSome_latency?]
  cases hlatency : probe.latency? with
  | none => rfl
  | some micros =>
    rw [dueGroup_latency c check probe hlatency]
    rfl

theorem due_status (h : (status c check).AsBuilt chart) :
    (if chart.Matches probe.samples then [chart.dueGroup probe.samples] else []) =
      [⟨chart.wireId, ["success", "timeout", "failed"].map fun id => .set id (probe.mark id)⟩] := by
  rw [if_pos ((chart.matches_iff _).mpr ((h.accepts _).trans (accepts_status c check probe))), h.dueGroup,
    dueGroup_status, h.wireId]

end Charts

/-! ## Attempts -/

/-- An attempt that answers after some milliseconds. -/
structure Attempt where
  probe : Probe
  millis : Nat

namespace Attempt

variable (a : Attempt)

/-- The call of a port check, which leaves the charts alone and always answers with samples. -/
def call : Call where
  actions := [.wait a.millis]
  answer := .ok (some a.probe.samples)

variable {a}

theorem run_call {limit : Duration} (h : Call.within limit a.millis = true) (catalog : Catalog) :
    a.call.run limit false catalog =
      { catalog := catalog, elapsed := a.millis, ending := .answered (.ok (some a.probe.samples)) } := by
  cases hmillis : a.millis with
  | zero => simp [call, Call.run, Call.runActions, hmillis]
  | succ n =>
    have hpositive : a.millis ≠ 0 := by omega
    simp [call, Call.run, Call.runActions, ← hmillis, hpositive, h]

/-- The cycle of an attempt in time encodes what came of it and counts. -/
theorem cycle_call {job : Job} (h : Call.within job.config.timeout a.millis = true) :
    job.cycle true a.call =
      ⟨(job.encode a.probe.samples a.millis).job.record (job.encode a.probe.samples a.millis).updated,
        (job.encode a.probe.samples a.millis).lines, .ok (job.encode a.probe.samples a.millis).updated⟩ := by
  rw [Job.cycle, run_call h]
  simp only [Job.finish, Job.samplesOf, Job.emit, Bool.not_true, Bool.and_false]
  rfl

end Attempt

/-! ## Jobs going on -/

section Jobs

variable (plugin : String) (monitored : Bool) (check : PortcheckConfig)

/-- The job after attempts with an open writer. -/
def after (attempts : List Attempt) : Job :=
  attempts.foldl (fun job a => (job.cycle true a.call).job) (created plugin monitored check)

theorem after_concat (attempts : List Attempt) (a : Attempt) :
    after plugin monitored check (attempts ++ [a]) =
      ((after plugin monitored check attempts).cycle true a.call).job := by
  rw [after, List.foldl_append]
  rfl

/-- The job has gone on through attempts with these outcomes: all cycles succeeded, and since it last had values the
chart of the latency missed one cycle for each attempt that did not succeed. -/
structure Going (probes : List Probe) (job : Job) : Prop where
  ongoing : Job.Ongoing (created plugin monitored check) (probes.map fun _ => true) job
  config : job.config = check.job
  pending : job.catalog.pending = []
  charts : ∃ first second marks, job.catalog.charts = [first, second] ∧
    (latency (start plugin monitored check).catalog check).AsBuilt first ∧
    (status (start plugin monitored check).catalog check).AsBuilt second ∧
    first.Aged check.job.chartCleanup.toNat marks ∧
    Mark.sinceRenewal marks = List.replicate (Probe.failing probes) .missed

variable {plugin monitored check} {probes : List Probe} {job : Job}

theorem going_created : Going plugin monitored check [] (created plugin monitored check) := by
  have hcreate := create_eq plugin monitored check
  have hcreated : (created plugin monitored check).Created :=
    ⟨start plugin monitored check, layout check, [], [],
      ⟨plugin, monitored, moduleName, check.job.name, check.job, rfl⟩, by simp, by rw [Job.alone, hcreate], rfl⟩
  refine ⟨hcreated.ongoing, ?_, ?_, ?_⟩
  · rw [created, hcreate]
    rfl
  · rw [created, hcreate]
    rfl
  · rw [created, hcreate]
    exact ⟨_, _, [] ++ [.built], rfl, rfl, rfl, Chart.Fresh.aged ⟨rfl, rfl⟩, rfl⟩

/-- There is always a value for the status. -/
theorem Going.updated (h : Going plugin monitored check probes job) (probe : Probe) (sinceLast cleanup : Nat) :
    0 < (job.catalog.update probe.samples sinceLast cleanup).updated := by
  obtain ⟨first, second, -, hcharts, -, hsecond, -⟩ := h.charts
  have haccepts : second.accepts probe.samples = true :=
    (hsecond.accepts probe.samples).trans (accepts_status _ check probe)
  rw [Catalog.updated_cycle, Catalog.fed, hcharts]
  exact List.ne_nil_of_mem (List.mem_filter.mpr ⟨by simp, haccepts⟩)

/-- An attempt that succeeds renews the chart of the latency, and any other one makes it miss a cycle. -/
theorem aged_attempt {c : Catalog} {chart : Chart} (hbuilt : (latency c check).AsBuilt chart) {cleanup : Nat}
    {marks : List Mark} (haged : chart.Aged cleanup marks)
    (hmarks : Mark.sinceRenewal marks = List.replicate (Probe.failing probes) .missed) (probe : Probe)
    (sinceLast : Nat) :
    ∃ later, (Catalog.step probe.samples sinceLast cleanup chart).chart.Aged cleanup later ∧
      Mark.sinceRenewal later = List.replicate (Probe.failing (probes ++ [probe])) .missed := by
  have haccepts : chart.accepts probe.samples = probe.isSuccess :=
    (hbuilt.accepts probe.samples).trans (accepts_latency c check probe)
  cases hsuccess : probe.isSuccess with
  | true =>
    rw [hsuccess] at haccepts
    rw [Catalog.step_of_accepts sinceLast cleanup haccepts]
    refine ⟨_, Chart.aged_update_of_accepts haged haccepts sinceLast rfl, ?_⟩
    rw [Mark.sinceRenewal_concat, Probe.failing_concat, hsuccess]
    rfl
  | false =>
    rw [hsuccess] at haccepts
    refine ⟨_, Chart.aged_step_of_not_accepts haged haccepts sinceLast, ?_⟩
    rw [Mark.sinceRenewal_concat, hmarks, Probe.failing_concat, hsuccess]
    rfl

/-- An attempt in time is a cycle that succeeds, and the job goes on. -/
theorem Going.cycle (h : Going plugin monitored check probes job) {a : Attempt}
    (hwithin : Call.within check.job.timeout a.millis = true) :
    (job.cycle true a.call).result = .ok true ∧
      Going plugin monitored check (probes ++ [a.probe]) (job.cycle true a.call).job := by
  obtain ⟨first, second, marks, hcharts, hfirst, hsecond, haged, hmarks⟩ := h.charts
  obtain ⟨hconfig, hcatalog⟩ := job.charts_encode a.probe.samples a.millis
  have hupdated : (job.encode a.probe.samples a.millis).updated = true :=
    Job.updated_encode a.millis (h.updated a.probe _ _)
  obtain ⟨hongoing, -⟩ := h.ongoing.encode a.probe.samples a.millis rfl
  obtain ⟨later, hlater, hcount⟩ := aged_attempt hfirst haged hmarks a.probe job.counters.sinceLast
  have hlist := congrArg Catalog.charts hcatalog
  rw [Catalog.charts_update, hcharts, h.config] at hlist
  rw [hupdated] at hongoing
  rw [Attempt.cycle_call (h.config ▸ hwithin), hupdated]
  refine ⟨rfl, ?_, hconfig.trans h.config, congrArg Catalog.pending hcatalog, _, _, later, hlist, ?_, ?_, hlater,
    hcount⟩
  · rw [List.map_append]
    exact hongoing
  · exact hfirst.step (live_latency _ check) _ _ _
  · exact hsecond.step (live_status _ check) _ _ _

theorem going_after {attempts : List Attempt}
    (hwithin : ∀ a ∈ attempts, Call.within check.job.timeout a.millis = true) :
    Going plugin monitored check (attempts.map (·.probe)) (after plugin monitored check attempts) := by
  induction attempts using List.reverseRecOn with
  | nil => exact going_created
  | append_singleton attempts a ih =>
    rw [List.forall_mem_append, List.forall_mem_singleton] at hwithin
    rw [after_concat, List.map_append]
    exact ((ih hwithin.1).cycle hwithin.2).2

/-- No cycle failed, and nothing holds the job back. -/
theorem Going.unhindered (h : Going plugin monitored check probes job) :
    job.counters.retries = 0 ∧ job.counters.penalty = 0 ∧ (probes ≠ [] → job.state = .running) := by
  have htrailing : Counters.trailing (probes.map fun _ => true) = 0 := by
    simp [Counters.trailing, List.map_const']
  have hretries : job.counters.retries = 0 := by
    rw [h.ongoing.tallies.retries, htrailing]
    exact Nat.zero_min _
  have hpenalty : job.counters.penalty = 0 := by
    rw [h.ongoing.tallies.penalty, hretries]
    exact Counters.penalty_zero _
  refine ⟨hretries, hpenalty, fun hprobes => ?_⟩
  rw [h.ongoing.state (mt List.map_eq_nil_iff.mp hprobes), hpenalty]
  rfl

/-! ### Blocks -/

theorem Going.own (h : Going plugin monitored check probes job) {own : Chart} (hown : job.runtimeChart = some own) :
    ∃ sent, own = (created plugin monitored check).ownAfter sent := by
  rw [h.ongoing.runtime] at hown
  split at hown
  · cases hown
    exact ⟨_, rfl⟩
  · cases hown

theorem wireId_own (sent : Bool) :
    ((created plugin monitored check).ownAfter sent).wireId = "netdata.runtime_" ++ Line.bare (jobName check) := by
  have hname : (created plugin monitored check).name = jobName check := by
    rw [created, create_eq]
    rfl
  rw [← hname]
  exact wireId_ownChart _

theorem Going.block (h : Going plugin monitored check probes job) {a : Attempt}
    (hwithin : Call.within check.job.timeout a.millis = true) :
    ∃ sinceLast, (job.cycle true a.call).block =
      (job.catalog.charts.flatMap fun chart =>
          (Catalog.step a.probe.samples sinceLast check.job.chartCleanup.toNat chart).lines) ++
        job.runtimeChart.toList.flatMap fun own => (own.update (Job.runtimeSamples a.millis) sinceLast).lines := by
  refine ⟨job.counters.sinceLast, ?_⟩
  rw [Attempt.cycle_call (h.config ▸ hwithin)]
  dsimp only
  rw [Job.encode_of_updated a.millis (h.updated a.probe _ _), Catalog.lines_update, h.pending, h.config,
    List.nil_append]

theorem Going.groups (h : Going plugin monitored check probes job) {a : Attempt}
    (hwithin : Call.within check.job.timeout a.millis = true) :
    ∃ own, (∀ group ∈ own, group.fullId = "netdata.runtime_" ++ Line.bare (jobName check)) ∧
      Line.groups? ((job.cycle true a.call).block.map Line.onWire) =
        some ((a.probe.latency?.toList.map fun micros =>
            ⟨Line.bare (jobName check) ++ ".latency", [.set "latency" micros]⟩) ++
          ⟨Line.bare (jobName check) ++ ".status",
            ["success", "timeout", "failed"].map fun id => .set id (a.probe.mark id)⟩ :: own) := by
  obtain ⟨first, second, -, hcharts, hfirst, hsecond, -⟩ := h.charts
  obtain ⟨sinceLast, hblock⟩ := h.block hwithin
  let own := job.runtimeChart.toList.map fun own => own.dueGroup (Job.runtimeSamples a.millis)
  have hown : Line.groups? ((job.runtimeChart.toList.flatMap fun own =>
      (own.update (Job.runtimeSamples a.millis) sinceLast).lines).map Line.onWire) = some own := by
    cases hruntime : job.runtimeChart with
    | none => simp only [own, hruntime]; rfl
    | some chart =>
      obtain ⟨sent, rfl⟩ := h.own hruntime
      have haccepts := Job.accepts_ownAfter (created plugin monitored check) sent a.millis
      have hgroup := Chart.groups?_update sinceLast haccepts []
      rw [List.append_nil] at hgroup
      simp only [own, hruntime, Option.toList_some, List.flatMap_singleton]
      exact hgroup
  refine ⟨own, fun group hgroup => ?_, ?_⟩
  · obtain ⟨chart, hmem, rfl⟩ := List.mem_map.mp hgroup
    obtain ⟨sent, rfl⟩ := h.own (Option.mem_toList.mp hmem)
    exact wireId_own sent
  · have hlatency := hfirst.wireId.trans (wireId_latency check _)
    have hstatus := hsecond.wireId.trans (wireId_status check _)
    rw [hblock, hcharts, List.flatMap_cons, List.flatMap_singleton, List.map_append, List.map_append,
      List.append_assoc, Catalog.groups?_step, Catalog.groups?_step, due_latency a.probe hfirst,
      due_status a.probe hsecond, hown, hlatency, hstatus]
    rfl

/-- Without line breaks in the settings, the lines of a block are those that are read in its text. -/
theorem Going.read (h : Going plugin monitored check probes job) {a : Attempt}
    (hwithin : Call.within check.job.timeout a.millis = true) (hplugin : '\n' ∉ plugin.toList)
    (hname : '\n' ∉ check.job.name.toList) (hhost : '\n' ∉ check.host.toList) :
    Line.readLines? (Line.renderAll (job.cycle true a.call).block) =
      some ((job.cycle true a.call).block.map Line.onWire) := by
  obtain ⟨first, second, -, hcharts, hfirst, hsecond, -⟩ := h.charts
  obtain ⟨sinceLast, hblock⟩ := h.block hwithin
  have hunbroken := (Job.unbroken_portcheck_iff hplugin monitored check).mpr ⟨hname, hhost⟩
  have hplain : ∀ chart ∈ job.catalog.charts, chart.Plain := by
    rw [hcharts]
    simp only [List.forall_mem_cons]
    exact ⟨hfirst.plain ((plain_latency_iff _ check).mpr hunbroken),
      hsecond.plain ((plain_status_iff _ check).mpr hunbroken), by simp⟩
  have hmodule : '\n' ∉ moduleName.toList := by decide
  have hown (sent : Bool) : ((created plugin monitored check).ownAfter sent).Plain := by
    refine (Job.plain_ownChart_iff _).mpr ?_
    rw [created, create_eq]
    simp only [List.forall_mem_cons]
    exact ⟨(Job.lineBreak_not_mem_fullName_iff hmodule _).mpr hname, hplugin, hmodule, by simp⟩
  refine Line.readLines?_renderAll _ fun line hline => ?_
  rw [hblock] at hline
  rcases List.mem_append.mp hline with hline | hline
  · exact Catalog.plain_steps sinceLast _ _ hplain line hline
  · obtain ⟨own, hmem, hline⟩ := List.mem_flatMap.mp hline
    obtain ⟨sent, rfl⟩ := h.own (Option.mem_toList.mp hmem)
    exact Chart.plain_update (hown sent) _ sinceLast line hline

end Jobs

/-! ## Cycles of attempts -/

/-- Next to the run time chart, the charts of a port check have no group but those of their own. -/
theorem filter_groups {name : String} (hname : name.toList.head? = some 'p') {own : List Line.Group}
    (hown : ∀ group ∈ own, group.fullId = "netdata.runtime_" ++ name) (times : List Int) (values : Int → List Line)
    (outcome : List Line) :
    let groups := times.map (fun micros => ⟨name ++ ".latency", values micros⟩) ++ ⟨name ++ ".status", outcome⟩ :: own
    groups.filter (·.fullId = name ++ ".status") = [⟨name ++ ".status", outcome⟩] ∧
      groups.filter (·.fullId = name ++ ".latency") = times.map fun micros => ⟨name ++ ".latency", values micros⟩ := by
  have hboth := latency_ne_status name name
  have hnone (chart : String) : own.filter (·.fullId = name ++ chart) = [] := by
    rw [List.filter_eq_nil_iff]
    intro group hgroup
    rw [hown group hgroup, decide_eq_true_eq]
    exact (ne_runtime hname chart name).symm
  simp [hnone, hboth, hboth.symm, List.filter_map, Function.comp_def]

/-- A port check that is attempted in time, however often and with whatever outcomes, never fails. Each block tells of
the outcome in the one group of the status and of the latency in a group of its own if there is one, and after each
the latency is given up exactly if the last attempts failed as often as the settings have it. Without line breaks in
the settings this is what is read in the text of the block. -/
theorem cycles_of_attempts (plugin : String) (monitored : Bool) (check : PortcheckConfig) (attempts : List Attempt)
    (last : Attempt) (hwithin : ∀ a ∈ attempts ++ [last], Call.within check.job.timeout a.millis = true) :
    let cycle := (after plugin monitored check attempts).cycle true last.call
    let probes := (attempts ++ [last]).map (·.probe)
    (start plugin monitored check).create (layout check) = (created plugin monitored check, .ok ()) ∧
    cycle.job = after plugin monitored check (attempts ++ [last]) ∧
    cycle.result = .ok true ∧ cycle.job.counters.retries = 0 ∧ cycle.job.counters.penalty = 0 ∧
    cycle.job.state = .running ∧
    (∀ id, last.probe.mark id = 0 ∨ last.probe.mark id = 1) ∧ last.probe.mark last.probe.dimension = 1 ∧
    last.probe.mark "success" + last.probe.mark "timeout" + last.probe.mark "failed" = 1 ∧
    (∃ latency status groups, cycle.job.catalog.charts = [latency, status] ∧
      latency.wireId = Line.bare (jobName check) ++ ".latency" ∧
      status.wireId = Line.bare (jobName check) ++ ".status" ∧
      Line.groups? (cycle.block.map Line.onWire) = some groups ∧
      groups.filter (·.fullId = status.wireId) =
        [⟨status.wireId, ["success", "timeout", "failed"].map fun id => .set id (last.probe.mark id)⟩] ∧
      groups.filter (·.fullId = latency.wireId) =
        last.probe.latency?.toList.map (fun micros => ⟨latency.wireId, [.set "latency" micros]⟩) ∧
      (latency.isObsolete = true ↔
        1 ≤ check.job.chartCleanup.toNat ∧ check.job.chartCleanup.toNat ≤ Probe.failing probes)) ∧
    ('\n' ∉ plugin.toList → '\n' ∉ check.job.name.toList → '\n' ∉ check.host.toList →
      Line.readLines? (Line.renderAll cycle.block) = some (cycle.block.map Line.onWire)) := by
  intro cycle probes
  rw [List.forall_mem_append, List.forall_mem_singleton] at hwithin
  have hbefore : Going plugin monitored check _ (after plugin monitored check attempts) := going_after hwithin.1
  obtain ⟨hresult, hafter⟩ := hbefore.cycle hwithin.2
  obtain ⟨hretries, hpenalty, hstate⟩ := hafter.unhindered
  obtain ⟨first, second, marks, hcharts, hfirst, hsecond, haged, hmarks⟩ := hafter.charts
  obtain ⟨own, hown, hgroups⟩ := hbefore.groups hwithin.2
  obtain ⟨honce, htimes⟩ := filter_groups (head_jobName check) hown last.probe.latency?.toList
    (fun micros => [.set "latency" micros])
    (["success", "timeout", "failed"].map fun id => .set id (last.probe.mark id))
  have hlatency := hfirst.wireId.trans (wireId_latency check _)
  have hstatus := hsecond.wireId.trans (wireId_status check _)
  have hobsolete : first.isObsolete = true ↔
      1 ≤ check.job.chartCleanup.toNat ∧ check.job.chartCleanup.toNat ≤ Probe.failing probes := by
    rw [haged.givenUp, hmarks]
    simp [probes, List.mem_replicate]
  refine ⟨(create_start plugin monitored check).1, (after_concat plugin monitored check attempts last).symm, hresult,
    hretries, hpenalty, hstate (by simp), last.probe.mark_cases, last.probe.mark_dimension, last.probe.sum_mark,
    ⟨first, second, _, hcharts, hlatency, hstatus, hgroups, ?_, ?_, hobsolete⟩, hbefore.read hwithin.2⟩
  · rw [hstatus]
    exact honce
  · rw [hlatency]
    exact htimes

/-- A check that gives up a chart after two cycles without values. -/
def database : PortcheckConfig :=
  { job := { name := "db", chartCleanup := 2 }, host := "localhost", port := 5432 }

/-- A success and, as long as a connection may take, none. -/
def trials : List Attempt :=
  [⟨.success (Duration.ofSeconds 3), 3000⟩, ⟨.timedOut, 2000⟩]

theorem cycles_of_attempts_database :
    (∀ a ∈ trials ++ [⟨.failed, 1⟩], Call.within database.job.timeout a.millis = true) ∧
    ((after "plugind" true database trials).cycle true (Attempt.mk .failed 1).call).result = .ok true ∧
    ∃ latency status lines groups,
      ((after "plugind" true database trials).cycle true (Attempt.mk .failed 1).call).job.catalog.charts =
        [latency, status] ∧
      latency.isObsolete = true ∧
      Line.readLines? (Line.renderAll
        ((after "plugind" true database trials).cycle true (Attempt.mk .failed 1).call).block) = some lines ∧
      Line.groups? lines = some groups ∧
      groups.filter (·.fullId = "portcheck_db.status") =
        [⟨"portcheck_db.status", [.set "success" 0, .set "timeout" 0, .set "failed" 1]⟩] ∧
      groups.filter (·.fullId = "portcheck_db.latency") = [] := by
  have hwithin : ∀ a ∈ trials ++ [⟨.failed, 1⟩], Call.within database.job.timeout a.millis = true := by decide
  obtain ⟨-, -, hresult, -, -, -, -, -, -, ⟨latency, status, groups, hcharts, hlatency, hstatus, hgroups, honce, hnone,
    hobsolete⟩, hread⟩ := cycles_of_attempts "plugind" true database trials ⟨.failed, 1⟩ hwithin
  have hname : Line.bare (jobName database) = "portcheck_db" := by decide
  rw [hname] at hlatency hstatus
  rw [hstatus] at honce
  rw [hlatency] at hnone
  exact ⟨hwithin, hresult, latency, status, _, groups, hcharts, hobsolete.mpr (by decide),
    hread (by decide) (by decide) (by decide), hgroups, honce, hnone⟩

end Portcheck

end ChartStream
