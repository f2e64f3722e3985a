import ChartStream.Proofs.DeclaredLines
import ChartStream.Proofs.SettingsCheck

/-!
# Ids on the wire

The receiver knows charts and dimensions by ids without quotes. Names and ids are told apart with their quotes,
so of two port checks, two charts of a catalog or two dimensions of a chart the ids on the wire are different
unless names or ids differ in quotes alone (`wire_ids_apart`, `quotes_merge_wire_ids`).
-/

namespace ChartStream

set_option autoImplicit false

/-- The texts are different, and the same without their quotes. -/
def Line.DifferInQuotes (s t : String) : Prop :=
  s ≠ t ∧ bare s = bare t

instance (s t : String) : Decidable (Line.DifferInQuotes s t) :=
  inferInstanceAs (Decidable (s ≠ t ∧ Line.bare s = Line.bare t))

theorem Line.differInQuotes_of_ne {s t : String} (h : s ≠ t) : DifferInQuotes s t ↔ bare s = bare t :=
  and_iff_right h

theorem Line.quote_of_differInQuotes {s t : String} (h : DifferInQuotes s t) :
    '\'' ∈ s.toList ∨ '\'' ∈ t.toList := by
  by_contra hno
  rw [not_or] at hno
  obtain ⟨hne, hbare⟩ := h
  rw [bare_of_no_quote hno.1, bare_of_no_quote hno.2] at hbare
  exact hne hbare

/-! ## Charts of a catalog -/

namespace Chart

theorem wireId_eq (c : Chart) : c.wireId = Line.bare c.kind ++ "." ++ Line.bare c.id := by
  have hdot : Line.bare "." = "." := by decide
  rw [wireId, fullId, Line.bare_append, Line.bare_append, hdot]

theorem wireId_eq_iff {c other : Chart} (hkind : c.kind = other.kind) :
    c.wireId = other.wireId ↔ Line.bare c.id = Line.bare other.id := by
  rw [wireId_eq, wireId_eq, hkind, String.append_right_inj]

theorem header_apply (c : Chart) (op : Operation) :
    (c.apply op).chart.toChartHeader = c.toChartHeader := by
  cases htopology : op.isTopology with
  | true => exact (c.silent_apply op htopology).2.header
  | false =>
    cases op with
    | declare => rfl
    | obsolete => exact c.header_obsolete
    | update data sinceLast => exact c.header_update data sinceLast
    | _ => cases htopology

theorem Distinct.apply {c : Chart} (h : c.Distinct) (op : Operation) : (c.apply op).chart.Distinct := by
  cases htopology : op.isTopology with
  | true => exact (c.silent_apply op htopology).2.distinct h
  | false =>
    cases op with
    | declare => exact h.declared
    | obsolete => exact h.obsolete
    | update data sinceLast => exact h.update data sinceLast
    | _ => cases htopology

theorem Distinct.run {c : Chart} (h : c.Distinct) (ops : List Operation) : (c.run ops).chart.Distinct := by
  induction ops generalizing c with
  | nil => exact h
  | cons op rest ih => exact ih (h.apply op)

end Chart

namespace Catalog

variable {c : Catalog}

theorem Coherent.put (hc : c.Coherent) {held chart : Chart} (hheld : held ∈ c.charts)
    (hheader : chart.toChartHeader = held.toChartHeader) (hdistinct : chart.Distinct) :
    (c.put chart).Coherent := by
  refine ⟨fun other hother => ?_, ?_, fun other hother => ?_⟩
  · rcases mem_put hother with rfl | ⟨hother, -⟩
    · rw [hheader]
      exact hc.kind held hheld
    · exact hc.kind other hother
  · rw [ids_put]
    exact hc.nodup
  · rcases mem_put hother with rfl | ⟨hother, -⟩
    · exact hdistinct
    · exact hc.distinct other hother

/-- Every operation keeps the ids of charts and dimensions apart, those that job cycles never use included. -/
theorem Coherent.apply (hc : c.Coherent) (op : Operation) : (c.apply op).catalog.Coherent := by
  cases op with
  | onChart id operation =>
    cases hget : c.get? id with
    | none =>
      simp only [Catalog.apply, hget]
      exact hc
    | some held =>
      have hheld : held ∈ c.charts := (get?_some hget).1
      simp only [Catalog.apply, hget]
      exact hc.put hheld (held.header_apply operation) ((hc.distinct held hheld).apply operation)
  | _ => exact (coherent_apply hc rfl).1

theorem Coherent.run (hc : c.Coherent) (ops : List Operation) : (c.run ops).catalog.Coherent := by
  induction ops generalizing c with
  | nil => exact hc
  | cons op rest ih => exact ih (hc.apply op)

theorem Coherent.charts_apart (hc : c.Coherent) :
    c.charts.Pairwise fun a b => a.wireId = b.wireId ↔ Line.DifferInQuotes a.id b.id := by
  have hids : c.charts.Pairwise fun a b => a.id ≠ b.id := List.pairwise_map.mp hc.nodup
  refine hids.imp_of_mem fun ha hb hne => ?_
  have hkind := (hc.kind _ ha).trans (hc.kind _ hb).symm
  rw [Line.differInQuotes_of_ne hne]
  exact Chart.wireId_eq_iff hkind

/-- Without quotes in the ids, the receiver tells all charts apart. -/
theorem Coherent.separate (hc : c.Coherent) (hplain : ∀ chart ∈ c.charts, '\'' ∉ chart.id.toList) :
    c.Separate := by
  refine List.pairwise_map.mpr (hc.charts_apart.imp_of_mem fun ha hb hsame heq => ?_)
  rcases Line.quote_of_differInQuotes (hsame.mp heq) with hquote | hquote
  · exact hplain _ ha hquote
  · exact hplain _ hb hquote

end Catalog

theorem Chart.Distinct.dimensions_apart {c : Chart} (h : c.Distinct) :
    c.dimensions.Pairwise fun d e => d.onWire.id = e.onWire.id ↔ Line.DifferInQuotes d.id e.id := by
  have hids : c.dimensions.Pairwise fun d e => d.id ≠ e.id := List.pairwise_map.mp h
  exact hids.imp fun hne => (Line.differInQuotes_of_ne hne).symm

/-! ## Names of jobs -/

namespace Job

/-- The name of a job within its module, as the full name goes on after the module. -/
def nameEnd (module job : String) : String :=
  if job.isEmpty || job = module then "" else "_" ++ job

theorem fullName_eq (module job : String) : fullName module job = module ++ nameEnd module job := by
  unfold fullName nameEnd
  split
  · rw [String.append_empty]
  · rw [String.append_assoc]

theorem fullName_injective {module first second : String} (hfirst : first.isEmpty = false)
    (hsecond : second.isEmpty = false) (h : fullName module first = fullName module second) :
    first = second := by
  rw [fullName_eq, fullName_eq, String.append_right_inj] at h
  by_cases h1 : first = module
  · by_cases h2 : second = module
    · rw [h1, h2]
    · simp [nameEnd, h1, hsecond, h2] at h
  · by_cases h2 : second = module
    · simp [nameEnd, hfirst, h1, h2] at h
    · simpa [nameEnd, hfirst, hsecond, h1, h2] using h

end Job

/-! ## Port checks -/

namespace Portcheck

variable (plugin : String) (monitored : Bool) (check : PortcheckConfig)

/-- The job of a port check before it has charts. -/
def start : Job :=
  Job.ofCollector plugin monitored moduleName check.job.name check.job

/-- The job of a port check with its charts. -/
def created : Job :=
  ((start plugin monitored check).create (layout check)).1

/-- The full name of the job of a port check. -/
def jobName : String :=
  Job.fullName moduleName check.job.name

/-- The ids on the wire of the charts of a job whose full name is `name` there. -/
def chartIds (monitored : Bool) (name : String) : List String :=
  [name ++ ".latency", name ++ ".status"] ++ if monitored then ["netdata.runtime_" ++ name] else []

theorem wireIds_push (c : Catalog) (chart : Chart) : (c.push chart).wireIds = c.wireIds ++ [chart.wireId] := by
  rw [Catalog.wireIds, Catalog.wireIds, Catalog.push, List.map_append]
  rfl

theorem wireId_plot (c : Catalog) (id title units : String) (dimensions : List Dimension) :
    (plot c check id title units dimensions).wireId = Line.bare c.jobName ++ "." ++ Line.bare id :=
  Chart.wireId_eq _

theorem wireId_latency (c : Catalog) : (latency c check).wireId = Line.bare c.jobName ++ ".latency" := by
  have hid : "." ++ Line.bare "latency" = ".latency" := by decide
  rw [latency, wireId_plot, String.append_assoc, hid]

theorem wireId_status (c : Catalog) : (status c check).wireId = Line.bare c.jobName ++ ".status" := by
  have hid : "." ++ Line.bare "status" = ".status" := by decide
  rw [status, wireId_plot, String.append_assoc, hid]

theorem wireId_ownChart (job : Job) : job.ownChart.wireId = "netdata.runtime_" ++ Line.bare job.name := by
  have hstart : Line.bare "netdata" ++ "." ++ Line.bare "runtime_" = "netdata.runtime_" := by decide
  rw [Chart.wireId_eq, ← hstart]
  simp only [Job.ownChart, Line.bare_append, String.append_assoc]

/-- The charts of the job before its first cycle. -/
def charts : Catalog :=
  ((start plugin monitored check).catalog.push (latency (start plugin monitored check).catalog check)).push
    (status (start plugin monitored check).catalog check)

theorem create_eq :
    (start plugin monitored check).create (layout check) =
      ({ start plugin monitored check with
          catalog := charts plugin monitored check
          runtimeChart := if monitored then some (start plugin monitored check).ownChart else none }, .ok ()) := by
  have hname : (start plugin monitored check).catalog.jobName.isEmpty = false :=
    Job.fullName_ne_empty (by decide) check.job.name
  have hcreate := create_layout (start plugin monitored check).catalog check hname rfl
  rw [Job.create, hcreate]
  cases monitored <;> rfl

theorem create_start :
    (start plugin monitored check).create (layout check) = (created plugin monitored check, .ok ()) ∧
      (created plugin monitored check).wireIds = chartIds monitored (Line.bare (jobName check)) := by
  have hids : (charts plugin monitored check).wireIds =
      [Line.bare (jobName check) ++ ".latency", Line.bare (jobName check) ++ ".status"] := by
    rw [charts, wireIds_push, wireIds_push, wireId_latency, wireId_status]
    rfl
  have hown := wireId_ownChart (start plugin monitored check)
  rw [created, create_eq]
  refine ⟨rfl, ?_⟩
  rw [Job.wireIds, hids, chartIds]
  cases monitored with
  | false => rfl
  | true => exact congrArg (fun id => _ ++ [id]) hown

/-! The three ids of a job end or begin in different ways, and the name can be read off each. -/

theorem latency_ne_status (first second : String) : first ++ ".latency" ≠ second ++ ".status" := by
  intro heq
  have hlast := congrArg (fun s => s.toList.getLast?) heq
  simp [String.toList_append] at hlast

theorem ne_runtime {first : String} (hfirst : first.toList.head? = some 'p') (chart second : String) :
    first ++ chart ≠ "netdata.runtime_" ++ second := by
  intro heq
  have hhead := congrArg (fun s => s.toList.head?) heq
  simp [String.toList_append, List.head?_append, hfirst] at hhead

theorem nodup_chartIds {name : String} (hname : name.toList.head? = some 'p') :
    (chartIds monitored name).Nodup := by
  have hlatency := ne_runtime hname ".latency" name
  have hstatus := ne_runtime hname ".status" name
  have hboth := latency_ne_status name name
  cases monitored <;> simp [chartIds, hboth, hlatency, hstatus]

theorem disjoint_chartIds_iff {first second : String} (hfirst : first.toList.head? = some 'p')
    (hsecond : second.toList.head? = some 'p') :
    (chartIds monitored first).Disjoint (chartIds monitored second) ↔ first ≠ second := by
  constructor
  · rintro hdisjoint rfl
    exact hdisjoint List.mem_cons_self List.mem_cons_self
  · intro hne id h1 h2
    have hone := latency_ne_status first second
    have htwo := latency_ne_status second first
    have hlatency := ne_runtime hfirst ".latency" second
    have hstatus := ne_runtime hfirst ".status" second
    have hlatency' := ne_runtime hsecond ".latency" first
    have hstatus' := ne_runtime hsecond ".status" first
    have hmem : ∀ name, id ∈ chartIds monitored name →
        id = name ++ ".latency" ∨ id = name ++ ".status" ∨ id = "netdata.runtime_" ++ name := by
      intro name hid
      cases monitored with
      | false => exact (by simpa [chartIds] using hid : _ ∨ _).imp_right .inl
      | true => simpa [chartIds] using hid
    rcases hmem first h1 with rfl | rfl | rfl <;> rcases hmem second h2 with heq | heq | heq
    · exact hne (String.append_left_inj _ |>.mp heq)
    · exact hone heq
    · exact hlatency heq
    · exact htwo heq.symm
    · exact hne (String.append_left_inj _ |>.mp heq)
    · exact hstatus heq
    · exact hlatency' heq.symm
    · exact hstatus' heq.symm
    · exact hne (String.append_right_inj _ |>.mp heq)

theorem head_jobName : (Line.bare (jobName check)).toList.head? = some 'p' := by
  have hmodule : Line.bare moduleName = "portcheck" := by decide
  rw [jobName, Job.fullName_eq, Line.bare_append, hmodule, String.toList_append, List.head?_append]
  rfl

theorem jobs_apart {config : CollectorsConfig} (hvalid : config.validate = .ok ()) :
    config.portcheck.Pairwise fun a b =>
      ¬ (created plugin monitored a).wireIds.Disjoint (created plugin monitored b).wireIds ↔
        Line.DifferInQuotes (jobName a) (jobName b) := by
  have haccepted := CollectorsConfig.validate_eq_ok_iff.mp hvalid
  have hnamed : ∀ check ∈ config.portcheck, check.job.name.isEmpty = false := fun check hcheck =>
    String.isEmpty_eq_false_iff.mpr (haccepted.named check hcheck)
  have hapart : config.portcheck.Pairwise fun a b => a.job.name ≠ b.job.name :=
    List.pairwise_map.mp haccepted.distinct
  refine hapart.imp_of_mem fun {a b} ha hb hne => ?_
  have hfull : jobName a ≠ jobName b := fun heq =>
    hne (Job.fullName_injective (hnamed a ha) (hnamed b hb) heq)
  rw [Line.differInQuotes_of_ne hfull, (create_start plugin monitored a).2, (create_start plugin monitored b).2,
    disjoint_chartIds_iff monitored (head_jobName a) (head_jobName b), not_not]

end Portcheck

/-! ## What is different on the wire -/

/-- Whatever settings are accepted, every port check gets its charts, the charts of one job have different ids on
the wire, and two jobs have an id in common exactly if their full names differ in quotes alone. Whatever is done
to a catalog, two of its charts have the same id on the wire exactly if their ids differ in quotes alone, and so
have two dimensions of a chart. -/
theorem wire_ids_apart (config : CollectorsConfig) (hvalid : config.validate = .ok ()) (plugin : String)
    (monitored : Bool) (c : Catalog) (hcharts : c.charts = []) (ops : List Catalog.Operation) :
    (∀ check ∈ config.portcheck,
      (Portcheck.start plugin monitored check).create (Portcheck.layout check) =
          (Portcheck.created plugin monitored check, .ok ()) ∧
        (Portcheck.created plugin monitored check).wireIds.Nodup) ∧
    (config.portcheck.Pairwise fun a b =>
      ¬ (Portcheck.created plugin monitored a).wireIds.Disjoint (Portcheck.created plugin monitored b).wireIds ↔
        Line.DifferInQuotes (Portcheck.jobName a) (Portcheck.jobName b)) ∧
    ((c.run ops).catalog.charts.Pairwise fun a b => a.wireId = b.wireId ↔ Line.DifferInQuotes a.id b.id) ∧
    ∀ chart ∈ (c.run ops).catalog.charts,
      chart.dimensions.Pairwise fun d e => d.onWire.id = e.onWire.id ↔ Line.DifferInQuotes d.id e.id := by
  have hcoherent := (Catalog.coherent_empty hcharts).run ops
  refine ⟨fun check _ => ?_, Portcheck.jobs_apart plugin monitored hvalid, hcoherent.charts_apart,
    fun chart hchart => (hcoherent.distinct chart hchart).dimensions_apart⟩
  obtain ⟨hcreate, hids⟩ := Portcheck.create_start plugin monitored check
  refine ⟨hcreate, ?_⟩
  rw [hids]
  exact Portcheck.nodup_chartIds monitored (Portcheck.head_jobName check)

/-- A port check of this machine. -/
def Portcheck.named (name : String) : PortcheckConfig :=
  { job := { name := name }, host := "localhost", port := 80 }

/-- Two charts whose ids differ in a quote, and two such dimensions of the first one. -/
def Catalog.twins : List Catalog.Operation :=
  [.addChart (.array [.string "net", .null, .string "Traffic", .string "kb", .string "net", .string "net.traffic"]),
    .addChart (.array [.string "net'", .null, .string "Traffic", .string "kb", .string "net", .string "net.traffic"]),
    .onChart "net" (.insertDimension (.ofId "in")), .onChart "net" (.insertDimension (.ofId "'in'"))]

/-- Of three port checks two differ in a quote alone; two charts and two dimensions do as well. -/
theorem wire_ids_apart_twins :
    ¬ (Portcheck.created "plugind" true (Portcheck.named "its")).wireIds.Disjoint
        (Portcheck.created "plugind" true (Portcheck.named "it's")).wireIds ∧
    (Portcheck.created "plugind" true (Portcheck.named "it's")).wireIds.Disjoint
        (Portcheck.created "plugind" true (Portcheck.named "db")).wireIds ∧
    ((Catalog.ofJob "job").run Catalog.twins).catalog.charts.Pairwise
      fun a b => a.wireId = b.wireId ↔ Line.DifferInQuotes a.id b.id := by
  have hvalid : (⟨["its", "it's", "db"].map Portcheck.named⟩ : CollectorsConfig).validate = .ok () := by
    decide +kernel
  obtain ⟨-, hjobs, hcharts, -⟩ := wire_ids_apart _ hvalid "plugind" true (Catalog.ofJob "job") rfl Catalog.twins
  obtain ⟨hfirst, hrest⟩ := List.pairwise_cons.mp hjobs
  have htwins := hfirst (Portcheck.named "it's") List.mem_cons_self
  have hothers := (List.pairwise_cons.mp hrest).1 (Portcheck.named "db") List.mem_cons_self
  refine ⟨htwins.mpr (by decide +kernel), ?_, hcharts⟩
  exact not_not.mp (mt hothers.mp (by decide +kernel))

/-- Settings are accepted although two jobs have their charts in common on the wire, and a catalog takes in
charts and dimensions that are the same there. -/
theorem quotes_merge_wire_ids :
    (¬ ∀ config : CollectorsConfig, config.validate = .ok () → ∀ (plugin : String) (monitored : Bool),
      config.portcheck.Pairwise fun a b =>
        (Portcheck.created plugin monitored a).wireIds.Disjoint (Portcheck.created plugin monitored b).wireIds) ∧
    (¬ ∀ ops : List Catalog.Operation, ((Catalog.ofJob "job").run ops).catalog.charts.Pairwise
      fun a b => a.wireId ≠ b.wireId) ∧
    ¬ ∀ ops : List Catalog.Operation, ∀ chart ∈ ((Catalog.ofJob "job").run ops).catalog.charts,
      chart.dimensions.Pairwise fun d e => d.onWire.id ≠ e.onWire.id := by
  refine ⟨fun hjobs => ?_, fun hcharts => ?_, fun hdimensions => ?_⟩
  · have hpair := hjobs ⟨["its", "it's"].map Portcheck.named⟩ (by decide +kernel) "plugind" true
    have hdisjoint := (List.pairwise_cons.mp hpair).1 (Portcheck.named "it's") List.mem_cons_self
    have hplain : "portcheck_its.latency" ∈ (Portcheck.created "plugind" true (Portcheck.named "its")).wireIds := by
      decide +kernel
    have hquoted : "portcheck_its.latency" ∈ (Portcheck.created "plugind" true (Portcheck.named "it's")).wireIds := by
      decide +kernel
    exact hdisjoint hplain hquoted
  · exact absurd (hcharts Catalog.twins) (by decide +kernel)
  · exact absurd (hdimensions Catalog.twins) (by decide +kernel)

end ChartStream
