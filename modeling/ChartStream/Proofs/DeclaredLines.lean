import ChartStream.Config.Plugin
import ChartStream.Portcheck
import ChartStream.Proofs.JsonText
import ChartStream.Proofs.SingleLine

/-!
# Lines of what is declared

Whether the lines about something declared by parameters or configured as a port check are single lines is up
to the strings that were given (`declared_lines_stand_alone`): none is refused for a line break or cleared of it
(`line_breaks_forge_lines`).
-/

namespace ChartStream

set_option autoImplicit false

/-! ## Parameters -/

theorem Chart.ofParameters_eq {params : Json} {c : Chart} (h : ofParameters params = .ok c) :
    ∃ (p : Parameters) (style : ChartStyle) (hidden : Bool), params = .array p.slots ∧
      c = { kind := p.text 0, id := p.text 1, name := p.text 2, title := p.text 3, units := p.text 4,
            family := p.text 5, context := p.text 6, style := style, hidden := hidden } := by
  unfold ofParameters at h
  obtain ⟨p, hp, h⟩ := Catalog.ok_of_bind h
  obtain ⟨kind, hkind, h⟩ := Catalog.ok_of_bind h
  obtain ⟨id, hid, h⟩ := Catalog.ok_of_bind h
  cases h
  rw [Parameters.text_of_id hkind, Parameters.text_of_id hid]
  exact ⟨p, _, _, Parameters.eq_of_read hp, rfl⟩

theorem Dimension.ofParameters_eq {params : Json} {d : Dimension} (h : ofParameters params = .ok d) :
    ∃ p : Parameters, params = .array p.slots ∧ d.id = p.text 0 ∧
      d.name = if (p.text 1).isEmpty then p.text 0 else p.text 1 := by
  unfold ofParameters at h
  obtain ⟨p, hp, h⟩ := Catalog.ok_of_bind h
  obtain ⟨id, hid, h⟩ := Catalog.ok_of_bind h
  cases h
  rw [Parameters.text_of_id hid]
  exact ⟨p, Parameters.eq_of_read hp, rfl, rfl⟩

theorem Variable.ofParameters_eq {params : Json} {v : Variable} (h : ofParameters params = .ok v) :
    ∃ p : Parameters, params = .array p.slots ∧ v.id = p.text 0 := by
  unfold ofParameters at h
  obtain ⟨p, hp, h⟩ := Catalog.ok_of_bind h
  obtain ⟨id, hid, h⟩ := Catalog.ok_of_bind h
  cases h
  exact ⟨p, Parameters.eq_of_read hp, Parameters.text_of_id hid⟩

namespace Chart

variable {params : Json} {c : Chart}

theorem announcement_standsAlone_iff (h : ofParameters params = .ok c) (obsolete : Bool) :
    (c.announcement obsolete).StandsAlone ↔ ∀ slot < 7, ¬ params.BreaksAt slot := by
  obtain ⟨p, style, hidden, rfl, rfl⟩ := ofParameters_eq h
  have hslots : List.range 7 = [0, 1, 2, 3, 4, 5, 6] := rfl
  rw [Line.standsAlone_iff, plain_announcement_iff]
  simp only [← List.mem_range, hslots, ← Parameters.lineBreak_mem_text_iff]
  simp

theorem label_standsAlone (h : ofParameters params = .ok c) : (Line.label c.jobLabel).StandsAlone := by
  obtain ⟨p, style, hidden, -, rfl⟩ := ofParameters_eq h
  rw [Line.standsAlone_iff, Line.plain_label_iff]
  exact List.not_mem_nil

theorem groupStart_standsAlone_iff (h : ofParameters params = .ok c) (sinceLast : Nat) :
    (Line.groupStart c.fullId sinceLast).StandsAlone ↔ ¬ params.BreaksAt 0 ∧ ¬ params.BreaksAt 1 := by
  obtain ⟨p, style, hidden, rfl, rfl⟩ := ofParameters_eq h
  rw [Line.standsAlone_iff, Line.plain_groupStart_iff, lineBreak_not_mem_fullId_iff,
    p.lineBreak_mem_text_iff, p.lineBreak_mem_text_iff]

end Chart

theorem Dimension.standsAlone_iff {params : Json} {d : Dimension} (h : ofParameters params = .ok d) :
    (Line.dimension d).StandsAlone ↔ ¬ params.BreaksAt 0 ∧ ¬ params.BreaksAt 1 := by
  obtain ⟨p, rfl, hid, hname⟩ := ofParameters_eq h
  rw [Line.standsAlone_iff, Line.plain_dimension_iff, hid, hname, ← p.lineBreak_mem_text_iff,
    ← p.lineBreak_mem_text_iff]
  split
  · next hempty =>
    -- The name is the id, and there is no line break in the empty text either.
    rw [String.isEmpty_iff.mp hempty]
    simp
  · rfl

theorem Dimension.setLine_standsAlone_iff {params : Json} {d : Dimension} (h : ofParameters params = .ok d)
    (value : Int) : (d.setLine value).StandsAlone ↔ ¬ params.BreaksAt 0 := by
  obtain ⟨p, rfl, hid, -⟩ := ofParameters_eq h
  rw [Dimension.setLine, Line.standsAlone_iff, Line.plain_set_iff, hid, p.lineBreak_mem_text_iff]

theorem Variable.standsAlone_iff {params : Json} {v : Variable} (h : ofParameters params = .ok v) (value : Int) :
    (Line.variable v.id value).StandsAlone ↔ ¬ params.BreaksAt 0 := by
  obtain ⟨p, rfl, hid⟩ := ofParameters_eq h
  rw [Line.standsAlone_iff, Line.plain_variable_iff, hid, p.lineBreak_mem_text_iff]

/-! ## Catalogs -/

namespace Catalog

/-- A chart that is new and takes all that its entry lists is added with it. -/
theorem createChart_eq {c : Catalog} {id : String} {entry : Layout.Entry} {raw filled : Chart}
    (hbuild : c.build (.array (.string id :: entry.options)) = .ok raw)
    (hnew : ∀ held ∈ c.charts, held.id ≠ raw.id) (hid : filled.id = raw.id)
    (hfill : fill { raw with priority := c.nextPriority } entry =
      ({ filled with priority := c.nextPriority }, none)) :
    c.createChart id entry = (c.push filled, none) := by
  have hcontains : c.contains raw.id = false := by
    simpa [contains, get?] using hnew
  have hadd : c.addChart (.array (.string id :: entry.options)) =
      .ok (c.push raw, { raw with priority := c.nextPriority }) := by
    rw [addChart, hbuild]
    exact if_neg (by simp [hcontains])
  have hput : (c.push raw).put { filled with priority := c.nextPriority } = c.push filled :=
    put_push hnew hid rfl
  simp only [createChart, hadd, hfill, hput]

theorem createAll_of_entry {c created : Catalog} {layout : Layout} {id : String} {entry : Layout.Entry}
    (hentry : layout.entry? id = some entry) (h : c.createChart id entry = (created, none))
    (rest : List String) : c.createAll layout (id :: rest) = created.createAll layout rest := by
  simp only [createAll, hentry, h]

theorem plain_push_iff (c : Catalog) (chart : Chart) : (c.push chart).Plain ↔ c.Plain ∧ chart.Plain := by
  rw [Plain, push, List.forall_mem_append, List.forall_mem_singleton]
  exact Iff.rfl

end Catalog

/-! ## Port checks -/

namespace Portcheck

variable (c : Catalog) (check : PortcheckConfig)

/-- A chart of a port check in the catalog of its job. -/
def plot (id title units : String) (dimensions : List Dimension) : Chart :=
  { kind := c.jobName
    id := id
    title := title
    units := units
    family := check.target
    context := "portcheck." ++ id
    updateEvery := c.updateEvery
    plugin := c.plugin
    module := c.module
    jobLabel := c.jobLabel
    dimensions := dimensions }

def latency : Chart :=
  plot c check "latency" "TCP connect latency" "ms" [{ id := "latency", name := "latency", divisor := 1000 }]

def status : Chart :=
  plot c check "status" "Portcheck status" "boolean"
    [.ofId "success", .ofId "timeout", { id := "failed", name := "no connection" }]

theorem build_plot (hname : c.jobName.isEmpty = false) {id : String} (hid : id.isEmpty = false)
    (title units : String) :
    c.build (.array [.string id, .null, .string title, .string units, .string check.target,
      .string ("portcheck." ++ id), .string "line"]) = .ok (plot c check id title units []) := by
  have hstyle : ChartStyle.ofName? "line" = some .line := rfl
  simp [Catalog.build, Parameters.read, Chart.ofParameters, Parameters.id, Parameters.text, Parameters.textOf,
    hname, hid, hstyle, plot, bind, Except.bind, pure, Except.pure]

/-- The charts of a port check are never refused. -/
theorem create_layout (hname : c.jobName.isEmpty = false) (hcharts : c.charts = []) :
    c.create (layout check) = ((c.push (latency c check)).push (status c check), none) := by
  let entries := layout check
  have hlatency : ∀ entry, entries.entry? "latency" = some entry →
      c.createChart "latency" entry = (c.push (latency c check), none) := by
    intro entry hentry
    cases hentry
    refine Catalog.createChart_eq (build_plot c check hname (by decide) "TCP connect latency" "ms") ?_ rfl rfl
    simp [hcharts]
  have hstatus : ∀ entry, entries.entry? "status" = some entry →
      (c.push (latency c check)).createChart "status" entry =
        ((c.push (latency c check)).push (status c check), none) := by
    intro entry hentry
    cases hentry
    refine Catalog.createChart_eq (build_plot _ check hname (by decide) "Portcheck status" "boolean") ?_ rfl rfl
    simp [hcharts, Catalog.push, latency, plot]
  change c.createAll entries ["latency", "status"] = _
  rw [Catalog.createAll_of_entry rfl (hlatency _ rfl), Catalog.createAll_of_entry rfl (hstatus _ rfl)]
  rfl

/-- The texts that a chart of the check takes from the settings hold no line break. -/
def Unbroken : Prop :=
  '\n' ∉ c.jobName.toList ∧ '\n' ∉ check.target.toList ∧ '\n' ∉ c.plugin.toList ∧ '\n' ∉ c.module.toList ∧
    '\n' ∉ c.jobLabel.toList

theorem plain_plot_iff {id title units : String} {dimensions : List Dimension} (hid : '\n' ∉ id.toList)
    (htitle : '\n' ∉ title.toList) (hunits : '\n' ∉ units.toList)
    (hdimensions : ∀ d ∈ dimensions, (Line.dimension d).Plain) :
    (plot c check id title units dimensions).Plain ↔ Unbroken c check := by
  rw [Chart.plain_iff, Chart.plain_announcement_iff, Line.plain_label_iff]
  simpa [plot, hid, htitle, hunits, Unbroken, and_assoc] using fun _ _ _ _ _ => hdimensions

theorem plain_latency_iff : (latency c check).Plain ↔ Unbroken c check :=
  plain_plot_iff c check (by decide) (by decide) (by decide) (by decide)

theorem plain_status_iff : (status c check).Plain ↔ Unbroken c check :=
  plain_plot_iff c check (by decide) (by decide) (by decide) (by decide)

theorem lineBreak_not_mem_target_iff : '\n' ∉ check.target.toList ↔ '\n' ∉ check.host.toList := by
  have hport := Text.lineBreak_not_mem_digits check.port.toNat
  simp [PortcheckConfig.target, hport]

end Portcheck

namespace Job

theorem lineBreak_not_mem_fullName_iff {module : String} (hmodule : '\n' ∉ module.toList) (job : String) :
    '\n' ∉ (fullName module job).toList ↔ '\n' ∉ job.toList := by
  unfold fullName
  split
  · next hname =>
    rcases Bool.or_eq_true _ _ ▸ hname with hempty | hsame
    · rw [String.isEmpty_iff.mp hempty]
      simp [hmodule]
    · rw [of_decide_eq_true hsame]
  · simp [hmodule]

theorem plain_ownChart_iff (job : Job) :
    job.ownChart.Plain ↔ ∀ s ∈ [job.name, job.plugin, job.module], '\n' ∉ s.toList := by
  rw [Chart.plain_iff, Chart.plain_announcement_iff, Line.plain_label_iff]
  have hruntime : (Line.dimension { id := "run_time", name := "run time" }).Plain := by decide
  simpa [ownChart, hruntime] using fun hname _ _ => hname

theorem fullName_ne_empty {module : String} (hmodule : module.isEmpty = false) (job : String) :
    (fullName module job).isEmpty = false := by
  unfold fullName
  split
  · exact hmodule
  · rw [String.isEmpty_eq_false_iff] at hmodule ⊢
    simp [hmodule]

variable {plugin : String} (hplugin : '\n' ∉ plugin.toList) (monitored : Bool) (check : PortcheckConfig)

include hplugin

theorem unbroken_portcheck_iff :
    Portcheck.Unbroken (ofCollector plugin monitored Portcheck.moduleName check.job.name check.job).catalog check ↔
      '\n' ∉ check.job.name.toList ∧ '\n' ∉ check.host.toList := by
  have hmodule : '\n' ∉ Portcheck.moduleName.toList := by decide
  have hlabel : '\n' ∉ (if check.job.name.isEmpty then Portcheck.moduleName else check.job.name).toList ↔
      '\n' ∉ check.job.name.toList := by
    split
    · next hempty =>
      rw [String.isEmpty_iff.mp hempty]
      simp [hmodule]
    · rfl
  rw [Portcheck.Unbroken, Portcheck.lineBreak_not_mem_target_iff]
  simp only [ofCollector, lineBreak_not_mem_fullName_iff hmodule, hlabel, hplugin, hmodule]
  tauto

/-- The job of a port check is created whatever its settings are, and its charts hold a line break only if its
name or its host does. -/
theorem create_portcheck :
    ∃ job, (ofCollector plugin monitored Portcheck.moduleName check.job.name check.job).create
        (Portcheck.layout check) = (job, .ok ()) ∧
      (job.Plain ↔ '\n' ∉ check.job.name.toList ∧ '\n' ∉ check.host.toList) := by
  have hunbroken := unbroken_portcheck_iff hplugin monitored check
  have hnonempty : (fullName Portcheck.moduleName check.job.name).isEmpty = false :=
    fullName_ne_empty (by decide) check.job.name
  have hmodule : '\n' ∉ Portcheck.moduleName.toList := by decide
  have hname := lineBreak_not_mem_fullName_iff hmodule check.job.name
  let start := ofCollector plugin monitored Portcheck.moduleName check.job.name check.job
  let created := (start.catalog.push (Portcheck.latency start.catalog check)).push
    (Portcheck.status (start.catalog.push (Portcheck.latency start.catalog check)) check)
  have hcreate : start.catalog.create (Portcheck.layout check) = (created, none) :=
    Portcheck.create_layout start.catalog check hnonempty rfl
  have hcatalog : created.Plain ↔ '\n' ∉ check.job.name.toList ∧ '\n' ∉ check.host.toList := by
    have hempty : start.catalog.Plain := fun chart h => by cases h
    rw [Catalog.plain_push_iff, Catalog.plain_push_iff, Portcheck.plain_latency_iff,
      Portcheck.plain_status_iff]
    exact ⟨fun h => hunbroken.mp h.1.2, fun h => ⟨⟨hempty, hunbroken.mpr h⟩, hunbroken.mpr h⟩⟩
  have hown : '\n' ∉ check.job.name.toList → start.ownChart.Plain := by
    intro h
    rw [plain_ownChart_iff]
    simp only [List.mem_cons, List.not_mem_nil, or_false, forall_eq_or_imp, forall_eq]
    exact ⟨hname.mpr h, hplugin, hmodule⟩
  cases monitored with
  | false =>
    refine ⟨{ start with catalog := created }, ?_, fun h => hcatalog.mp h.catalog, fun h => ⟨hcatalog.mpr h, ?_⟩⟩
    · rw [create, hcreate]
      rfl
    · exact fun chart hchart => by cases hchart
  | true =>
    refine ⟨{ start with catalog := created, runtimeChart := some start.ownChart }, ?_,
      fun h => hcatalog.mp h.catalog, fun h => ⟨hcatalog.mpr h, ?_⟩⟩
    · rw [create, hcreate]
      rfl
    · intro chart hchart
      cases hchart
      exact hown h.1

end Job

/-! ## What is declared -/

/-- The lines about something declared by parameters stand alone exactly if none of the strings that they say
holds a line break; the text of any other value never does. The lines about a configured port check stand alone
exactly if its name and its host hold none. -/
theorem declared_lines_stand_alone (params : Json) (config : PluginConfig) (plugin : String) (monitored : Bool)
    (hplugin : '\n' ∉ plugin.toList) :
    (∀ c, Chart.ofParameters params = .ok c →
      (∀ obsolete, (c.announcement obsolete).StandsAlone ↔ ∀ slot < 7, ¬ params.BreaksAt slot) ∧
      (Line.label c.jobLabel).StandsAlone ∧
      ∀ sinceLast, (Line.groupStart c.fullId sinceLast).StandsAlone ↔
        ¬ params.BreaksAt 0 ∧ ¬ params.BreaksAt 1) ∧
    (∀ d, Dimension.ofParameters params = .ok d →
      ((Line.dimension d).StandsAlone ↔ ¬ params.BreaksAt 0 ∧ ¬ params.BreaksAt 1) ∧
      ∀ value, (d.setLine value).StandsAlone ↔ ¬ params.BreaksAt 0) ∧
    (∀ v, Variable.ofParameters params = .ok v →
      ∀ value, (Line.variable v.id value).StandsAlone ↔ ¬ params.BreaksAt 0) ∧
    (config.validate = .ok () → ∀ check ∈ config.collectors.portcheck,
      ∃ job, (Job.ofCollector plugin monitored Portcheck.moduleName check.job.name check.job).create
          (Portcheck.layout check) = (job, .ok ()) ∧
        ((∀ line, job.Writes line → line.StandsAlone) ↔
          '\n' ∉ check.job.name.toList ∧ '\n' ∉ check.host.toList)) := by
  refine ⟨fun c h => ⟨Chart.announcement_standsAlone_iff h, Chart.label_standsAlone h,
      Chart.groupStart_standsAlone_iff h⟩,
    fun d h => ⟨Dimension.standsAlone_iff h, Dimension.setLine_standsAlone_iff h⟩,
    fun v h => Variable.standsAlone_iff h, fun _ check _ => ?_⟩
  obtain ⟨job, hcreate, hplain⟩ := Job.create_portcheck hplugin monitored check
  exact ⟨job, hcreate, job.writes_standAlone_iff.trans hplain⟩

/-- Quotes and line breaks inside of lists do no harm. -/
theorem declared_lines_stand_alone_quotes :
    (∃ d, Dimension.ofParameters (.array [.string "in' 'out", .array [.string "\n"]]) = .ok d ∧
      (Line.dimension d).StandsAlone) ∧
    ∃ job, (Job.ofCollector "plugind" true Portcheck.moduleName "web's" { name := "web's" }).create
        (Portcheck.layout { job := { name := "web's" }, host := "a 'b'", port := 80 }) = (job, .ok ()) ∧
      ∀ line, job.Writes line → line.StandsAlone := by
  let check : PortcheckConfig := { job := { name := "web's" }, host := "a 'b'", port := 80 }
  let config : PluginConfig := { collectors := ⟨[check]⟩ }
  have hvalid : config.validate = .ok () := by decide +kernel
  obtain ⟨-, hdimension, -, hportcheck⟩ := declared_lines_stand_alone
    (.array [.string "in' 'out", .array [.string "\n"]]) config "plugind" true (by decide)
  obtain ⟨job, hcreate, hlines⟩ := hportcheck hvalid check List.mem_cons_self
  exact ⟨⟨_, rfl, (hdimension _ rfl).1.mpr (by decide)⟩, job, hcreate, hlines.mpr (by decide)⟩

/-- A line break in an id ends its line, and what follows is a line of its own. -/
theorem line_breaks_forge_lines :
    (∃ d, Dimension.ofParameters (.array [.string "x\nDISABLE\ny"]) = .ok d ∧
      "DISABLE" ∈ linesOf (Line.dimension d).render) ∧
    ¬ ((∀ params c, Chart.ofParameters params = .ok c →
        (∀ obsolete, (c.announcement obsolete).StandsAlone) ∧ (Line.label c.jobLabel).StandsAlone ∧
          ∀ sinceLast, (Line.groupStart c.fullId sinceLast).StandsAlone) ∧
      (∀ params d, Dimension.ofParameters params = .ok d →
        (Line.dimension d).StandsAlone ∧ ∀ value, (d.setLine value).StandsAlone) ∧
      (∀ params v, Variable.ofParameters params = .ok v → ∀ value, (Line.variable v.id value).StandsAlone) ∧
      ∀ config : PluginConfig, config.validate = .ok () → ∀ check ∈ config.collectors.portcheck,
        ∀ plugin : String, '\n' ∉ plugin.toList → ∀ monitored,
          ∃ job, (Job.ofCollector plugin monitored Portcheck.moduleName check.job.name check.job).create
              (Portcheck.layout check) = (job, .ok ()) ∧
            ∀ line, job.Writes line → line.StandsAlone) := by
  refine ⟨⟨_, rfl, by decide⟩, fun ⟨_, hdimensions, _⟩ => ?_⟩
  have hline := (hdimensions (.array [.string "x\nDISABLE\ny"]) _ rfl).1
  rw [Line.standsAlone_iff] at hline
  exact absurd hline (by decide)

end ChartStream
