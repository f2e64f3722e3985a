import ChartStream.Proofs.JobStream

/-!
# Single lines

Quotes are dropped from texts, line breaks are not: the text of a line is a single line exactly as long as the
texts in it hold no line break (`Line.standsAlone_iff`). So all lines about a chart are single lines exactly if
the texts of the chart hold none (`Chart.writes_standAlone_iff`).
-/

namespace ChartStream

set_option autoImplicit false

/-! ## Lines -/

namespace Line

/-- The text of the line is a single line with a line break at its end, and reads as the line. -/
def StandsAlone (line : Line) : Prop :=
  ∃ body, line.render.toList = body ++ ['\n'] ∧ '\n' ∉ body ∧ read? body = some line.onWire

theorem mem_joined {c : Char} {field : String} {fields : List String} (hfield : field ∈ fields)
    (hc : c ∈ field.toList) : c ∈ (joined fields).toList := by
  induction fields with
  | nil => cases hfield
  | cons first rest ih =>
    cases rest with
    | nil => exact List.mem_singleton.mp hfield ▸ hc
    | cons next rest =>
      simp only [joined, String.toList_append]
      rcases List.mem_cons.mp hfield with rfl | hmem
      · exact List.mem_append_left _ (List.mem_append_left _ hc)
      · exact List.mem_append_right _ (ih hmem)

theorem lineBreak_mem_quoted {s : String} (h : '\n' ∈ s.toList) : '\n' ∈ (quoted s).toList := by
  have hkept : '\n' ∈ unquoted s.toList := List.mem_filter.mpr ⟨h, by decide⟩
  simp [quoted, hkept]

theorem lineBreak_not_mem_body_iff (line : Line) : '\n' ∉ line.body ↔ line.Plain := by
  rw [body, fields_eq_parts]
  constructor
  · intro h f hf
    cases f with
    | word s => trivial
    | text s =>
      intro hbreak
      exact h (mem_joined (List.mem_map_of_mem hf) (lineBreak_mem_quoted hbreak))
  · exact joined_plain line.parts line.parts_clear

theorem standsAlone_iff (line : Line) : line.StandsAlone ↔ line.Plain := by
  rw [← lineBreak_not_mem_body_iff]
  constructor
  · rintro ⟨body, htext, hbody, -⟩
    rw [render_toList] at htext
    rwa [List.append_cancel_right htext]
  · exact fun h => ⟨line.body, line.render_toList, h, line.read?_body⟩

theorem plain_dimension_iff (d : Dimension) :
    (Line.dimension d).Plain ↔ '\n' ∉ d.id.toList ∧ '\n' ∉ d.name.toList := by
  constructor
  · intro h
    exact ⟨h (.text d.id) (by simp [parts]), h (.text d.name) (by simp [parts])⟩
  · exact fun h => Chart.plain_dimensionLine h.1 h.2

end Line

/-! ## Charts -/

namespace Chart

/-- The lines that can be sent about a chart, but for those without a text. -/
inductive Writes (c : Chart) : Line → Prop
  | announcement (obsolete : Bool) : Writes c (c.announcement obsolete)
  | label : Writes c (.label c.jobLabel)
  | dimension (d : Dimension) (hd : d ∈ c.dimensions) : Writes c (.dimension d)
  | number (v : Variable) (hv : v ∈ c.vars) (value : Int) : Writes c (.variable v.id value)
  | groupStart (sinceLast : Nat) : Writes c (.groupStart c.fullId sinceLast)
  | set (d : Dimension) (hd : d ∈ c.dimensions) (value : Int) : Writes c (d.setLine value)

theorem lineBreak_not_mem_fullId_iff (c : Chart) :
    '\n' ∉ c.fullId.toList ↔ '\n' ∉ c.kind.toList ∧ '\n' ∉ c.id.toList := by
  simp [fullId]

theorem plain_announcement_iff (c : Chart) (obsolete : Bool) :
    (c.announcement obsolete).Plain ↔
      ∀ s ∈ [c.kind, c.id, c.name, c.title, c.units, c.family, c.context, c.plugin, c.module],
        '\n' ∉ s.toList := by
  have hstyle : '\n' ∉ c.style.name.toList := by cases c.style <;> decide
  have hflags := lineBreak_not_mem_flags c.hidden obsolete
  have hfullId := c.lineBreak_not_mem_fullId_iff
  simp [announcement, Line.Plain, Line.parts, Line.Field.Plain, hfullId, hstyle, hflags, and_assoc]

theorem plain_iff (c : Chart) :
    c.Plain ↔ (c.announcement false).Plain ∧ (Line.label c.jobLabel).Plain ∧
      (∀ d ∈ c.dimensions, (Line.dimension d).Plain) ∧ ∀ v ∈ c.vars, '\n' ∉ v.id.toList := by
  constructor
  · intro h
    exact ⟨plain_announcement h false, (Line.plain_label_iff _).mpr (h c.jobLabel (by simp [texts])),
      fun d hd => (Line.plain_dimension_iff d).mpr (h.dimension hd), fun v hv => h.variable hv⟩
  · rintro ⟨hheader, hlabel, hdimensions, hvars⟩ s hs
    rw [plain_announcement_iff] at hheader
    rw [Line.plain_label_iff] at hlabel
    simp only [texts, List.mem_append, List.mem_flatMap, List.mem_map] at hs
    rcases hs with (hs | ⟨d, hd, hs⟩) | ⟨v, hv, rfl⟩
    · rcases List.mem_append.mp (show s ∈ [c.kind, c.id, c.name, c.title, c.units, c.family, c.context,
          c.plugin, c.module] ++ [c.jobLabel] from hs) with hs | hs
      · exact hheader s hs
      · exact List.mem_singleton.mp hs ▸ hlabel
    · obtain ⟨hid, hname⟩ := (Line.plain_dimension_iff d).mp (hdimensions d hd)
      rcases List.mem_cons.mp hs with rfl | hs
      · exact hid
      · exact List.mem_singleton.mp hs ▸ hname
    · exact hvars v hv

/-- All lines about a chart stand alone exactly if its texts hold no line break. -/
theorem writes_standAlone_iff (c : Chart) : (∀ line, c.Writes line → line.StandsAlone) ↔ c.Plain := by
  simp only [Line.standsAlone_iff]
  constructor
  · intro h
    exact c.plain_iff.mpr ⟨h _ (.announcement false), h _ .label, fun d hd => h _ (.dimension d hd),
      fun v hv => (Line.plain_variable_iff _ _).mp (h _ (.number v hv 0))⟩
  · intro h line hline
    cases hline with
    | announcement obsolete => exact plain_announcement h obsolete
    | label => exact (c.plain_iff.mp h).2.1
    | dimension d hd => exact (c.plain_iff.mp h).2.2.1 d hd
    | number v hv value => exact (Line.plain_variable_iff _ _).mpr (h.variable hv)
    | groupStart sinceLast => exact (Line.plain_groupStart_iff _ _).mpr h.fullId
    | set d hd value => exact (Line.plain_set_iff _ _).mpr (h.dimension hd).1

end Chart

/-! ## Jobs -/

namespace Job

/-- The lines that can be sent about a chart of the job, but for those without a text. -/
def Writes (job : Job) (line : Line) : Prop :=
  ∃ chart ∈ job.catalog.charts ++ job.runtimeChart.toList, chart.Writes line

theorem writes_standAlone_iff (job : Job) :
    (∀ line, job.Writes line → line.StandsAlone) ↔ job.Plain := by
  have hcharts : (∀ line, job.Writes line → line.StandsAlone) ↔
      ∀ chart ∈ job.catalog.charts ++ job.runtimeChart.toList, chart.Plain := by
    simp only [← Chart.writes_standAlone_iff]
    constructor
    · exact fun h chart hchart line hline => h line ⟨chart, hchart, hline⟩
    · exact fun h line ⟨chart, hchart, hline⟩ => h chart hchart line hline
  rw [hcharts, List.forall_mem_append]
  constructor
  · exact fun h => ⟨h.1, fun chart hchart => h.2 chart (Option.mem_toList.mpr hchart)⟩
  · exact fun h => ⟨h.catalog, fun chart hchart => h.runtime chart (Option.mem_toList.mp hchart)⟩

end Job

end ChartStream
