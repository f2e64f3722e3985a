import ChartStream.Proofs.JobCycles

/-!
# The groups of a cycle

Which groups the text of one cycle holds. Main definitions: `Line.groups?`, which reads the groups out of
lines; `Chart.Matches` and `Chart.dueGroup`, which say for which charts there is to be a group, and what it is
to hold. Main result: `Catalog.cycle_groups`.
-/

namespace ChartStream

set_option autoImplicit false

/-! ## Groups in a stream -/

namespace Line

/-- A group as it stands in a stream: the chart that it is for, and the lines up to its end. -/
structure Group where
  fullId : String
  values : List Line
  deriving DecidableEq

/-- Reads groups, where `open?` is the group that is not closed yet. There are none to be read if one is left
open, if a group holds something else than values, or if the value of a dimension stands outside of groups. -/
def groupsFrom? : (open? : Option Group) → List Line → Option (List Group)
  | none, [] => some []
  | none, .groupStart id _ :: rest => groupsFrom? (some ⟨id, []⟩) rest
  | none, .set _ _ :: _ => none
  | none, .groupEnd :: _ => none
  | none, _ :: rest => groupsFrom? none rest
  | some _, [] => none
  | some g, .groupEnd :: rest => (groupsFrom? none rest).map (g :: ·)
  | some g, line :: rest =>
    if line.isValue then groupsFrom? (some { g with values := g.values ++ [line] }) rest else none

/-- The groups that lines hold, in order. -/
def groups? (lines : List Line) : Option (List Group) :=
  groupsFrom? none lines

/-- The line begins a group. -/
def isGroupStart : Line → Bool
  | .groupStart _ _ => true
  | _ => false

/-- The line may stand between groups. -/
def isBetween : Line → Bool
  | .groupStart _ _ => false
  | .set _ _ => false
  | .groupEnd => false
  | _ => true

theorem groups?_append_of_between {first : List Line} (h : ∀ line ∈ first, line.isBetween = true)
    (second : List Line) : groups? (first ++ second) = groups? second := by
  induction first with
  | nil => rfl
  | cons line rest ih =>
    have hline := h line List.mem_cons_self
    have hrest := ih fun l hl => h l (List.mem_cons_of_mem line hl)
    cases line with
    | groupStart id n => cases hline
    | set id n => cases hline
    | groupEnd => cases hline
    | _ => exact hrest

theorem groupsFrom?_value (g : Group) {line : Line} (h : line.isValue = true) (rest : List Line) :
    groupsFrom? (some g) (line :: rest) = groupsFrom? (some { g with values := g.values ++ [line] }) rest := by
  cases line with
  | groupEnd => cases h
  | _ => simp only [groupsFrom?, h, if_true]

theorem groupsFrom?_values (g : Group) {values : List Line} (h : ∀ line ∈ values, line.isValue = true)
    (rest : List Line) :
    groupsFrom? (some g) (values ++ .groupEnd :: rest) =
      (groups? rest).map ({ g with values := g.values ++ values } :: ·) := by
  induction values generalizing g with
  | nil =>
    rw [List.append_nil]
    rfl
  | cons line values ih =>
    have hvalues := ih { g with values := g.values ++ [line] } fun l hl => h l (List.mem_cons_of_mem line hl)
    rw [List.cons_append, groupsFrom?_value g (h line List.mem_cons_self), hvalues, List.append_assoc,
      List.singleton_append]

theorem groups?_group (id : String) (sinceLast : Nat) {values : List Line}
    (h : ∀ line ∈ values, line.isValue = true) (rest : List Line) :
    groups? (.groupStart id sinceLast :: (values ++ .groupEnd :: rest)) =
      (groups? rest).map (⟨id, values⟩ :: ·) :=
  groupsFrom?_values ⟨id, []⟩ h rest

theorem countP_of_groupsFrom? {open? : Option Group} {lines : List Line} {groups : List Group}
    (h : groupsFrom? open? lines = some groups) :
    lines.countP isGroupStart + open?.toList.length = groups.length := by
  fun_induction groupsFrom? open? lines generalizing groups with
  | case1 =>
    cases h
    rfl
  | case2 id n rest ih =>
    have hrest := ih h
    simpa [isGroupStart, List.countP_cons] using hrest
  | case3 => cases h
  | case4 => cases h
  | case5 line rest hstart hset hend ih =>
    have hrest := ih h
    cases line with
    | groupStart id n => exact absurd rfl (hstart id n)
    | _ => simpa [isGroupStart, List.countP_cons] using hrest
  | case6 => cases h
  | case7 g rest ih =>
    obtain ⟨more, hmore, rfl⟩ := Option.map_eq_some_iff.mp h
    have hrest := ih hmore
    simpa [isGroupStart, List.countP_cons] using hrest
  | case8 g line rest hend hvalue ih =>
    have hrest := ih h
    cases line with
    | groupStart id n => cases hvalue
    | _ => simpa [isGroupStart, List.countP_cons] using hrest
  | case9 => cases h

/-- There are as many groups as lines that begin one. -/
theorem countP_of_groups? {lines : List Line} {groups : List Group} (h : groups? lines = some groups) :
    lines.countP isGroupStart = groups.length :=
  countP_of_groupsFrom? h

theorem isBetween_onWire (line : Line) : line.onWire.isBetween = line.isBetween := by
  cases line <;> rfl

end Line

/-! ## The groups of one chart -/

/-- The integers that samples hold for ids, in the order of these, each with its id. -/
def Samples.readings (data : Samples) (ids : List String) : List (String × Int) :=
  ids.filterMap fun id => (data.integer? id).map (id, ·)

namespace Chart

/-- The id of a dimension in use or of a variable is a key of the samples. -/
def Matches (c : Chart) (data : Samples) : Prop :=
  (∃ d ∈ c.dimensions, d.obsolete = false ∧ data.contains d.id = true) ∨
    ∃ v ∈ c.vars, data.contains v.id = true

theorem matches_iff (c : Chart) (data : Samples) : c.Matches data ↔ c.accepts data = true :=
  (c.accepts_iff data).symm

instance (c : Chart) (data : Samples) : Decidable (c.Matches data) :=
  decidable_of_iff (c.accepts data = true) (c.accepts_iff data)

/-- The ids of the dimensions in use. -/
def idsInUse (c : Chart) : List String :=
  (c.dimensions.filter fun d => !d.obsolete).map (·.id)

/-- The group that a chart is to have: a value for each dimension in use that samples hold an integer for, then
one for each such variable. -/
def dueGroup (c : Chart) (data : Samples) : Line.Group where
  fullId := Line.bare c.fullId
  values := (data.readings c.idsInUse).map (fun reading => .set (Line.bare reading.1) reading.2)
    ++ (data.readings (c.vars.map (·.id))).map fun reading => .variable (Line.bare reading.1) reading.2

variable (c : Chart) (data : Samples) (sinceLast cleanup : Nat)

theorem dueGroup_eq : c.dueGroup data = ⟨c.wireId, (c.values data).map Line.onWire⟩ := by
  simp [dueGroup, wireId, values, Samples.readings, idsInUse, List.filterMap_map, List.map_filterMap,
    Function.comp_def, Dimension.sample?, Variable.sample?, Dimension.setLine, Line.onWire]

/-- A declaration takes only dimensions away that are not in use. -/
theorem dueGroup_known : c.known.dueGroup data = c.dueGroup data := by
  have hrevived : c.revived.dueGroup data = c.dueGroup data := by
    rw [revived_eq]
    rfl
  rw [← hrevived]
  unfold known
  split
  · simp [dueGroup, idsInUse, declared, fullId]
  · rfl

theorem between_overture : ∀ line ∈ c.overture.map Line.onWire, line.isBetween = true := by
  intro line hl
  obtain ⟨raw, hraw, rfl⟩ := List.mem_map.mp hl
  rw [Line.isBetween_onWire]
  rcases mem_declaration (mem_overture hraw) with rfl | rfl | rfl | ⟨d, -, rfl⟩ | ⟨v, -, n, rfl⟩ <;> rfl

theorem between_obsoletion : ∀ line ∈ c.obsoletion.map Line.onWire, line.isBetween = true := by
  intro line hl
  obtain ⟨raw, hraw, rfl⟩ := List.mem_map.mp hl
  rw [Line.isBetween_onWire, mem_obsoletion hraw]
  rfl

variable {c data}

theorem groups?_update (h : c.accepts data = true) (rest : List Line) :
    Line.groups? ((c.update data sinceLast).lines.map Line.onWire ++ rest) =
      (Line.groups? rest).map (c.dueGroup data :: ·) := by
  have hgroup := c.known.dueGroup_eq data
  rw [dueGroup_known] at hgroup
  rw [update_of_accepts h, List.map_append, List.append_assoc,
    Line.groups?_append_of_between c.between_overture, group_eq, List.map_cons, List.map_append, hgroup]
  simpa [Line.onWire, wireId] using Line.groups?_group c.known.wireId _ (c.known.isValue_values data) rest

end Chart

/-! ## The groups of a cycle -/

namespace Catalog

variable {data : Samples} {chart : Chart} (sinceLast cleanup : Nat)

theorem step_of_accepts (h : chart.accepts data = true) :
    step data sinceLast cleanup chart = chart.update data sinceLast := by
  have hupdated := chart.updated_update data sinceLast
  rw [h] at hupdated
  simp [step, h, hupdated]

/-- A chart without values is passed over if it was given up; else it has missed one cycle more, and is given up
if that makes `cleanup` of them. -/
theorem step_of_not_accepts (h : chart.accepts data = false) :
    step data sinceLast cleanup chart =
      if chart.isObsolete then ⟨chart, [], false⟩
      else if 0 < cleanup ∧ cleanup ≤ chart.missed + 1 then
        ⟨({ chart with missed := chart.missed + 1 } : Chart).obsolete, chart.obsoletion, false⟩
      else ⟨{ chart with missed := chart.missed + 1 }, [], false⟩ := by
  unfold step
  cases hobsolete : chart.isObsolete with
  | true => simp [h]
  | false =>
    rw [Chart.update_of_not_accepts h]
    simp [h]
    rfl

theorem groups?_step (data : Samples) (chart : Chart) (rest : List Line) :
    Line.groups? ((step data sinceLast cleanup chart).lines.map Line.onWire ++ rest) =
      (Line.groups? rest).map ((if chart.Matches data then [chart.dueGroup data] else []) ++ ·) := by
  cases haccepts : chart.accepts data with
  | true =>
    rw [step_of_accepts sinceLast cleanup haccepts, Chart.groups?_update sinceLast haccepts,
      if_pos ((chart.matches_iff data).mpr haccepts)]
    rfl
  | false =>
    have hidle : ∀ line ∈ (step data sinceLast cleanup chart).lines.map Line.onWire, line.isBetween = true := by
      rw [step_of_not_accepts sinceLast cleanup haccepts]
      split
      · simp
      · split
        · exact chart.between_obsoletion
        · simp
    rw [Line.groups?_append_of_between hidle, if_neg (by simp [chart.matches_iff, haccepts])]
    simp

/-- The charts take their parts one after the other. -/
theorem groups?_steps (data : Samples) (charts : List Chart) :
    Line.groups? ((charts.flatMap fun chart => (step data sinceLast cleanup chart).lines).map Line.onWire) =
      some ((charts.filter (·.Matches data)).map (·.dueGroup data)) := by
  induction charts with
  | nil => rfl
  | cons chart rest ih =>
    rw [List.flatMap_cons, List.map_append, groups?_step, ih, List.filter_cons]
    by_cases hmatches : chart.Matches data <;> simp [hmatches]

/-- The chart of a cycle without values for it stays what it is, but for its state. -/
theorem kept_step (h : ¬ chart.Matches data) :
    (step data sinceLast cleanup chart).chart.dimensions = chart.dimensions ∧
      (step data sinceLast cleanup chart).chart.vars = chart.vars := by
  have haccepts : chart.accepts data = false := by simpa [chart.matches_iff] using h
  rw [step_of_not_accepts sinceLast cleanup haccepts]
  split
  · exact ⟨rfl, rfl⟩
  · split
    · unfold Chart.obsolete
      split <;> exact ⟨rfl, rfl⟩
    · exact ⟨rfl, rfl⟩

theorem updated_eq (c : Catalog) (data : Samples) (sinceLast cleanup : Nat) :
    (c.update data sinceLast cleanup).updated = (c.charts.filter (·.Matches data)).length := by
  rw [update, ← List.countP_eq_length_filter, List.countP_map]
  exact List.countP_congr fun chart _ => by simp [updated_step, chart.matches_iff]

theorem plain_steps (data : Samples) {charts : List Chart} (h : ∀ chart ∈ charts, chart.Plain) :
    ∀ line ∈ charts.flatMap fun chart => (step data sinceLast cleanup chart).lines, line.Plain := by
  intro line hline
  obtain ⟨chart, hchart, hline⟩ := List.mem_flatMap.mp hline
  have hupdate := Chart.plain_update (h chart hchart) data sinceLast
  have hobsoletion := Chart.plain_obsoletion ((h chart hchart).update data sinceLast)
  rcases step_cases data sinceLast cleanup chart with hstep | hstep | hstep <;> rw [hstep] at hline
  · cases hline
  · exact hupdate line hline
  · exact (List.mem_append.mp hline).elim (hupdate line) (hobsoletion line)

/-- The text of a cycle has one group for each chart that the samples have a key for, in the order of the
charts, and the cycle tells how many. A group holds the integers of the dimensions in use, then those of the
variables, in their order, and nothing else; no value of a dimension stands elsewhere. The charts keep their
order, and those without a key their dimensions and variables. -/
theorem cycle_groups (c : Catalog) (hcharts : c.charts = []) (hpending : c.pending = []) (ops : List Operation)
    (data : Samples) (sinceLast cleanup : Nat) (hplain : (c.run ops).catalog.Plain)
    (hwaiting : ∀ line ∈ (c.run ops).catalog.pending, line.Plain) :
    ∃ lines,
      Line.readLines? (Line.renderAll ((c.run ops).catalog.update data sinceLast cleanup).lines) = some lines ∧
      Line.groups? lines =
        some (((c.run ops).catalog.charts.filter (·.Matches data)).map (·.dueGroup data)) ∧
      ((c.run ops).catalog.update data sinceLast cleanup).updated = lines.countP Line.isGroupStart ∧
      ((c.run ops).catalog.update data sinceLast cleanup).updated =
        (c.run ops).catalog.charts.countP (·.Matches data) ∧
      List.Forall₂ (fun before after : Chart => after.fullId = before.fullId ∧
          (¬ before.Matches data → after.dimensions = before.dimensions ∧ after.vars = before.vars))
        (c.run ops).catalog.charts ((c.run ops).catalog.update data sinceLast cleanup).catalog.charts := by
  have hbetween : ∀ line ∈ (c.run ops).catalog.pending.map Line.onWire, line.isBetween = true := by
    intro line hline
    obtain ⟨raw, hraw, rfl⟩ := List.mem_map.mp hline
    obtain ⟨a, rfl, -⟩ := ((uniform_empty hcharts hpending).run ops).pending raw hraw
    rfl
  generalize (c.run ops).catalog = reached at hplain hwaiting hbetween ⊢
  have hlines : ∀ line ∈ (reached.update data sinceLast cleanup).lines, line.Plain := by
    rw [lines_update]
    exact fun line hline =>
      (List.mem_append.mp hline).elim (hwaiting line) (plain_steps sinceLast cleanup data hplain line)
  have hgroups : Line.groups? ((reached.update data sinceLast cleanup).lines.map Line.onWire) =
      some ((reached.charts.filter (·.Matches data)).map (·.dueGroup data)) := by
    rw [lines_update, List.map_append, Line.groups?_append_of_between hbetween, groups?_steps]
  have hcount := Line.countP_of_groups? hgroups
  rw [List.length_map] at hcount
  refine ⟨_, Line.readLines?_renderAll _ hlines, hgroups, ?_, ?_, ?_⟩
  · rw [updated_eq, hcount]
  · rw [updated_eq, List.countP_eq_length_filter]
  · rw [charts_update, List.forall₂_map_right_iff, List.forall₂_same]
    intro chart _
    exact ⟨Chart.fullId_of_header (header_step data sinceLast cleanup chart), kept_step sinceLast cleanup⟩

/-- Two charts have a dimension of the same id. One of them has a dimension that is taken back, the other one is
given up; a third chart has no values. -/
def meters : List Operation :=
  [.addChart (.array [.string "net", .null, .string "Traffic", .string "kb", .string "net",
      .string "net.traffic"]),
    .addChart (.array [.string "disk", .null, .string "Reads", .string "ops", .string "disk",
      .string "disk.reads"]),
    .addChart (.array [.string "load", .null, .string "Load", .string "1", .string "load",
      .string "load.avg"]),
    .onChart "net" (.insertDimension (.ofId "in")),
    .onChart "net" (.insertDimension (.ofId "out")),
    .onChart "net" (.insertDimension (.ofId "it's")),
    .onChart "net" (.addVariable (.array [.string "limit", .integer 9])),
    .onChart "disk" (.insertDimension (.ofId "in")),
    .onChart "load" (.insertDimension (.ofId "avg")),
    .update ⟨[("in", .integer 1), ("avg", .integer 1)]⟩ 0 0,
    .onChart "net" (.removeDimension "out" true),
    .obsoleteChart "disk"]

/-- A value as text, one for the dimension that is taken back, an unreadable one and one for a variable. -/
def meterSamples : Samples :=
  ⟨[("in", .string " +7 "), ("out", .integer 8), ("it's", .string "n/a"), ("limit", .integer 10)]⟩

theorem cycle_groups_meters :
    ((Catalog.ofJob "job").run meters).catalog.Plain ∧
    (∀ line ∈ ((Catalog.ofJob "job").run meters).catalog.pending, line.Plain) ∧
    ((Catalog.ofJob "job").run meters).catalog.charts.countP (·.Matches meterSamples) = 2 ∧
    ∃ lines,
      Line.readLines? (Line.renderAll
        (((Catalog.ofJob "job").run meters).catalog.update meterSamples 1 1).lines) = some lines ∧
      Line.groups? lines =
        some [⟨"job.net", [.set "in" 7, .variable "limit" 10]⟩, ⟨"job.disk", [.set "in" 7]⟩] := by
  have hplain : ((Catalog.ofJob "job").run meters).catalog.Plain := by
    unfold Catalog.Plain
    decide +kernel
  have hwaiting : ∀ line ∈ ((Catalog.ofJob "job").run meters).catalog.pending, line.Plain := by decide +kernel
  have hdue : (((Catalog.ofJob "job").run meters).catalog.charts.filter (·.Matches meterSamples)).map
      (·.dueGroup meterSamples) =
        [⟨"job.net", [.set "in" 7, .variable "limit" 10]⟩, ⟨"job.disk", [.set "in" 7]⟩] := by decide +kernel
  obtain ⟨lines, hlines, hgroups, -⟩ :=
    cycle_groups (Catalog.ofJob "job") rfl rfl meters meterSamples 1 1 hplain hwaiting
  exact ⟨hplain, hwaiting, by decide +kernel, lines, hlines, hdue ▸ hgroups⟩

end Catalog

end ChartStream
