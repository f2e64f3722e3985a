import ChartStream.Proofs.ChartMarks
import ChartStream.Proofs.WireIds

/-!
# Variables on the wire

What a reader of a stream takes the value of a variable to be. Main definitions: `Line.valueFor?`, which reads the
values of a variable, and `Chart.reportsOf`, which tells what the operations on a chart report of it. Main results:
`Chart.last_variable_line`, `Chart.variables_overtaken`.
-/

namespace ChartStream

set_option autoImplicit false

/-! ## Values in a stream -/

namespace Line

/-- The value that the line gives to the variable. -/
def valueFor? (id : String) : Line → Option Int
  | .variable other n => if other = id then some n else none
  | _ => none

/-- The values that lines give to a variable, in order. -/
def valuesFor (id : String) (lines : List Line) : List Int :=
  lines.filterMap (valueFor? id)

theorem valuesFor_append (id : String) (first second : List Line) :
    valuesFor id (first ++ second) = valuesFor id first ++ valuesFor id second :=
  List.filterMap_append

theorem valuesFor_eq_nil {id : String} {lines : List Line} (h : ∀ line ∈ lines, line.valueFor? id = none) :
    valuesFor id lines = [] :=
  List.filterMap_eq_nil_iff.mpr h

/-- Of the lines of variables, those of one id on the wire. -/
theorem valuesFor_vars (id : String) (vars : List Variable) (value : Variable → Option Int) :
    valuesFor id ((vars.filterMap fun v => (value v).map (.variable v.id)).map onWire) =
      (vars.filter fun v => bare v.id = id).filterMap value := by
  induction vars with
  | nil => rfl
  | cons v rest ih =>
    rw [List.filter_cons]
    cases hvalue : value v with
    | none =>
      rw [List.filterMap_cons_none (by rw [hvalue]; rfl), ih]
      split
      · rw [List.filterMap_cons_none hvalue]
      · rfl
    | some n =>
      rw [List.filterMap_cons_some (by rw [hvalue]; rfl), List.map_cons, ← List.singleton_append, valuesFor_append, ih]
      by_cases hid : bare v.id = id <;> simp [valuesFor, valueFor?, onWire, hid, hvalue]

end Line

/-! ## Reports -/

/-- What an operation on a chart reports of a variable of it. -/
inductive Report where
  /-- The chart is declared. -/
  | declared
  /-- A cycle has an integer for the variable. -/
  | resolved (n : Int)
  deriving DecidableEq

namespace Report

/-- The value that is reported of a variable with this value of its own. -/
def value? (preset : Option Int) : Report → Option Int
  | .declared => preset
  | .resolved n => some n

def resolved? : Report → Option Int
  | .declared => none
  | .resolved n => some n

/-- The integer that was resolved last. -/
def lastResolved? (reports : List Report) : Option Int :=
  (reports.filterMap resolved?).getLast?

/-- The value reported last is that of the last resolved integer, unless the chart was declared after it. -/
theorem getLast?_values (preset : Option Int) (reports : List Report) :
    (reports.filterMap (value? preset)).getLast? =
      (if reports.getLast? = some .declared then preset else none).or (lastResolved? reports) := by
  induction reports using List.reverseRecOn with
  | nil => rfl
  | append_singleton earlier last ih =>
    rw [lastResolved?, List.getLast?_concat, List.filterMap_append, List.filterMap_append, List.getLast?_append, ih]
    cases last with
    | declared => cases preset <;> simp [value?, resolved?, lastResolved?]
    | resolved n => simp [value?, resolved?]

end Report

namespace Chart

/-! ## The variables of a chart -/

/-- No two variables of the chart have the same id. -/
def DistinctVars (c : Chart) : Prop :=
  (c.vars.map (·.id)).Nodup

/-- The variables that are known by an id on the wire. -/
def namesakes (c : Chart) (id : String) : List Variable :=
  c.vars.filter fun v => Line.bare v.id = id

/-- The integer that the operation, if it is a cycle that updates the chart, has for the variable. -/
def resolved? (c : Chart) (id : String) : Operation → Option Int
  | .update data sinceLast => if (c.update data sinceLast).updated then data.integer? id else none
  | _ => none

/-- What the operation reports of the variable, if the chart has it. -/
def reports (c : Chart) (id : String) (op : Operation) : List Report :=
  if id ∈ c.vars.map (·.id) then
    (if .declaration c.fullId ∈ (c.apply op).lines.filterMap Line.opens? then [.declared] else [])
      ++ (c.resolved? id op).toList.map .resolved
  else []

/-- What operations report of the variable. -/
def reportsOf (c : Chart) (id : String) : List Operation → List Report
  | [] => []
  | op :: rest => c.reports id op ++ (c.apply op).chart.reportsOf id rest

variable (c : Chart)

theorem vars_revived : c.revived.vars = c.vars := by
  rw [revived_eq]

theorem vars_known : c.known.vars = c.vars := by
  rw [known_eq]

theorem vars_update (data : Samples) (sinceLast : Nat) : (c.update data sinceLast).chart.vars = c.vars := by
  cases haccepts : c.accepts data with
  | true =>
    rw [update_of_accepts haccepts]
    exact c.vars_known
  | false => rw [update_of_not_accepts haccepts]

/-- An operation leaves the variables as they are, but that it may add one of a new id. -/
theorem vars_apply (op : Operation) :
    (c.apply op).chart.vars = c.vars ∨
      ∃ v : Variable, (∀ held ∈ c.vars, held.id ≠ v.id) ∧ (c.apply op).chart.vars = c.vars ++ [v] := by
  cases hrenews : op.renews with
  | true =>
    left
    rcases c.renewsOrFails_apply hrenews with ⟨-, dimensions, hchart⟩ | ⟨-, hchart⟩ <;> rw [hchart]
    rfl
  | false =>
    cases op with
    | addVariable params =>
      rcases c.apply_addVariable params with hchart | ⟨v, hnew, hchart⟩ <;> rw [hchart]
      · exact .inl rfl
      · exact .inr ⟨v, hnew, rfl⟩
    | declare => exact .inl rfl
    | obsolete =>
      left
      simp only [apply, obsolete]
      split <;> rfl
    | update data sinceLast => exact .inl (c.vars_update data sinceLast)
    | _ => cases hrenews

variable {c}

theorem DistinctVars.apply (h : c.DistinctVars) (op : Operation) : (c.apply op).chart.DistinctVars := by
  rw [DistinctVars]
  rcases c.vars_apply op with hvars | ⟨v, hnew, hvars⟩ <;> rw [hvars]
  · exact h
  · rw [List.map_append]
    refine List.nodup_append.mpr ⟨h, by simp, fun id hid other hother => ?_⟩
    obtain ⟨held, hheld, rfl⟩ := List.mem_map.mp hid
    rw [List.mem_singleton.mp hother]
    exact hnew held hheld

theorem DistinctVars.run (h : c.DistinctVars) (ops : List Operation) : (c.run ops).chart.DistinctVars := by
  induction ops generalizing c with
  | nil => exact h
  | cons op rest ih => exact ih (h.apply op)

theorem vars_run (c : Chart) (ops : List Operation) : c.vars <+: (c.run ops).chart.vars := by
  induction ops generalizing c with
  | nil => exact List.prefix_rfl
  | cons op rest ih =>
    have hrest := ih (c.apply op).chart
    rcases c.vars_apply op with hvars | ⟨v, -, hvars⟩ <;> rw [hvars] at hrest
    · exact hrest
    · exact (List.prefix_append _ _).trans hrest

/-- A variable whose id differs from no other one in quotes alone is the only one of its id on the wire. -/
theorem namesakes_of_mem (h : c.DistinctVars) {v : Variable} (hv : v ∈ c.vars)
    (hown : ∀ w ∈ c.vars, ¬ Line.DifferInQuotes w.id v.id) : c.namesakes (Line.bare v.id) = [v] := by
  have hsame : ∀ w ∈ c.vars, (decide (Line.bare w.id = Line.bare v.id)) = (w == v) := by
    intro w hw
    rw [Bool.eq_iff_iff, decide_eq_true_eq, beq_iff_eq]
    constructor
    · intro hbare
      by_contra hne
      exact hown w hw ⟨fun hid => hne (List.inj_on_of_nodup_map h hw hv hid), hbare⟩
    · rintro rfl
      rfl
  rw [namesakes, List.filter_congr hsame, List.filter_beq, List.count_eq_one_of_mem (List.Nodup.of_map _ h) hv]
  rfl

theorem namesakes_of_not_mem {id : String} (hid : id ∉ c.vars.map (·.id))
    (hown : ∀ w ∈ c.vars, ¬ Line.DifferInQuotes w.id id) : c.namesakes (Line.bare id) = [] := by
  rw [namesakes, List.filter_eq_nil_iff]
  intro w hw hbare
  rw [decide_eq_true_eq] at hbare
  exact hown w hw ⟨fun hsame => hid (hsame ▸ List.mem_map_of_mem hw), hbare⟩

/-! ## What lines give to variables -/

section Lines

variable (c : Chart) (id : String) (data : Samples) (sinceLast : Nat)

theorem valuesFor_declaration :
    Line.valuesFor id (c.declaration.map Line.onWire) = (c.namesakes id).filterMap (·.value) := by
  have hdimensions : Line.valuesFor id ((c.dimensions.map Dimension.onWire).map .dimension) = [] := by
    refine Line.valuesFor_eq_nil fun line hline => ?_
    obtain ⟨d, -, rfl⟩ := List.mem_map.mp hline
    rfl
  rw [onWire_declaration]
  show Line.valuesFor id ((c.dimensions.map Dimension.onWire).map .dimension
    ++ (c.vars.filterMap fun v => v.value.map (.variable v.id)).map Line.onWire) = _
  rw [Line.valuesFor_append, hdimensions, Line.valuesFor_vars]
  rfl

theorem valuesFor_group :
    Line.valuesFor id ((c.group data sinceLast).map Line.onWire) = (c.namesakes id).filterMap (·.sample? data) := by
  have hsets : Line.valuesFor id (((c.dimensions.filter fun d => !d.obsolete).filterMap
      fun d => (d.sample? data).map d.setLine).map Line.onWire) = [] := by
    refine Line.valuesFor_eq_nil fun line hline => ?_
    obtain ⟨raw, hraw, rfl⟩ := List.mem_map.mp hline
    obtain ⟨d, -, hd⟩ := List.mem_filterMap.mp hraw
    obtain ⟨n, -, rfl⟩ := Option.map_eq_some_iff.mp hd
    rfl
  rw [group_eq, List.map_cons, List.map_append, values, List.map_append]
  show Line.valuesFor id (_ ++ [Line.groupEnd]) = _
  rw [Line.valuesFor_append, Line.valuesFor_append, hsets, Line.valuesFor_vars, List.nil_append]
  exact List.append_nil _

theorem valuesFor_overture : Line.valuesFor id (c.overture.map Line.onWire) =
    if c.revived.state.push then (c.namesakes id).filterMap (·.value) else [] := by
  have hvars : c.revived.namesakes id = c.namesakes id := by rw [namesakes, vars_revived, namesakes]
  unfold overture
  split
  · rw [valuesFor_declaration, hvars]
  · rfl

theorem valuesFor_obsoletion : Line.valuesFor id (c.obsoletion.map Line.onWire) = [] := by
  refine Line.valuesFor_eq_nil fun line hline => ?_
  obtain ⟨raw, hraw, rfl⟩ := List.mem_map.mp hline
  rw [mem_obsoletion hraw]
  rfl

end Lines

/-! ## What operations report -/

theorem valuesFor_update (data : Samples) (sinceLast : Nat) (id : String) :
    Line.valuesFor id ((c.update data sinceLast).lines.map Line.onWire) =
      if c.accepts data then
        (if c.revived.state.push then (c.namesakes id).filterMap (·.value) else [])
          ++ (c.namesakes id).filterMap (·.sample? data)
      else [] := by
  cases haccepts : c.accepts data with
  | false =>
    rw [update_of_not_accepts haccepts]
    rfl
  | true =>
    have hknown : c.known.namesakes id = c.namesakes id := by rw [namesakes, vars_known, namesakes]
    rw [update_of_accepts haccepts, List.map_append, Line.valuesFor_append, valuesFor_overture, valuesFor_group,
      hknown]
    rfl

/-- The lines of an operation give a variable the values that are reported of it. -/
theorem valuesFor_apply (op : Operation) {v : Variable} (hv : v ∈ c.vars)
    (hown : c.namesakes (Line.bare v.id) = [v]) :
    Line.valuesFor (Line.bare v.id) ((c.apply op).lines.map Line.onWire) =
      (c.reports v.id op).filterMap (Report.value? v.value) := by
  have hheld : v.id ∈ c.vars.map (·.id) := List.mem_map_of_mem hv
  have hpreset : [v].filterMap (·.value) = [Report.declared].filterMap (Report.value? v.value) := rfl
  unfold reports
  rw [if_pos hheld]
  cases op with
  | declare =>
    have hlines : (c.apply .declare).lines = c.declaration := rfl
    rw [hlines, valuesFor_declaration, opens_declaration, hown, if_pos (List.mem_singleton_self _), hpreset]
    rfl
  | obsolete =>
    have hlines : (c.apply .obsolete).lines = c.obsoletion := rfl
    rw [hlines, valuesFor_obsoletion, opens_obsoletion]
    rfl
  | update data sinceLast =>
    have hlines : (c.apply (.update data sinceLast)).lines = (c.update data sinceLast).lines := rfl
    rw [hlines, valuesFor_update, opens_update, resolved?, updated_update, hown]
    cases haccepts : c.accepts data with
    | false => rfl
    | true =>
      have hdue : (.declaration c.fullId ∈ c.openings) ↔ c.revived.state.push = true := by
        unfold openings
        split <;> simp_all
      have hsample : [v].filterMap (·.sample? data) =
          ((data.integer? v.id).toList.map Report.resolved).filterMap (Report.value? v.value) := by
        have hvalue : v.sample? data = data.integer? v.id := rfl
        cases hn : data.integer? v.id <;> simp [hvalue, hn, Report.value?]
      rw [if_pos rfl, if_pos rfl, if_pos rfl, if_congr hdue rfl rfl, List.filterMap_append, hsample, hpreset]
      split <;> rfl
  | _ =>
    rw [lines_of_isTopology]
    all_goals rfl

theorem valuesFor_apply_of_absent (op : Operation) {id : String} (h : c.namesakes id = []) :
    Line.valuesFor id ((c.apply op).lines.map Line.onWire) = [] := by
  cases op with
  | declare => exact (c.valuesFor_declaration id).trans (by rw [h]; rfl)
  | obsolete => exact c.valuesFor_obsoletion id
  | update data sinceLast =>
    refine (valuesFor_update data sinceLast id).trans ?_
    rw [h]
    simp
  | _ =>
    rw [lines_of_isTopology]
    all_goals rfl

/-- The lines of a run give a variable, which no other one is mistaken for, the values that are reported of it. -/
theorem valuesFor_run (h : c.DistinctVars) (ops : List Operation) {v : Variable} (hv : v ∈ (c.run ops).chart.vars)
    (hown : ∀ w ∈ (c.run ops).chart.vars, ¬ Line.DifferInQuotes w.id v.id) :
    Line.valuesFor (Line.bare v.id) ((c.run ops).lines.map Line.onWire) =
      (c.reportsOf v.id ops).filterMap (Report.value? v.value) := by
  induction ops generalizing c with
  | nil => rfl
  | cons op rest ih =>
    have hend := ih (h.apply op) hv hown
    have hvars := c.vars_run (op :: rest)
    have hfirst : Line.valuesFor (Line.bare v.id) ((c.apply op).lines.map Line.onWire) =
        (c.reports v.id op).filterMap (Report.value? v.value) := by
      by_cases hheld : v.id ∈ c.vars.map (·.id)
      · obtain ⟨w, hw, hid⟩ := List.mem_map.mp hheld
        have hsame : w = v := List.inj_on_of_nodup_map (h.run (op :: rest)) (hvars.subset hw) hv hid
        subst hsame
        exact valuesFor_apply op hw (namesakes_of_mem h hw fun u hu => hown u (hvars.subset hu))
      · rw [reports, if_neg hheld]
        exact valuesFor_apply_of_absent op (namesakes_of_not_mem hheld fun u hu => hown u (hvars.subset hu))
    rw [run, List.map_append, Line.valuesFor_append, hfirst, reportsOf, List.filterMap_append]
    exact congrArg _ hend

/-- Variables are added and stay as they are. The last line of a variable, which no other one is mistaken for, has
the integer that was last resolved for it by a cycle that updated the chart; but if the chart was declared with
the variable after that, or without any such cycle, it has the value that the variable was added with, if it was
added with one. There is no such line if neither happened. -/
theorem last_variable_line (c : Chart) (hvars : c.DistinctVars) (ops : List Operation) :
    (∀ before after, ops = before ++ after → (c.run before).chart.vars <+: (c.run ops).chart.vars) ∧
    ∃ lines, Line.readAll? (Line.renderAll (c.run ops).lines) = some lines ∧
      ((∀ line ∈ (c.run ops).lines, line.Plain) →
        Line.readLines? (Line.renderAll (c.run ops).lines) = some lines) ∧
      ∀ v ∈ (c.run ops).chart.vars, (∀ w ∈ (c.run ops).chart.vars, ¬ Line.DifferInQuotes w.id v.id) →
        (Line.valuesFor (Line.bare v.id) lines).getLast? =
          (if (c.reportsOf v.id ops).getLast? = some .declared then v.value else none).or
            (Report.lastResolved? (c.reportsOf v.id ops)) := by
  refine ⟨?_, _, Line.readAll?_renderAll _, Line.readLines?_renderAll _, fun v hv hown => ?_⟩
  · rintro before after rfl
    rw [run_append]
    exact vars_run _ after
  · rw [valuesFor_run hvars ops hv hown, Report.getLast?_values]

/-- A chart without dimensions and variables. -/
def gauge : Chart where
  kind := "job"
  id := "gauge"

/-- A cycle has values for two variables, another one for the second of them; then the chart is declared again. -/
def thresholds : List Operation :=
  [.addVariable (.array [.string "low", .integer 1]),
    .addVariable (.array [.string "high"]),
    .addDimension (.array [.string "level"]),
    .update ⟨[("low", .integer 3), ("high", .integer 8)]⟩ 1,
    .update ⟨[("high", .string "9")]⟩ 1,
    .refresh,
    .update ⟨[("level", .integer 5)]⟩ 1]

theorem last_variable_line_thresholds :
    gauge.DistinctVars ∧ ((gauge.run thresholds).chart.vars = [⟨"low", some 1⟩, ⟨"high", none⟩]) ∧
    ∃ lines, Line.readAll? (Line.renderAll (gauge.run thresholds).lines) = some lines ∧
      Line.readLines? (Line.renderAll (gauge.run thresholds).lines) = some lines ∧
      (Line.valuesFor "low" lines).getLast? = some 1 ∧ (Line.valuesFor "high" lines).getLast? = some 9 := by
  have hvars : (gauge.run thresholds).chart.vars = [⟨"low", some 1⟩, ⟨"high", none⟩] := by decide +kernel
  have hdistinct : gauge.DistinctVars := List.nodup_nil
  have hplain : ∀ line ∈ (gauge.run thresholds).lines, line.Plain := by decide +kernel
  have hown : ∀ v ∈ (gauge.run thresholds).chart.vars, ∀ w ∈ (gauge.run thresholds).chart.vars,
      ¬ Line.DifferInQuotes w.id v.id := by decide +kernel
  have hlow : gauge.reportsOf "low" thresholds = [.declared, .resolved 3, .declared] := by decide +kernel
  have hhigh : gauge.reportsOf "high" thresholds = [.declared, .resolved 8, .resolved 9, .declared] := by
    decide +kernel
  obtain ⟨-, lines, hlines, hread, hlast⟩ := last_variable_line gauge hdistinct thresholds
  refine ⟨hdistinct, hvars, lines, hlines, hread hplain, ?_, ?_⟩
  · have hmem : (⟨"low", some 1⟩ : Variable) ∈ (gauge.run thresholds).chart.vars := by rw [hvars]; simp
    have h := hlast _ hmem (hown _ hmem)
    rw [hlow] at h
    exact h
  · have hmem : (⟨"high", none⟩ : Variable) ∈ (gauge.run thresholds).chart.vars := by rw [hvars]; simp
    have h := hlast _ hmem (hown _ hmem)
    rw [hhigh] at h
    exact h

/-- If the cycle updates the chart, the last line of each variable has what was resolved for it last, or else the
value that it was added with. -/
def VariablesFollow (c : Chart) (ops : List Operation) (data : Samples) : Prop :=
  ((c.run ops).chart.update data 1).updated = true →
    ∀ lines, Line.readAll? (Line.renderAll (c.run (ops ++ [.update data 1])).lines) = some lines →
      ∀ v ∈ (c.run (ops ++ [.update data 1])).chart.vars,
        (Line.valuesFor (Line.bare v.id) lines).getLast? =
          (Report.lastResolved? (c.reportsOf v.id (ops ++ [.update data 1]))).or v.value

theorem variablesFollow_iff (c : Chart) (ops : List Operation) (data : Samples) :
    c.VariablesFollow ops data ↔ (((c.run ops).chart.update data 1).updated = true →
      ∀ v ∈ (c.run (ops ++ [.update data 1])).chart.vars,
        (Line.valuesFor (Line.bare v.id) ((c.run (ops ++ [.update data 1])).lines.map Line.onWire)).getLast? =
          (Report.lastResolved? (c.reportsOf v.id (ops ++ [.update data 1]))).or v.value) := by
  rw [VariablesFollow, Line.readAll?_renderAll]
  simp only [Option.some.injEq, forall_eq']

instance (c : Chart) (ops : List Operation) (data : Samples) : Decidable (c.VariablesFollow ops data) :=
  decidable_of_iff' _ (c.variablesFollow_iff ops data)

/-- The last line of a variable need not have what was resolved for it last, nor, if nothing was, the value that it
was added with: a variable is resolved before the chart is declared again; one is added after the chart was declared;
two differ in a quote alone. -/
theorem variables_overtaken :
    ¬ gauge.VariablesFollow
      [.addVariable (.array [.string "v", .integer 1]), .addDimension (.array [.string "a"]),
        .update ⟨[("a", .integer 1), ("v", .integer 5)]⟩ 1, .refresh] ⟨[("a", .integer 2)]⟩ ∧
    ¬ gauge.VariablesFollow
      [.addDimension (.array [.string "a"]), .update ⟨[("a", .integer 1)]⟩ 1,
        .addVariable (.array [.string "v", .integer 7])] ⟨[("a", .integer 2)]⟩ ∧
    ¬ gauge.VariablesFollow
      [.addVariable (.array [.string "it's"]), .addVariable (.array [.string "its"])]
      ⟨[("it's", .integer 5), ("its", .integer 6)]⟩ := by
  decide +kernel

end Chart

end ChartStream
