import ChartStream.Proofs.CycleErrors
import ChartStream.Proofs.ChartPlaces
import ChartStream.Proofs.LayoutCreation

/-!
# What a preliminary check leaves behind

The call of a check works on the charts of the job, and what it adds stays. The charts of a layout come behind it,
and a layout is refused that repeats an id. Main definition: `Job.checkOf`. Main result: `Job.create_after_check`.
-/

namespace ChartStream

set_option autoImplicit false

/-! ## Charts under another header -/

namespace Chart

/-- The chart with other attributes, but with its dimensions, its variables and what the receiver was told. -/
def withHeader (chart : Chart) (header : ChartHeader) : Chart :=
  { chart with toChartHeader := header }

variable (chart : Chart) (header : ChartHeader)

theorem insertDimension_withHeader (d : Dimension) :
    (chart.withHeader header).insertDimension d =
      (chart.insertDimension d).map fun changed => changed.withHeader header := by
  have hsame : (chart.withHeader header).dimension? d.id = chart.dimension? d.id := rfl
  rw [insertDimension, insertDimension, hsame]
  cases chart.dimension? d.id with
  | none => rfl
  | some held =>
    dsimp only
    split <;> rfl

theorem addDimension_withHeader (params : Json) :
    (chart.withHeader header).addDimension params =
      (chart.addDimension params).map fun changed => changed.withHeader header := by
  cases hd : Dimension.ofParameters params with
  | error e => rw [addDimension, addDimension, hd]; rfl
  | ok d =>
    rw [addDimension, addDimension, hd]
    exact chart.insertDimension_withHeader header d

theorem addVariable_withHeader (params : Json) :
    (chart.withHeader header).addVariable params =
      (chart.addVariable params).map fun changed => changed.withHeader header := by
  cases hv : Variable.ofParameters params with
  | error e => rw [addVariable, addVariable, hv]; rfl
  | ok v =>
    have hsame : (chart.withHeader header).vars = chart.vars := rfl
    rw [addVariable, addVariable, hv, hsame]
    simp only [bind, Except.bind, pure, Except.pure]
    split <;> rfl

end Chart

namespace Catalog

/-- What an entry adds to a chart does not depend on the attributes of the chart. -/
theorem addDimensions_withHeader (chart : Chart) (header : ChartHeader) (lines : List Json) :
    addDimensions (chart.withHeader header) lines =
      ((addDimensions chart lines).1.withHeader header, (addDimensions chart lines).2) := by
  induction lines generalizing chart with
  | nil => rfl
  | cons params rest ih =>
    rw [addDimensions, addDimensions, Chart.addDimension_withHeader]
    cases chart.addDimension params with
    | error e => rfl
    | ok changed => exact ih changed

theorem addVariables_withHeader (chart : Chart) (header : ChartHeader) (vars : List Json) :
    addVariables (chart.withHeader header) vars =
      ((addVariables chart vars).1.withHeader header, (addVariables chart vars).2) := by
  induction vars generalizing chart with
  | nil => rfl
  | cons params rest ih =>
    rw [addVariables, addVariables, Chart.addVariable_withHeader]
    cases chart.addVariable params with
    | error e => rfl
    | ok changed => exact ih changed

theorem fill_withHeader (chart : Chart) (header : ChartHeader) (entry : Layout.Entry) :
    fill (chart.withHeader header) entry = ((fill chart entry).1.withHeader header, (fill chart entry).2) := by
  rw [fill, fill, addDimensions_withHeader]
  cases addDimensions chart entry.lines with
  | mk filled error =>
    cases error with
    | some e => rfl
    | none => exact addVariables_withHeader filled header entry.vars

/-! ## The same entries in two catalogs -/

/-- Two catalogs give the same settings to their charts and agree on which of some ids they hold. -/
structure Level (c other : Catalog) (ids : List String) : Prop where
  settings : other.settings = c.settings
  next : c.nextPriority ≤ lastPriority ∧ other.nextPriority ≤ lastPriority
  held : ∀ id ∈ ids, other.contains id = c.contains id

variable {c other : Catalog}

theorem chartOf_settings (h : other.settings = c.settings) (priority place : Nat) (id : String)
    (entry : Layout.Entry) :
    other.chartOf priority id entry = { c.chartOf place id entry with priority := priority } := by
  obtain ⟨hname, hlabel, hplugin, hmodule, hevery⟩ := Settings.mk.inj h
  simp only [chartOf, hname, hlabel, hplugin, hmodule, hevery]

theorem contains_eq_decide (c : Catalog) (id : String) : c.contains id = decide (id ∈ c.ids) := by
  rw [Bool.eq_iff_iff]
  simp [contains, get?, ids]

theorem ids_extended (c : Catalog) (entries : List (String × Layout.Entry)) :
    (c.extended entries).ids = c.ids ++ entries.map (·.1) := by
  rw [ids, extended, List.map_append, ids]
  congr 1
  refine List.ext_getElem (by simp) fun i _ _ => ?_
  simp [chartOf]

theorem extended_append (h : c.nextPriority ≤ lastPriority) (first second : List (String × Layout.Entry)) :
    c.extended (first ++ second) = (c.extended first).extended second := by
  induction first generalizing c with
  | nil => rw [List.nil_append, extended_nil h]
  | cons e rest ih =>
    rw [List.cons_append, extended_cons, extended_cons c e rest]
    exact ih (c.nextPriority_extended [e])

theorem Level.extended {ids : List String} (h : c.Level other ids) (entries : List (String × Layout.Entry)) :
    (c.extended entries).Level (other.extended entries) ids := by
  refine ⟨h.settings, ⟨c.nextPriority_extended entries, other.nextPriority_extended entries⟩, fun id hid => ?_⟩
  have hheld := h.held id hid
  rw [contains_eq_decide, contains_eq_decide, decide_eq_decide] at hheld ⊢
  rw [ids_extended, ids_extended, List.mem_append, List.mem_append, hheld]

theorem addChart_eq (c : Catalog) (id : String) (options : List Json) :
    c.addChart (.array (.string id :: options)) =
      if options.length < 5 then .error (.tooShort .chart 6 (options.length + 1))
      else if c.jobName = "" then .error (.emptyId .chart 0)
      else if id = "" then .error (.emptyId .chart 1)
      else if c.contains id then .error (.duplicate .chart id)
      else .ok (c.push (c.chartOf 0 id { options := options }),
        c.chartOf c.nextPriority id { options := options }) := by
  rw [addChart, build_options]
  split
  · rfl
  · split
    · rfl
    · split <;> rfl

/-- Options are refused with the same error by both, or both have the chart added. -/
theorem Level.addChart {id : String} (h : c.Level other [id]) (options : List Json) :
    (∃ error, c.addChart (.array (.string id :: options)) = .error error ∧
        other.addChart (.array (.string id :: options)) = .error error) ∨
      (5 ≤ options.length ∧ c.jobName ≠ "" ∧ id ≠ "" ∧ c.contains id = false ∧ other.contains id = false) ∧
        c.addChart (.array (.string id :: options)) =
          .ok (c.push (c.chartOf 0 id { options := options }), c.chartOf c.nextPriority id { options := options }) ∧
        other.addChart (.array (.string id :: options)) =
          .ok (other.push (other.chartOf 0 id { options := options }),
            other.chartOf other.nextPriority id { options := options }) := by
  obtain ⟨hname, -⟩ := Settings.mk.inj h.settings
  have hheld := h.held id (List.mem_singleton_self id)
  simp only [addChart_eq, hname, hheld]
  split_ifs with hlength hnoname hnoid hcontains
  · exact .inl ⟨_, rfl, rfl⟩
  · exact .inl ⟨_, rfl, rfl⟩
  · exact .inl ⟨_, rfl, rfl⟩
  · exact .inl ⟨_, rfl, rfl⟩
  · rw [Bool.not_eq_true] at hcontains
    exact .inr ⟨⟨Nat.le_of_not_lt hlength, hnoname, hnoid, hcontains, hcontains⟩, rfl, rfl⟩

theorem Fails.options {id : String} {entry part : Layout.Entry} {error : DeclarationError}
    (h : c.Fails id entry (some part) error) : part.options = entry.options := by
  cases h <;> rfl

/-- The chart that is added with the options of an entry is filled and put in its place. -/
theorem createChart_of_fill (h : c.nextPriority ≤ lastPriority) {id : String} {entry part : Layout.Entry}
    {error : Option DeclarationError} (hnew : c.contains id = false)
    (hadd : c.addChart (.array (.string id :: entry.options)) =
      .ok (c.push (c.chartOf 0 id { options := entry.options }),
        c.chartOf c.nextPriority id { options := entry.options }))
    (hfill : fill (c.chartOf c.nextPriority id { options := entry.options }) entry =
      (c.chartOf c.nextPriority id part, error)) :
    c.createChart id entry = (c.extended [(id, part)], error) := by
  have hothers : ∀ held ∈ c.charts, held.id ≠ (c.chartOf 0 id { options := entry.options }).id := by
    simpa [contains, get?, chartOf] using hnew
  have hput : (c.push (c.chartOf 0 id { options := entry.options })).put (c.chartOf c.nextPriority id part) =
      c.push (c.chartOf c.nextPriority id part) := put_push hothers rfl rfl
  simp only [createChart, hadd, hfill]
  rw [hput, extended_singleton h]

/-- An entry fails with the same error in both, and of its chart the same is there. -/
theorem Level.createChart {id : String} (h : c.Level other [id]) (entry : Layout.Entry) :
    ∃ done error, c.createChart id entry = (c.extended done, error) ∧
      other.createChart id entry = (other.extended done, error) := by
  rcases h.addChart entry.options with ⟨error, hc, hother⟩ | ⟨⟨hlength, hname, hid, hnew, hnewOther⟩, hc, hother⟩
  · refine ⟨[], some error, ?_, ?_⟩
    · rw [Catalog.createChart, hc, extended_nil h.next.1]
    · rw [Catalog.createChart, hother, extended_nil h.next.2]
  · obtain ⟨part, error, hoptions, hfill⟩ : ∃ part error, part.options = entry.options ∧
        fill (c.chartOf c.nextPriority id { options := entry.options }) entry =
          (c.chartOf c.nextPriority id part, error) := by
      rcases fill_cases hlength hname hid hnew c.nextPriority with ⟨-, hfill⟩ | ⟨part, error, hfails, hfill⟩
      · exact ⟨entry, none, rfl, hfill⟩
      · exact ⟨part, some error, hfails.options, hfill⟩
    have hfillOther : fill (other.chartOf other.nextPriority id { options := entry.options }) entry =
        (other.chartOf other.nextPriority id part, error) := by
      have hsame := fill_withHeader (c.chartOf c.nextPriority id { options := entry.options })
        (other.chartOf other.nextPriority id { options := entry.options }).toChartHeader entry
      rw [hfill, ← hoptions] at hsame
      rw [← hoptions]
      exact hsame
    exact ⟨[(id, part)], error, createChart_of_fill h.next.1 hnew hc hfill,
      createChart_of_fill h.next.2 hnewOther hother hfillOther⟩

theorem Level.createAll (layout : Layout) (order : List String)
    (h : c.Level other ((order.filterMap fun id => (layout.entry? id).map (id, ·)).map (·.1))) :
    ∃ done error, c.createAll layout order = (c.extended done, error) ∧
      other.createAll layout order = (other.extended done, error) := by
  induction order generalizing c other with
  | nil => exact ⟨[], none, by rw [extended_nil h.next.1]; rfl, by rw [extended_nil h.next.2]; rfl⟩
  | cons id rest ih =>
    cases hentry : layout.entry? id with
    | none =>
      rw [List.filterMap_cons_none (by rw [hentry]; rfl)] at h
      simp only [Catalog.createAll, hentry]
      exact ih h
    | some entry =>
      rw [List.filterMap_cons_some (by rw [hentry]; rfl), List.map_cons] at h
      have hone : c.Level other [id] := ⟨h.settings, h.next, fun held hheld => h.held held (by simp_all)⟩
      obtain ⟨done, error, hc, hother⟩ := hone.createChart entry
      simp only [Catalog.createAll, hentry, hc, hother]
      cases error with
      | some e => exact ⟨done, some e, rfl, rfl⟩
      | none =>
        have hrest := h.extended done
        obtain ⟨more, error, hmore, hothers⟩ := ih ⟨hrest.settings, hrest.next, fun held hheld =>
          hrest.held held (List.mem_cons_of_mem id hheld)⟩
        refine ⟨done ++ more, error, ?_, ?_⟩
        · rw [extended_append h.next.1]
          exact hmore
        · rw [extended_append h.next.2]
          exact hothers

theorem Level.create (layout : Layout) (h : c.Level other (layout.due.map (·.1))) :
    ∃ done error, c.create layout = (c.extended done, error) ∧ other.create layout = (other.extended done, error) :=
  Level.createAll layout layout.order h

/-- The charts of entries, behind those of a catalog that holds so many already. -/
theorem charts_extended_behind (hsettings : other.settings = c.settings) (hcharts : c.charts = [])
    (hnext : other.nextPriority = min (c.nextPriority + other.charts.length) lastPriority)
    (entries : List (String × Layout.Entry)) :
    (other.extended entries).charts = other.charts ++ (c.extended entries).charts.mapIdx fun i chart =>
      { chart with priority := min (c.nextPriority + other.charts.length + i) lastPriority } := by
  have hpriority (i : Nat) : min (min (c.nextPriority + other.charts.length) lastPriority + i) lastPriority =
      min (c.nextPriority + other.charts.length + i) lastPriority := by omega
  simp only [extended, hcharts, hnext, List.nil_append, hpriority]
  congr 1
  refine List.ext_getElem (by simp) fun i _ _ => ?_
  simp only [List.getElem_mapIdx]
  exact chartOf_settings hsettings _ _ _ _

/-! ## Calls that add no chart -/

/-- An operation on a catalog without charts adds one or does nothing. -/
theorem apply_of_no_charts (hcharts : c.charts = []) (hpending : c.pending = [])
    (hnext : c.nextPriority ≤ lastPriority) (op : Operation) (hafter : (c.apply op).catalog.charts = []) :
    (c.apply op).catalog = c := by
  have hnone (id : String) : c.get? id = none := by rw [get?, hcharts]; rfl
  have hadd (params : Json) (changed : Catalog) (chart : Chart) (h : c.addChart params = .ok (changed, chart)) :
      changed.charts ≠ [] := by
    obtain ⟨raw, -, -, rfl, -⟩ := addChart_cases h
    simp [push]
  have hdeclared (result : Except DeclarationError (Catalog × Chart))
      (hresult : ∀ changed chart, result = .ok (changed, chart) → changed.charts ≠ [])
      (hafter : (Effect.ofExcept c result).catalog.charts = []) : (Effect.ofExcept c result).catalog = c := by
    cases result with
    | ok out => exact absurd hafter (hresult out.1 out.2 rfl)
    | error e => rfl
  cases op with
  | create layout =>
    have hlevel : c.Level c (layout.due.map (·.1)) := ⟨rfl, ⟨hnext, hnext⟩, fun _ _ => rfl⟩
    obtain ⟨done, error, hcreate, -⟩ := hlevel.create layout
    have hcatalog : (c.apply (.create layout)).catalog = c.extended done := by
      simp only [apply, hcreate]
      cases error <;> rfl
    rw [hcatalog] at hafter ⊢
    have hlength : done.length = 0 := by simpa [extended, hcharts] using congrArg List.length hafter
    rw [List.eq_nil_of_length_eq_zero hlength, extended_nil hnext]
  | addChart params => exact hdeclared _ (hadd params) hafter
  | replaceChart params =>
    refine hdeclared _ (fun changed chart h => ?_) hafter
    rcases replaceChart_cases h with ⟨raw, held, -, hheld, -⟩ | h
    · rw [hnone] at hheld
      cases hheld
    · exact hadd params changed chart h
  | obsoleteChart id => simp only [apply, obsoleteChart, hnone]
  | update data sinceLast cleanup =>
    cases c
    simp_all [apply, update]
  | onChart id operation => simp only [apply, hnone]

/-- Charts are never taken away, so a catalog that has none in the end never had one, and is what it was. -/
theorem run_of_no_charts (hcharts : c.charts = []) (hpending : c.pending = [])
    (hnext : c.nextPriority ≤ lastPriority) (ops : List Operation) (hafter : (c.run ops).catalog.charts = []) :
    (c.run ops).catalog = c := by
  induction ops with
  | nil => rfl
  | cons op rest ih =>
    have hcoherent := (coherent_empty hcharts).apply op
    obtain ⟨-, -, hplaced⟩ := (edits_apply (coherent_empty hcharts) op).keep (placed_empty hcharts hnext)
    have hids : (c.apply op).catalog.ids <+: (c.run (op :: rest)).catalog.ids :=
      ((edits_run hcoherent rest).keep hplaced).2.1
    have hempty : (c.apply op).catalog.charts = [] := by
      rw [ids, ids, hafter, List.map_nil, List.prefix_nil, List.map_eq_nil_iff] at hids
      exact hids
    have hsame := apply_of_no_charts hcharts hpending hnext op hempty
    rw [run, hsame] at hafter ⊢
    exact ih hafter

/-! ## Ids that are taken -/

theorem Fails.duplicate_of_contains {id : String} {entry : Layout.Entry} {part : Option Layout.Entry}
    {error : DeclarationError} (h : c.Fails id entry part error) (hlength : 5 ≤ entry.options.length)
    (hname : c.jobName ≠ "") (hid : id ≠ "") (hheld : c.contains id = true) : error = .duplicate .chart id := by
  have hrefused {part : Layout.Entry} (haccepts : c.Accepts [(id, part)]) : error = .duplicate .chart id := by
    obtain ⟨-, -, hnew, -⟩ := accepts_singleton.mp haccepts
    cases hnew.symm.trans hheld
  cases h with
  | tooShort hshort => exact absurd hlength (Nat.not_le_of_lt hshort)
  | noJobName _ hnoname => exact absurd hnoname hname
  | noId _ _ hnoid => exact absurd hnoid hid
  | duplicate => rfl
  | badLine hbefore => exact hrefused hbefore
  | repeatedLine hbefore => exact hrefused hbefore
  | badVariable hbefore => exact hrefused hbefore

theorem not_accepts_of_held {entries : List (String × Layout.Entry)} {e : String × Layout.Entry} (he : e ∈ entries)
    (hheld : e.1 ∈ c.ids) : ¬ c.Accepts entries := by
  rintro (rfl | ⟨-, hsound, -⟩)
  · cases he
  · have hnew := (hsound e he).2.1
    rw [contains_eq_decide, decide_eq_false_iff_not] at hnew
    exact hnew hheld

/-- Entries that one catalog accepts are refused by another one where an id is taken there, and for nothing else. -/
theorem create_of_held (hsettings : other.settings = c.settings) (hnext : c.nextPriority ≤ lastPriority)
    (hnextOther : other.nextPriority ≤ lastPriority) {layout : Layout} (haccepts : c.Accepts layout.due)
    {e : String × Layout.Entry} (he : e ∈ layout.due) (hheld : e.1 ∈ other.ids) :
    ∃ e ∈ layout.due, e.1 ∈ other.ids ∧ (other.create layout).2 = some (.duplicate .chart e.1) := by
  obtain ⟨hiff, -, hwhy⟩ := create_outcome other hnextOther layout
  cases herror : (other.create layout).2 with
  | none => exact absurd (hiff.mp herror) (not_accepts_of_held he hheld)
  | some error =>
    obtain ⟨before, id, entry, after, part, hsplit, -, hfails, -⟩ := hwhy error herror
    rw [hsplit] at haccepts
    obtain ⟨hname, hid, hnew, hsound⟩ := accepts_singleton.mp (haccepts.in_turn hnext)
    have hnameOther : (other.extended before).jobName ≠ "" := by
      obtain ⟨hsame, -⟩ := Settings.mk.inj hsettings
      exact fun h => hname (hsame.symm.trans h)
    -- The entry is sound and its id is new among those before it, so the charts that were there have it.
    have htaken : (other.extended before).contains id = true := by
      by_contra hfree
      rw [Bool.not_eq_true] at hfree
      exact hfails.not_accepts (accepts_singleton.mpr ⟨hnameOther, hid, hfree, hsound⟩)
    have hduplicate := hfails.duplicate_of_contains hsound.options hnameOther hid htaken
    rw [contains_eq_decide, decide_eq_false_iff_not, ids_extended, List.mem_append, not_or] at hnew
    rw [contains_eq_decide, decide_eq_true_eq, ids_extended, List.mem_append] at htaken
    exact ⟨(id, entry), by simp [hsplit], htaken.resolve_right hnew.2, congrArg some hduplicate⟩

end Catalog

namespace Job

/-! ## A job that was checked -/

/-- The error of a check that brings no samples. -/
def noData (job : Job) : CollectorError :=
  .checkFailed ("job '" ++ job.name ++ "' returned no data")

/-- What a check makes of the end of its call. -/
def verdict (job : Job) (ending : Call.Ending) : Except CollectorError Unit :=
  match samplesOf ending with
  | .error e => .error e
  | .ok (some data) => if data.isEmpty then .error job.noData else .ok ()
  | .ok none => .error job.noData

/-- A check whose call comes to so much. -/
def checkOf (job : Job) (k : Collection) : Job × Except CollectorError Unit :=
  (job.afterCall (k.outcome job.catalog), job.verdict k.ending)

theorem check_eq (job : Job) (call : Call) :
    job.check call = (job.afterCall (call.run job.config.timeout false job.catalog),
      job.verdict (call.run job.config.timeout false job.catalog).ending) :=
  rfl

theorem exists_checkOf (job : Job) (call : Call) :
    ∃ k : Collection, (∀ op ∈ k.changes, .change op ∈ call.actions) ∧ job.check call = job.checkOf k := by
  obtain ⟨changes, hchanges, heq⟩ :=
    runActions_changes job.config.timeout false call.answer { catalog := job.catalog } call.actions
  let outcome := call.run job.config.timeout false job.catalog
  have hcatalog : outcome.catalog = (job.catalog.run changes).catalog := heq
  refine ⟨⟨changes, outcome.ending, outcome.elapsed⟩, hchanges, ?_⟩
  rw [check_eq, checkOf]
  simp only [afterCall, Collection.outcome]
  rw [← hcatalog]

/-- The answer of a creation. -/
def created (error : Option DeclarationError) : Except CollectorError Unit :=
  match error with
  | none => .ok ()
  | some e => .error (.declaration e)

theorem create_eq (job : Job) (layout : Layout) :
    job.create layout =
      ({ job with
          catalog := (job.catalog.create layout).1
          runtimeChart := if (job.catalog.create layout).2.isNone && job.monitored then some job.ownChart
            else job.runtimeChart },
        created (job.catalog.create layout).2) := by
  unfold create
  cases job.catalog.create layout with
  | mk catalog error =>
    cases error with
    | some e => rfl
    | none => cases hmonitored : job.monitored <;> simp [created, ownChart]

theorem create_ok_iff {job : Job} (h : job.catalog.nextPriority ≤ Catalog.lastPriority) (layout : Layout) :
    (job.create layout).2 = .ok () ↔ job.catalog.Accepts layout.due := by
  obtain ⟨hiff, -⟩ := Catalog.create_outcome job.catalog h layout
  rw [create_eq, ← hiff]
  cases (job.catalog.create layout).2 <;> simp [created]

theorem create_of_not_accepts {job : Job} (h : job.catalog.nextPriority ≤ Catalog.lastPriority) {layout : Layout}
    (hrefused : ¬ job.catalog.Accepts layout.due) : ∃ error, (job.create layout).2 = .error (.declaration error) := by
  rw [← create_ok_iff h, create_eq] at hrefused
  rw [create_eq]
  cases herror : (job.catalog.create layout).2 with
  | none => exact absurd (by rw [herror]; rfl) hrefused
  | some error => exact ⟨error, rfl⟩

/-- Parameters of a chart that a call adds. -/
def declared (id : String) : Json :=
  .array (.string id :: [.null, .string "Traffic", .string "kb", .string "net", .string "net.traffic"])

/-- A call that adds a chart and brings a sample. -/
def adding (id : String) : Call :=
  { actions := [.change (.addChart (declared id))], answer := .ok (some ⟨[("in", .integer 3)]⟩) }

/-- How the creation of the charts of a checked job goes, beside that of the job alone. -/
structure CreatesBeside (job checked : Job) (layout : Layout) : Prop where
  counters : (checked.create layout).1.counters = (job.create layout).1.counters
  state : (checked.create layout).1.state = (job.create layout).1.state
  /-- A check that adds no chart makes no difference. -/
  same : checked.catalog.charts = [] → checked.create layout = job.create layout
  /-- With ids that are free the same charts are there behind those that the check added, with the priorities that go
  with their places. -/
  free : (∀ e ∈ layout.due, e.1 ∉ checked.catalog.ids) →
    (checked.create layout).2 = (job.create layout).2 ∧
      (checked.create layout).1.runtimeChart = (job.create layout).1.runtimeChart ∧
      (checked.create layout).1.catalog.charts =
        checked.catalog.charts ++ (job.create layout).1.catalog.charts.mapIdx fun i chart =>
          { chart with
            priority := min (job.catalog.nextPriority + checked.catalog.charts.length + i) Catalog.lastPriority }
  /-- With an id that is taken the creation fails, and for that reason if it succeeds alone. -/
  taken : (∃ e ∈ layout.due, e.1 ∈ checked.catalog.ids) →
    (∃ error, (checked.create layout).2 = .error (.declaration error)) ∧
      ((job.create layout).2 = .ok () → ∃ e ∈ layout.due, e.1 ∈ checked.catalog.ids ∧
        (checked.create layout).2 = .error (.declaration (.duplicate .chart e.1)))

theorem createsBeside {job : Job} (hcharts : job.catalog.charts = []) (hpending : job.catalog.pending = [])
    (hnext : job.catalog.nextPriority ≤ Catalog.lastPriority) (k : Collection) (layout : Layout) :
    job.CreatesBeside (job.checkOf k).1 layout := by
  let checked := (job.checkOf k).1
  obtain ⟨hsettings, -, hplaced⟩ :=
    (Catalog.edits_run (Catalog.coherent_empty hcharts) k.changes).keep (Catalog.placed_empty hcharts hnext)
  have hnextChecked : checked.catalog.nextPriority ≤ Catalog.lastPriority := by
    change (job.catalog.run k.changes).catalog.nextPriority ≤ _
    rw [hplaced.next]
    exact Nat.min_le_right _ _
  have halone := job.create_eq layout
  have hlater := checked.create_eq layout
  refine ⟨?_, ?_, fun hnone => ?_, fun hfree => ?_, fun ⟨e, he, hheld⟩ => ⟨?_, fun hok => ?_⟩⟩
  · rw [halone, hlater]
    rfl
  · rw [halone, hlater]
    rfl
  · have hsame : checked = job := by
      change { job with catalog := (job.catalog.run k.changes).catalog } = job
      rw [Catalog.run_of_no_charts hcharts hpending hnext k.changes hnone]
    change checked.create layout = job.create layout
    rw [hsame]
  · have hlevel : job.catalog.Level checked.catalog (layout.due.map (·.1)) := by
      refine ⟨hsettings, ⟨hnext, hnextChecked⟩, fun id hid => ?_⟩
      obtain ⟨e, he, rfl⟩ := List.mem_map.mp hid
      rw [Catalog.contains_eq_decide, Catalog.contains_eq_decide, decide_eq_false (hfree e he), Catalog.ids, hcharts]
      rfl
    obtain ⟨done, error, hdone, hdoneChecked⟩ := hlevel.create layout
    rw [halone, hlater, hdone, hdoneChecked]
    exact ⟨rfl, rfl, Catalog.charts_extended_behind hsettings hcharts hplaced.next done⟩
  · exact create_of_not_accepts hnextChecked (Catalog.not_accepts_of_held he hheld)
  · obtain ⟨taken, htaken, hids, herror⟩ :=
      Catalog.create_of_held hsettings hnext hnextChecked ((create_ok_iff hnext layout).mp hok) he hheld
    have herror : (checked.catalog.create layout).2 = some (.duplicate .chart taken.1) := herror
    refine ⟨taken, htaken, hids, ?_⟩
    rw [hlater, herror]
    rfl

/-- Whatever the call of a check does to the charts, what it adds stays, and the charts of a layout come behind it: the
same ones with the same outcome if their ids are free. If one is taken the creation fails. A check that adds no chart
makes no difference. -/
theorem create_after_check (plugin : String) (monitored : Bool) (module name : String) (config : JobConfig) :
    let job := ofCollector plugin monitored module name config
    (∀ call, ∃ k, job.check call = job.checkOf k) ∧
      ∀ (k : Collection) (layout : Layout), job.CreatesBeside (job.checkOf k).1 layout := by
  intro job
  refine ⟨fun call => ?_, createsBeside rfl rfl (Nat.le_pred_of_lt config.priority.toNat_lt)⟩
  obtain ⟨k, -, hcheck⟩ := job.exists_checkOf call
  exact ⟨k, hcheck⟩

/-- The chart of the call keeps its place, and the one of the layout takes the next priority. -/
theorem create_after_check_free :
    let job := ofCollector "plugind" true "net" "" {}
    let k : Collection :=
      { changes := [.addChart (declared "other")], ending := .answered (.ok (some ⟨[("in", .integer 3)]⟩)) }
    let checked := (job.checkOf k).1
    (job.checkOf k).2 = .ok () ∧ (∀ e ∈ traffic.due, e.1 ∉ checked.catalog.ids) ∧
      (checked.create traffic).2 = (job.create traffic).2 ∧
      (checked.create traffic).1.catalog.charts.map (fun chart => (chart.id, chart.priority)) =
        [("other", 60000), ("net", 60001)] := by
  intro job k checked
  have hfree : ∀ e ∈ traffic.due, e.1 ∉ checked.catalog.ids := by decide +kernel
  obtain ⟨-, hbeside⟩ := create_after_check "plugind" true "net" "" {}
  obtain ⟨hresult, -, hcharts⟩ := (hbeside k traffic).free hfree
  refine ⟨by decide +kernel, hfree, hresult, ?_⟩
  rw [hcharts]
  decide +kernel

/-- Alone, the chart of the layout is created. After a check whose call added a chart of its id, it is not. -/
theorem duplicate_after_check :
    let job := ofCollector "plugind" true "net" "" {}
    let checked := job.check (adding "net")
    checked.2 = .ok () ∧ (job.create traffic).2 = .ok () ∧ job.counters = checked.1.counters ∧
      (checked.1.create traffic).2 = .error (.declaration (.duplicate .chart "net")) := by
  decide +kernel

end Job

end ChartStream
