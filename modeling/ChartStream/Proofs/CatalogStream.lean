import ChartStream.Catalog.Operation
import ChartStream.Proofs.ChartLines
import Mathlib.Data.List.Nodup
import Mathlib.Logic.Relation

/-!
# The stream of a catalog

Every operation on a catalog but a cycle and a chart given up is a sequence of `Change`s. What they keep is
`Announced`: a receiver of all that was sent, and of what is waiting, knows of each chart what it was told. So
it admits the lines of the next cycle (`admits_cycle`), and the stream is well formed (`stream_wellFormed`).
-/

namespace ChartStream

set_option autoImplicit false

namespace Catalog

/-! ## What an operation can do -/

/-- The ids by which the charts are known on the wire. -/
def wireIds (c : Catalog) : List String :=
  c.charts.map Chart.wireId

/-- One change of the charts that sends nothing: a new chart at the end, or another chart in the place of one.
Its declaration is due, or it is the old one changed. -/
inductive Change (c : Catalog) : Catalog → Prop
  | push (chart : Chart) (hkind : chart.kind = c.jobName) (hpush : chart.state.push = true)
      (hdistinct : chart.Distinct) (hnew : c.contains chart.id = false) : Change c (c.push chart)
  | put (held chart : Chart) (hheld : held ∈ c.charts) (hid : chart.id = held.id)
      (hkind : chart.kind = c.jobName)
      (h : chart.state.push = true ∧ chart.Distinct ∨ held.Changed chart) : Change c (c.put chart)

/-- Any number of changes. -/
def Changes : Catalog → Catalog → Prop :=
  Relation.ReflTransGen Change

/-- The charts are those of one job, with ids of their own, and have distinct dimensions. -/
structure Coherent (c : Catalog) : Prop where
  kind : ∀ chart ∈ c.charts, chart.kind = c.jobName
  nodup : (c.charts.map (·.id)).Nodup
  distinct : ∀ chart ∈ c.charts, chart.Distinct

theorem ok_of_bind {ε α β : Type} {x : Except ε α} {f : α → Except ε β} {b : β}
    (h : (x >>= f) = .ok b) : ∃ a, x = .ok a ∧ f a = .ok b := by
  cases x with
  | ok a => exact ⟨a, rfl, h⟩
  | error e => cases h

/-- A chart that a parameter list declares is of the job, has no dimensions and has not been declared. -/
theorem built {c : Catalog} {params : Json} {chart : Chart} (h : c.build params = .ok chart) :
    chart.kind = c.jobName ∧ chart.state = .pending ∧ chart.dimensions = [] := by
  unfold build at h
  obtain ⟨p, -, h⟩ := ok_of_bind h
  obtain ⟨raw, hraw, h⟩ := ok_of_bind h
  cases h
  unfold Chart.ofParameters at hraw
  obtain ⟨q, hq, hraw⟩ := ok_of_bind hraw
  obtain ⟨kind, hkind, hraw⟩ := ok_of_bind hraw
  obtain ⟨id, -, hraw⟩ := ok_of_bind hraw
  cases hraw
  refine ⟨?_, rfl, rfl⟩
  have hslots : q.slots = .string c.jobName :: p.slots := by
    simp only [Parameters.read] at hq
    split at hq
    · cases hq
    · cases hq
      rfl
  have htext : q.text 0 = c.jobName := by simp [Parameters.text, hslots, Parameters.textOf]
  rw [Parameters.id, htext] at hkind
  split at hkind
  · cases hkind
  · exact (Except.ok.inj hkind).symm

theorem get?_some {c : Catalog} {id : String} {held : Chart} (h : c.get? id = some held) :
    held ∈ c.charts ∧ held.id = id :=
  ⟨List.mem_of_find?_eq_some h, by simpa using List.find?_some h⟩

/-- The chart that is added is new. -/
theorem addChart_cases {c changed : Catalog} {params : Json} {chart : Chart}
    (h : c.addChart params = .ok (changed, chart)) :
    ∃ raw, c.build params = .ok raw ∧ c.contains raw.id = false ∧ changed = c.push raw ∧
      chart = { raw with priority := c.nextPriority } := by
  unfold addChart at h
  obtain ⟨raw, hraw, h⟩ := ok_of_bind h
  split at h
  · cases h
  · next hnew =>
    cases h
    exact ⟨raw, hraw, by simpa using hnew, rfl, rfl⟩

/-- The chart takes the place of the one of its id, or it is added. -/
theorem replaceChart_cases {c changed : Catalog} {params : Json} {chart : Chart}
    (h : c.replaceChart params = .ok (changed, chart)) :
    (∃ raw held, c.build params = .ok raw ∧ c.get? raw.id = some held ∧ changed = c.put chart ∧
        chart = { raw with priority := held.priority }) ∨
      c.addChart params = .ok (changed, chart) := by
  unfold replaceChart at h
  obtain ⟨raw, hraw, h⟩ := ok_of_bind h
  cases hget : c.get? raw.id with
  | none =>
    rw [hget] at h
    exact .inr h
  | some held =>
    rw [hget] at h
    cases h
    exact .inl ⟨raw, held, hraw, hget, rfl, rfl⟩

theorem changes_addChart {c changed : Catalog} {params : Json} {chart : Chart}
    (h : c.addChart params = .ok (changed, chart)) : Changes c changed := by
  obtain ⟨raw, hraw, hnew, rfl, -⟩ := addChart_cases h
  obtain ⟨hkind, hstate, hdimensions⟩ := built hraw
  have hdistinct : raw.Distinct := by simp [Chart.Distinct, hdimensions]
  have hpush : raw.state.push = true := by rw [hstate]; rfl
  exact .single (.push raw hkind hpush hdistinct hnew)

theorem changes_replaceChart {c changed : Catalog} {params : Json} {chart : Chart}
    (h : c.replaceChart params = .ok (changed, chart)) : Changes c changed := by
  rcases replaceChart_cases h with ⟨raw, held, hraw, hget, rfl, rfl⟩ | hadd
  · obtain ⟨hkind, hstate, hdimensions⟩ := built hraw
    obtain ⟨hheld, hid⟩ := get?_some hget
    have hdistinct : ({ raw with priority := held.priority } : Chart).Distinct := by
      simp [Chart.Distinct, hdimensions]
    have hpush : raw.state.push = true := by rw [hstate]; rfl
    exact .single (.put held _ hheld hid.symm hkind (.inl ⟨hpush, hdistinct⟩))
  · exact changes_addChart hadd

/-- What adding dimensions and variables to a chart keeps. -/
structure FilledFrom (chart filled : Chart) : Prop where
  header : filled.toChartHeader = chart.toChartHeader
  pending : chart.state = .pending → filled.state = .pending
  distinct : chart.Distinct → filled.Distinct

theorem changed_addDimensions (chart : Chart) (lines : List Json) :
    Relation.ReflTransGen Chart.Changed chart (addDimensions chart lines).1 := by
  induction lines generalizing chart with
  | nil => exact .refl
  | cons params rest ih =>
    unfold addDimensions
    cases h : chart.addDimension params with
    | error e => exact .refl
    | ok changed =>
      obtain ⟨d, -, hinsert⟩ := ok_of_bind h
      exact .head (Chart.changed_insertDimension hinsert) (ih changed)

theorem changed_addVariables (chart : Chart) (vars : List Json) :
    Relation.ReflTransGen Chart.Changed chart (addVariables chart vars).1 := by
  induction vars generalizing chart with
  | nil => exact .refl
  | cons params rest ih =>
    unfold addVariables
    cases h : chart.addVariable params with
    | error e => exact .refl
    | ok changed => exact .head (Chart.changed_addVariable h) (ih changed)

theorem changed_fill (chart : Chart) (entry : Layout.Entry) :
    Relation.ReflTransGen Chart.Changed chart (fill chart entry).1 := by
  have hdimensions := changed_addDimensions chart entry.lines
  unfold fill
  cases h : addDimensions chart entry.lines with
  | mk changed error =>
    rw [h] at hdimensions
    cases error with
    | some e => exact hdimensions
    | none => exact hdimensions.trans (changed_addVariables changed entry.vars)

theorem filledFrom_fill (chart : Chart) (entry : Layout.Entry) : FilledFrom chart (fill chart entry).1 := by
  have h := changed_fill chart entry
  generalize (fill chart entry).1 = filled at h ⊢
  induction h with
  | refl => exact ⟨rfl, id, id⟩
  | tail _ hc ih =>
    exact ⟨hc.header.trans ih.header, fun hp => hc.pending (ih.pending hp), fun hd => hc.distinct (ih.distinct hd)⟩

/-- A chart takes the place of the one that was added last. -/
theorem put_push {c : Catalog} {raw chart : Chart} (hnew : ∀ held ∈ c.charts, held.id ≠ raw.id)
    (hid : chart.id = raw.id) (hpriority : chart.priority = c.nextPriority) :
    (c.push raw).put chart = c.push chart := by
  have hothers : (c.charts.map fun held => if held.id = chart.id then chart else held) = c.charts := by
    refine (List.map_congr_left fun held hheld => ?_).trans (List.map_id c.charts)
    exact if_neg (hid ▸ hnew held hheld)
  have hchart : { chart with priority := c.nextPriority } = chart := by
    rw [← hpriority]
  simp only [put, push, List.map_append, hothers, List.map_cons, List.map_nil, if_pos hid.symm, hchart]

/-- The chart of an entry is added with all that the entry lists. -/
theorem createChart_cases (c : Catalog) (id : String) (entry : Layout.Entry) :
    (c.createChart id entry).1 = c ∨ ∃ params raw, c.build params = .ok raw ∧ c.contains raw.id = false ∧
      (c.createChart id entry).1 = c.push (fill { raw with priority := c.nextPriority } entry).1 := by
  unfold createChart
  cases hadd : c.addChart (.array (.string id :: entry.options)) with
  | error e => exact .inl rfl
  | ok added =>
    obtain ⟨added, chart⟩ := added
    obtain ⟨raw, hraw, hnew, rfl, rfl⟩ := addChart_cases hadd
    have hfilled := (filledFrom_fill { raw with priority := c.nextPriority } entry).header
    have hfresh : ∀ held ∈ c.charts, held.id ≠ raw.id := by simpa [contains, get?] using hnew
    exact .inr ⟨_, raw, hraw, hnew, put_push hfresh (by rw [hfilled]) (by rw [hfilled])⟩

theorem changes_createChart (c : Catalog) (id : String) (entry : Layout.Entry) :
    Changes c (c.createChart id entry).1 := by
  rcases c.createChart_cases id entry with heq | ⟨params, raw, hraw, hnew, heq⟩ <;> rw [heq]
  · exact .refl
  · obtain ⟨hkind, hstate, hdimensions⟩ := built hraw
    have hfilled := filledFrom_fill { raw with priority := c.nextPriority } entry
    have hheader := hfilled.header
    have hpush : (fill { raw with priority := c.nextPriority } entry).1.state.push = true := by
      rw [hfilled.pending hstate]
      rfl
    refine .single (.push _ ?_ hpush (hfilled.distinct ?_) ?_)
    · rw [hheader]
      exact hkind
    · simp [Chart.Distinct, hdimensions]
    · rw [hheader]
      exact hnew

/-- What the charts of entries keep one after the other, a layout keeps. -/
theorem createAll_induction {motive : Catalog → Prop} (layout : Layout)
    (hstep : ∀ (c : Catalog) (id : String) (entry : Layout.Entry), motive c → motive (c.createChart id entry).1)
    {c : Catalog} (h : motive c) (ids : List String) : motive (c.createAll layout ids).1 := by
  induction ids generalizing c with
  | nil => exact h
  | cons id rest ih =>
    cases hentry : layout.entry? id with
    | none =>
      simp only [createAll, hentry]
      exact ih h
    | some entry =>
      have hchart := hstep c id entry h
      cases hcreate : c.createChart id entry with
      | mk created error =>
        rw [hcreate] at hchart
        simp only [createAll, hentry, hcreate]
        cases error with
        | none => exact ih hchart
        | some e => exact hchart

theorem changes_createAll (c : Catalog) (layout : Layout) (ids : List String) :
    Changes c (c.createAll layout ids).1 :=
  createAll_induction layout (fun reached id entry h => h.trans (reached.changes_createChart id entry)) .refl ids

/-- The operation is one of a job: charts are changed, and neither declared, given up nor updated but by
cycles of the catalog. -/
def Operation.isRegular : Operation → Bool
  | .onChart _ op => op.isTopology
  | _ => true

/-- The operation adds charts or changes one. -/
def Operation.isChange : Operation → Bool
  | .create _ => true
  | .addChart _ => true
  | .replaceChart _ => true
  | .onChart _ op => op.isTopology
  | _ => false

theorem changes_ofExcept (c : Catalog) (result : Except DeclarationError (Catalog × Chart))
    (h : ∀ changed chart, result = .ok (changed, chart) → Changes c changed) :
    (Effect.ofExcept c result).lines = [] ∧ Changes c (Effect.ofExcept c result).catalog := by
  cases result with
  | ok out => exact ⟨rfl, h out.1 out.2 rfl⟩
  | error e => exact ⟨rfl, .refl⟩

theorem changes_apply {c : Catalog} (h : c.Coherent) {op : Operation} (hop : op.isChange = true) :
    (c.apply op).lines = [] ∧ Changes c (c.apply op).catalog := by
  cases op with
  | create layout =>
    have hcreate := c.changes_createAll layout layout.order
    cases hall : c.createAll layout layout.order with
    | mk created error =>
      rw [hall] at hcreate
      simp only [apply, create, hall]
      cases error <;> exact ⟨rfl, hcreate⟩
  | addChart params => exact c.changes_ofExcept _ fun _ _ => changes_addChart
  | replaceChart params => exact c.changes_ofExcept _ fun _ _ => changes_replaceChart
  | obsoleteChart id => cases hop
  | update data sinceLast cleanup => cases hop
  | onChart id operation =>
    cases hget : c.get? id with
    | none =>
      simp only [apply, hget]
      exact ⟨trivial, .refl⟩
    | some held =>
      obtain ⟨hheld, -⟩ := get?_some hget
      obtain ⟨hlines, hchanged⟩ := held.silent_apply operation hop
      simp only [apply, hget]
      refine ⟨hlines, .single (.put held _ hheld ?_ ?_ (.inr hchanged))⟩
      · rw [hchanged.header]
      · rw [hchanged.header]
        exact h.kind held hheld

/-! ## What changes keep -/

theorem mem_put {c : Catalog} {chart other : Chart} (h : other ∈ (c.put chart).charts) :
    other = chart ∨ other ∈ c.charts ∧ other.id ≠ chart.id := by
  obtain ⟨held, hheld, hother⟩ := List.mem_map.mp h
  split at hother
  · exact .inl hother.symm
  · next hid => exact .inr (hother ▸ ⟨hheld, hid⟩)

theorem ids_put (c : Catalog) (chart : Chart) :
    (c.put chart).charts.map (·.id) = c.charts.map (·.id) := by
  rw [put, List.map_map]
  refine List.map_congr_left fun held _ => ?_
  by_cases hid : held.id = chart.id <;> simp [hid]

theorem Change.coherent {c changed : Catalog} (h : Change c changed) (hc : c.Coherent) :
    changed.Coherent := by
  cases h with
  | push chart hkind hpush hdistinct hnew =>
    have hfresh : ∀ held ∈ c.charts, held.id ≠ chart.id := by
      simpa [contains, get?] using hnew
    refine ⟨fun other h => ?_, ?_, fun other h => ?_⟩
    · rcases List.mem_append.mp h with h | h
      · exact hc.kind other h
      · cases List.mem_singleton.mp h
        exact hkind
    · simpa [Catalog.push, List.nodup_append, or_imp, forall_and] using And.intro hc.nodup hfresh
    · rcases List.mem_append.mp h with h | h
      · exact hc.distinct other h
      · cases List.mem_singleton.mp h
        exact hdistinct
  | put held chart hheld hid hkind h =>
    refine ⟨fun other h => ?_, ?_, fun other hother => ?_⟩
    · rcases mem_put h with rfl | ⟨h, -⟩
      · exact hkind
      · exact hc.kind other h
    · rw [ids_put]
      exact hc.nodup
    · rcases mem_put hother with rfl | ⟨hother, -⟩
      · rcases h with ⟨-, hdistinct⟩ | hchanged
        · exact hdistinct
        · exact hchanged.distinct (hc.distinct held hheld)
      · exact hc.distinct other hother

theorem wireIds_put {c : Catalog} (hc : c.Coherent) {chart : Chart} (hkind : chart.kind = c.jobName) :
    (c.put chart).wireIds = c.wireIds := by
  rw [wireIds, put, List.map_map]
  refine List.map_congr_left fun held hheld => ?_
  by_cases hid : held.id = chart.id
  · simp [hid, Chart.wireId, Chart.fullId, hkind, hc.kind held hheld]
  · simp [hid]

/-- Charts are added at the end, and no id is taken back. -/
theorem Change.wireIds_prefix {c changed : Catalog} (h : Change c changed) (hc : c.Coherent) :
    c.wireIds <+: changed.wireIds := by
  cases h with
  | push chart hkind hpush hdistinct hnew =>
    rw [wireIds, wireIds, Catalog.push, List.map_append]
    exact List.prefix_append _ _
  | put held chart hheld hid hkind h =>
    exact wireIds_put hc hkind ▸ List.prefix_rfl

/-! ## What has been announced -/

/-- A receiver that has read all that was sent knows of each chart what it was told, once it reads the
announcements that are waiting. These begin no group, and name the charts of the catalog. -/
structure Announced (c : Catalog) (r : Receiver) : Prop where
  told : ∀ chart ∈ c.charts, chart.Told ((r.readAll (c.pending.map Line.onWire)).view chart.wireId)
  within : Line.Within c.wireIds (c.pending.map Line.onWire)
  no_group : ∀ id n, .groupStart id n ∉ c.pending.map Line.onWire
  plain : ∀ line ∈ c.pending, line.Plain
  once : Line.ListsOnce (c.pending.map Line.onWire)

theorem told_of_push {chart : Chart} (h : chart.state.push = true) (v : View) : chart.Told v := by
  intro hpush
  rw [h] at hpush
  cases hpush

theorem Change.announced {c changed : Catalog} {r : Receiver} (h : Change c changed) (hc : c.Coherent)
    (ha : c.Announced r) : changed.Announced r := by
  have hwithin : Line.Within changed.wireIds (c.pending.map Line.onWire) :=
    ha.within.mono (h.wireIds_prefix hc).subset
  cases h with
  | push chart hkind hpush hdistinct hnew =>
    refine ⟨fun other h => ?_, hwithin, ha.no_group, ha.plain, ha.once⟩
    rcases List.mem_append.mp h with h | h
    · exact ha.told other h
    · cases List.mem_singleton.mp h
      exact told_of_push hpush _
  | put held chart hheld hid hkind h =>
    refine ⟨fun other hother => ?_, hwithin, ha.no_group, ha.plain, ha.once⟩
    rcases mem_put hother with rfl | ⟨hother, -⟩
    · rcases h with ⟨hpush, -⟩ | hchanged
      · exact told_of_push hpush _
      · rw [hchanged.wireId]
        exact (ha.told held hheld).changed hchanged
    · exact ha.told other hother

theorem Changes.coherent {c changed : Catalog} (h : Changes c changed) (hc : c.Coherent) :
    changed.Coherent ∧ c.wireIds <+: changed.wireIds := by
  induction h with
  | refl => exact ⟨hc, List.prefix_rfl⟩
  | tail _ hstep ih => exact ⟨hstep.coherent ih.1, ih.2.trans (hstep.wireIds_prefix ih.1)⟩

theorem Changes.announced {c changed : Catalog} {r : Receiver} (h : Changes c changed) (hc : c.Coherent)
    (ha : c.Announced r) : changed.Announced r := by
  induction h with
  | refl => exact ha
  | tail hbefore hstep ih => exact hstep.announced (Changes.coherent hbefore hc).1 ih

/-- Lines that name none of the charts leave what has been announced as it is. -/
theorem Announced.readAll {c : Catalog} {r : Receiver} (ha : c.Announced r) {ids : List String}
    {lines : List Line} (hwithin : Line.Within ids lines) (hids : ∀ id ∈ c.wireIds, id ∉ ids) :
    c.Announced (r.readAll lines) := by
  refine ⟨fun chart h => ?_, ha.within, ha.no_group, ha.plain, ha.once⟩
  have hview := hwithin.view_eq r (hids _ (List.mem_map_of_mem h))
  rw [Receiver.view_readAll_of_headed ha.within.headed hview]
  exact ha.told chart h

/-- The charts have ids of their own on the wire. -/
def Separate (c : Catalog) : Prop :=
  c.wireIds.Nodup

/-- No text of the charts holds a line break. -/
def Plain (c : Catalog) : Prop :=
  ∀ chart ∈ c.charts, chart.Plain

theorem eq_of_wireId {c : Catalog} (hs : c.Separate) {chart other : Chart} (h : chart ∈ c.charts)
    (hother : other ∈ c.charts) (hwire : chart.wireId = other.wireId) : chart = other :=
  List.inj_on_of_nodup_map hs h hother hwire

theorem Announced.obsolete {c : Catalog} {r : Receiver} (ha : c.Announced r) (hc : c.Coherent)
    (hs : c.Separate) (hp : c.Plain) {held : Chart} (hheld : held ∈ c.charts) :
    ({ c.put held.obsolete with pending := c.pending ++ held.obsoletion } : Catalog).Announced r := by
  have hid : held.obsolete.id = held.id := by rw [held.header_obsolete]
  have hkind : held.obsolete.kind = c.jobName := by rw [held.header_obsolete, hc.kind held hheld]
  have hids : (c.put held.obsolete).wireIds = c.wireIds := wireIds_put hc hkind
  have hown : [held.wireId] ⊆ c.wireIds := 
    List.cons_subset.mpr ⟨List.mem_map_of_mem hheld, List.nil_subset _⟩
  refine ⟨fun other hother => ?_, ?_, fun id n hmem => ?_, fun line hl => ?_, ?_⟩
  · rcases mem_put hother with rfl | ⟨hother, hne⟩
    · exact held.told_obsolete _
    · have hwire : other.wireId ∉ [held.wireId] := by
        rw [List.mem_singleton]
        intro hwire
        rw [eq_of_wireId hs hother hheld hwire] at hne
        exact hne hid.symm
      rw [List.map_append, Receiver.readAll_append, held.within_obsoletion.view_eq _ hwire]
      exact ha.told other hother
  · rw [List.map_append]
    exact (ha.within.append (held.within_obsoletion.mono hown)).mono (hids ▸ List.Subset.refl _)
  · rw [List.map_append] at hmem
    rcases List.mem_append.mp hmem with hmem | hmem
    · exact ha.no_group id n hmem
    · exact held.no_group_obsoletion id n hmem
  · rcases List.mem_append.mp hl with hl | hl
    · exact ha.plain line hl
    · exact Chart.plain_obsoletion (hp held hheld) line hl
  · rw [List.map_append]
    exact ha.once.append held.listsOnce_obsoletion held.within_obsoletion.headed

theorem obsoleteChart_cases (c : Catalog) (id : String) :
    (c.obsoleteChart id).1 = c ∨ ∃ held ∈ c.charts, held.isObsolete = false ∧
      (c.obsoleteChart id).1 = { c.put held.obsolete with pending := c.pending ++ held.obsoletion } := by
  cases hget : c.get? id with
  | none => exact .inl (by simp only [obsoleteChart, hget])
  | some held =>
    cases hobsolete : held.isObsolete with
    | true => exact .inl (by simp only [obsoleteChart, hget, hobsolete, if_true])
    | false =>
      refine .inr ⟨held, (get?_some hget).1, hobsolete, ?_⟩
      simp only [obsoleteChart, hget, hobsolete]
      rfl

theorem coherent_obsoleteChart {c : Catalog} (hc : c.Coherent) (id : String) :
    (c.obsoleteChart id).1.Coherent ∧ c.wireIds <+: (c.obsoleteChart id).1.wireIds := by
  rcases c.obsoleteChart_cases id with heq | ⟨held, hheld, hobsolete, heq⟩ <;> rw [heq]
  · exact ⟨hc, List.prefix_rfl⟩
  · have hput : Change c (c.put held.obsolete) := by
      refine .put held _ hheld (by rw [held.header_obsolete]) ?_ (.inl ⟨?_, ?_⟩)
      · rw [held.header_obsolete, hc.kind held hheld]
      · simp [Chart.obsolete, hobsolete, Chart.State.obsolete, Chart.State.push]
      · exact (hc.distinct held hheld).obsolete
    have hcoherent := hput.coherent hc
    exact ⟨⟨hcoherent.kind, hcoherent.nodup, hcoherent.distinct⟩, hput.wireIds_prefix hc⟩

theorem announced_obsoleteChart {c : Catalog} {r : Receiver} (ha : c.Announced r) (hc : c.Coherent)
    (hs : c.Separate) (hp : c.Plain) (id : String) : (c.obsoleteChart id).1.Announced r := by
  rcases c.obsoleteChart_cases id with heq | ⟨held, hheld, -, heq⟩ <;> rw [heq]
  · exact ha
  · exact ha.obsolete hc hs hp hheld

end Catalog

/-! ## Cycles -/

/-- The receiver accepts the lines as they are read back. They name charts of `ids` alone, and no text of them
holds a line break. -/
structure Receiver.Admits (r : Receiver) (ids : List String) (lines : List Line) : Prop where
  accepts : r.Accepts (lines.map Line.onWire)
  within : Line.Within ids (lines.map Line.onWire)
  plain : ∀ line ∈ lines, line.Plain

theorem Receiver.admits_nil (r : Receiver) (ids : List String) : r.Admits ids [] :=
  ⟨r.accepts_nil, Line.within_nil ids, fun _ h => by cases h⟩

theorem Receiver.Admits.append {r : Receiver} {ids : List String} {first second : List Line}
    (h1 : r.Admits ids first) (h2 : (r.readAll (first.map Line.onWire)).Admits ids second) :
    r.Admits ids (first ++ second) := by
  refine ⟨?_, ?_, fun line hl => ?_⟩
  · rw [List.map_append]
    exact h1.accepts.append h2.accepts
  · rw [List.map_append]
    exact h1.within.append h2.within
  · rcases List.mem_append.mp hl with hl | hl
    · exact h1.plain line hl
    · exact h2.plain line hl

theorem Receiver.Admits.mono {r : Receiver} {ids more : List String} {lines : List Line}
    (h : r.Admits ids lines) (hids : ids ⊆ more) : r.Admits more lines :=
  ⟨h.accepts, h.within.mono hids, h.plain⟩

/-- A chart that is given up in a cycle has its announcement sent at once. -/
theorem Chart.admits_obsoletion {c : Chart} (h : c.Plain) (r : Receiver) :
    r.Admits [c.wireId] c.obsoletion :=
  ⟨r.accepts_of_no_group c.no_group_obsoletion, c.within_obsoletion, plain_obsoletion h⟩

theorem Chart.admits_update {c : Chart} {r : Receiver} (h : c.Told (r.view c.wireId)) (hp : c.Plain)
    (data : Samples) (sinceLast : Nat) : r.Admits [c.wireId] (c.update data sinceLast).lines :=
  ⟨accepts_update h data sinceLast, c.within_update data sinceLast, plain_update hp data sinceLast⟩

namespace Catalog

section Cycles

variable (data : Samples) (sinceLast cleanup : Nat)

/-- What a cycle does to one chart: nothing, an update, or an update after which it is given up. -/
theorem step_cases (chart : Chart) :
    step data sinceLast cleanup chart = ⟨chart, [], false⟩ ∨
      step data sinceLast cleanup chart = chart.update data sinceLast ∨
      step data sinceLast cleanup chart =
        ⟨(chart.update data sinceLast).chart.obsolete,
          (chart.update data sinceLast).lines ++ (chart.update data sinceLast).chart.obsoletion, false⟩ := by
  unfold step
  split
  · exact .inl rfl
  · dsimp only
    split
    · exact .inr (.inr rfl)
    · exact .inr (.inl rfl)

theorem admits_step {chart : Chart} {r : Receiver} (h : chart.Told (r.view chart.wireId)) (hp : chart.Plain) :
    r.Admits [chart.wireId] (step data sinceLast cleanup chart).lines ∧
      (step data sinceLast cleanup chart).chart.Told
        ((r.readAll ((step data sinceLast cleanup chart).lines.map Line.onWire)).view chart.wireId) := by
  have hupdate := Chart.admits_update h hp data sinceLast
  rcases step_cases data sinceLast cleanup chart with hstep | hstep | hstep <;> rw [hstep]
  · exact ⟨r.admits_nil _, h⟩
  · exact ⟨hupdate, h.update data sinceLast⟩
  · refine ⟨hupdate.append ?_, (chart.update data sinceLast).chart.told_obsolete _⟩
    have hobsoletion := Chart.admits_obsoletion (hp.update data sinceLast)
      (r.readAll ((chart.update data sinceLast).lines.map Line.onWire))
    rwa [Chart.wireId_update] at hobsoletion

theorem header_step (chart : Chart) :
    (step data sinceLast cleanup chart).chart.toChartHeader = chart.toChartHeader := by
  rcases step_cases data sinceLast cleanup chart with hstep | hstep | hstep <;> rw [hstep]
  · exact chart.header_update data sinceLast
  · rw [Chart.header_obsolete, Chart.header_update]

theorem distinct_step {chart : Chart} (h : chart.Distinct) :
    (step data sinceLast cleanup chart).chart.Distinct := by
  rcases step_cases data sinceLast cleanup chart with hstep | hstep | hstep <;> rw [hstep]
  · exact h
  · exact h.update data sinceLast
  · exact (h.update data sinceLast).obsolete

theorem listsOnce_step {chart : Chart} (hu : chart.Unquoted) (h : chart.Distinct) :
    Line.ListsOnce ((step data sinceLast cleanup chart).lines.map Line.onWire) := by
  have hupdate := Chart.listsOnce_update hu h data sinceLast
  rcases step_cases data sinceLast cleanup chart with hstep | hstep | hstep <;> rw [hstep]
  · exact Line.listsOnce_nil
  · exact hupdate
  · rw [List.map_append]
    exact hupdate.append (Chart.listsOnce_obsoletion _) (Chart.within_obsoletion _).headed

/-- The charts take their parts one after the other. No part touches what is known of another chart. -/
theorem admits_steps (charts : List Chart) (hids : (charts.map Chart.wireId).Nodup) (r : Receiver)
    (htold : ∀ chart ∈ charts, chart.Told (r.view chart.wireId)) (hp : ∀ chart ∈ charts, chart.Plain) :
    r.Admits (charts.map Chart.wireId) (charts.flatMap fun c => (step data sinceLast cleanup c).lines) ∧
      ∀ chart ∈ charts, (step data sinceLast cleanup chart).chart.Told
        ((r.readAll ((charts.flatMap fun c => (step data sinceLast cleanup c).lines).map Line.onWire)).view
          chart.wireId) := by
  induction charts generalizing r with
  | nil => exact ⟨r.admits_nil _, fun _ h => by cases h⟩
  | cons chart rest ih =>
    rw [List.map_cons, List.nodup_cons] at hids
    obtain ⟨hadmits, hafter⟩ := admits_step data sinceLast cleanup
      (htold chart List.mem_cons_self) (hp chart List.mem_cons_self)
    have hkept : ∀ other ∈ rest, other.wireId ∉ [chart.wireId] := by
      intro other hother hwire
      rw [List.mem_singleton] at hwire
      exact hids.1 (hwire ▸ List.mem_map_of_mem hother)
    obtain ⟨hrest, htoldrest⟩ := ih hids.2
      (r.readAll ((step data sinceLast cleanup chart).lines.map Line.onWire))
      (fun other hother => by
        rw [hadmits.within.view_eq r (hkept other hother)]
        exact htold other (List.mem_cons_of_mem chart hother))
      fun other hother => hp other (List.mem_cons_of_mem chart hother)
    rw [List.flatMap_cons]
    refine ⟨(hadmits.mono (by simp)).append (hrest.mono (by simp)), fun other hother => ?_⟩
    rw [List.map_append, Receiver.readAll_append]
    rcases List.mem_cons.mp hother with rfl | hother
    · rw [hrest.within.view_eq _ hids.1]
      exact hafter
    · exact htoldrest other hother

theorem charts_update (c : Catalog) :
    (c.update data sinceLast cleanup).catalog.charts =
      c.charts.map fun chart => (step data sinceLast cleanup chart).chart := by
  simp [update, Function.comp_def]

theorem lines_update (c : Catalog) :
    (c.update data sinceLast cleanup).lines =
      c.pending ++ c.charts.flatMap fun chart => (step data sinceLast cleanup chart).lines := by
  simp [update, List.flatMap_map]

theorem wireIds_update (c : Catalog) :
    (c.update data sinceLast cleanup).catalog.wireIds = c.wireIds := by
  rw [wireIds, charts_update, List.map_map]
  exact List.map_congr_left fun chart _ => Chart.wireId_of_header (header_step data sinceLast cleanup chart)

theorem Coherent.update {c : Catalog} (hc : c.Coherent) :
    (c.update data sinceLast cleanup).catalog.Coherent := by
  refine ⟨fun chart h => ?_, ?_, fun chart h => ?_⟩
  · rw [charts_update] at h
    obtain ⟨held, hheld, rfl⟩ := List.mem_map.mp h
    rw [header_step]
    exact hc.kind held hheld
  · have hids : (c.update data sinceLast cleanup).catalog.charts.map (·.id) = c.charts.map (·.id) := by
      rw [charts_update, List.map_map]
      exact List.map_congr_left fun chart _ => by simp [header_step]
    rw [hids]
    exact hc.nodup
  · rw [charts_update] at h
    obtain ⟨held, hheld, rfl⟩ := List.mem_map.mp h
    exact distinct_step data sinceLast cleanup (hc.distinct held hheld)

theorem admits_cycle {c : Catalog} {r : Receiver} (ha : c.Announced r) (hs : c.Separate) (hp : c.Plain) :
    r.Admits c.wireIds (c.update data sinceLast cleanup).lines ∧
      (c.update data sinceLast cleanup).catalog.Announced
        (r.readAll ((c.update data sinceLast cleanup).lines.map Line.onWire)) := by
  have hpending : r.Admits c.wireIds c.pending :=
    ⟨r.accepts_of_no_group ha.no_group, ha.within, ha.plain⟩
  obtain ⟨hadmits, htold⟩ := admits_steps data sinceLast cleanup c.charts hs _ ha.told hp
  rw [lines_update]
  refine ⟨hpending.append hadmits, ⟨fun chart h => ?_, Line.within_nil _, fun _ _ h => ?_, fun _ h => ?_,
    Line.listsOnce_nil⟩⟩
  · rw [charts_update] at h
    obtain ⟨held, hheld, rfl⟩ := List.mem_map.mp h
    rw [List.map_append, Receiver.readAll_append, Chart.wireId_of_header (header_step _ _ _ held)]
    exact htold held hheld
  all_goals cases h

theorem within_step (chart : Chart) :
    Line.Within [chart.wireId] ((step data sinceLast cleanup chart).lines.map Line.onWire) := by
  have hupdate := chart.within_update data sinceLast
  rcases step_cases data sinceLast cleanup chart with hstep | hstep | hstep <;> rw [hstep]
  · exact Line.within_nil _
  · exact hupdate
  · have hobsoletion := (chart.update data sinceLast).chart.within_obsoletion
    rw [Chart.wireId_update] at hobsoletion
    rw [List.map_append]
    exact hupdate.append hobsoletion

theorem headed_steps (charts : List Chart) :
    Line.Headed ((charts.flatMap fun c => (step data sinceLast cleanup c).lines).map Line.onWire) := by
  rw [List.map_flatMap]
  exact Line.headed_flatMap _ _ fun c _ => (within_step data sinceLast cleanup c).headed

theorem listsOnce_steps (charts : List Chart) (hu : ∀ chart ∈ charts, chart.Unquoted)
    (hd : ∀ chart ∈ charts, chart.Distinct) :
    Line.ListsOnce ((charts.flatMap fun c => (step data sinceLast cleanup c).lines).map Line.onWire) := by
  induction charts with
  | nil => exact Line.listsOnce_nil
  | cons chart rest ih =>
    have hrest := ih (fun c hc => hu c (List.mem_cons_of_mem chart hc))
      fun c hc => hd c (List.mem_cons_of_mem chart hc)
    rw [List.flatMap_cons, List.map_append]
    exact (listsOnce_step data sinceLast cleanup (hu chart List.mem_cons_self)
      (hd chart List.mem_cons_self)).append hrest (headed_steps data sinceLast cleanup rest)

theorem listsOnce_cycle {c : Catalog} {r : Receiver} (ha : c.Announced r) (hc : c.Coherent)
    (hu : ∀ chart ∈ c.charts, chart.Unquoted) :
    Line.ListsOnce ((c.update data sinceLast cleanup).lines.map Line.onWire) := by
  rw [lines_update, List.map_append]
  exact ha.once.append (listsOnce_steps data sinceLast cleanup c.charts hu hc.distinct)
    (headed_steps data sinceLast cleanup c.charts)

end Cycles

/-! ## Runs -/

theorem regular_cases {op : Operation} (hop : op.isRegular = true) :
    op.isChange = true ∨ (∃ id, op = .obsoleteChart id) ∨
      ∃ data sinceLast cleanup, op = .update data sinceLast cleanup := by
  cases op with
  | obsoleteChart id => exact .inr (.inl ⟨id, rfl⟩)
  | update data sinceLast cleanup => exact .inr (.inr ⟨data, sinceLast, cleanup, rfl⟩)
  | onChart id operation => exact .inl hop
  | _ => exact .inl rfl

theorem coherent_apply {c : Catalog} (hc : c.Coherent) {op : Operation} (hop : op.isRegular = true) :
    (c.apply op).catalog.Coherent ∧ c.wireIds <+: (c.apply op).catalog.wireIds := by
  rcases regular_cases hop with hchange | ⟨id, rfl⟩ | ⟨data, sinceLast, cleanup, rfl⟩
  · exact (changes_apply hc hchange).2.coherent hc
  · exact coherent_obsoleteChart hc id
  · refine ⟨hc.update data sinceLast cleanup, ?_⟩
    exact (wireIds_update data sinceLast cleanup c).symm ▸ List.prefix_rfl

theorem admits_apply {c : Catalog} {r : Receiver} (ha : c.Announced r) (hc : c.Coherent) (hs : c.Separate)
    (hp : c.Plain) {op : Operation} (hop : op.isRegular = true) :
    r.Admits c.wireIds (c.apply op).lines ∧
      (c.apply op).catalog.Announced (r.readAll ((c.apply op).lines.map Line.onWire)) := by
  rcases regular_cases hop with hchange | ⟨id, rfl⟩ | ⟨data, sinceLast, cleanup, rfl⟩
  · obtain ⟨hlines, hchanges⟩ := changes_apply hc hchange
    rw [hlines]
    exact ⟨r.admits_nil _, hchanges.announced hc ha⟩
  · exact ⟨r.admits_nil _, announced_obsoleteChart ha hc hs hp id⟩
  · exact admits_cycle data sinceLast cleanup ha hs hp

/-- What a sequence of operations did: the catalog after it and the lines it sent. -/
structure Run where
  catalog : Catalog
  lines : List Line

/-- Applies operations in order. -/
def run (c : Catalog) : List Operation → Run
  | [] => ⟨c, []⟩
  | op :: rest =>
    let effect := c.apply op
    let further := effect.catalog.run rest
    ⟨further.catalog, effect.lines ++ further.lines⟩

/-- Every catalog on the way of a run satisfies `P`. -/
def Along (P : Catalog → Prop) (c : Catalog) : List Operation → Prop
  | [] => P c
  | op :: rest => P c ∧ Along P (c.apply op).catalog rest

theorem Along.imp {P Q : Catalog → Prop} (hPQ : ∀ c, P c → Q c) {c : Catalog} {ops : List Operation}
    (h : Along P c ops) : Along Q c ops := by
  induction ops generalizing c with
  | nil => exact hPQ c h
  | cons op rest ih => exact ⟨hPQ c h.1, ih h.2⟩

theorem Along.final {P : Catalog → Prop} {c : Catalog} {ops : List Operation} (h : Along P c ops) :
    P (c.run ops).catalog := by
  induction ops generalizing c with
  | nil => exact h
  | cons op rest ih => exact ih h.2

instance Along.decidable {P : Catalog → Prop} [DecidablePred P] (c : Catalog) :
    (ops : List Operation) → Decidable (Along P c ops)
  | [] => inferInstanceAs (Decidable (P c))
  | op :: rest =>
    have := Along.decidable (P := P) (c.apply op).catalog rest
    inferInstanceAs (Decidable (P c ∧ Along P (c.apply op).catalog rest))

/-- No text of the charts holds a line break, and no id of a chart or of a dimension a quote. -/
structure Clean (c : Catalog) : Prop where
  plain : c.Plain
  unquoted : ∀ chart ∈ c.charts, chart.Unquoted

theorem Clean.separate {c : Catalog} (h : c.Clean) (hc : c.Coherent) : c.Separate := by
  have hids : c.wireIds = (c.charts.map (·.id)).map fun id => Line.bare c.jobName ++ "." ++ id := by
    rw [wireIds, List.map_map]
    refine List.map_congr_left fun chart hchart => ?_
    have hid := Line.bare_of_no_quote (h.unquoted chart hchart).1
    have hdot : Line.bare "." = "." := by decide
    rw [Chart.wireId, Chart.fullId, hc.kind chart hchart, Line.bare_append, Line.bare_append, hid, hdot]
    rfl
  rw [Separate, hids]
  refine List.Nodup.map (fun first second heq => ?_) hc.nodup
  exact String.append_right_inj _ |>.mp heq

instance (c : Catalog) : Decidable c.Clean :=
  decidable_of_iff ((∀ chart ∈ c.charts, chart.Plain) ∧ ∀ chart ∈ c.charts, chart.Unquoted)
    ⟨fun h => ⟨h.1, h.2⟩, fun h => ⟨h.1, h.2⟩⟩

theorem listsOnce_apply {c : Catalog} {r : Receiver} (ha : c.Announced r) (hc : c.Coherent)
    (hu : ∀ chart ∈ c.charts, chart.Unquoted) {op : Operation} (hop : op.isRegular = true) :
    Line.ListsOnce ((c.apply op).lines.map Line.onWire) := by
  rcases regular_cases hop with hchange | ⟨id, rfl⟩ | ⟨data, sinceLast, cleanup, rfl⟩
  · rw [(changes_apply hc hchange).1]
    exact Line.listsOnce_nil
  · exact Line.listsOnce_nil
  · exact listsOnce_cycle data sinceLast cleanup ha hc hu

theorem coherent_run {c : Catalog} (hc : c.Coherent) (ops : List Operation)
    (hops : ∀ op ∈ ops, op.isRegular = true) :
    (c.run ops).catalog.Coherent ∧ c.wireIds <+: (c.run ops).catalog.wireIds := by
  induction ops generalizing c with
  | nil => exact ⟨hc, List.prefix_rfl⟩
  | cons op rest ih =>
    obtain ⟨hcoherent, hprefix⟩ := coherent_apply hc (hops op List.mem_cons_self)
    obtain ⟨hend, hmore⟩ := ih hcoherent fun other h => hops other (List.mem_cons_of_mem op h)
    exact ⟨hend, hprefix.trans hmore⟩

theorem Separate.of_prefix {c later : Catalog} (h : later.Separate) (hids : c.wireIds <+: later.wireIds) :
    c.Separate :=
  List.Nodup.sublist hids.sublist h

theorem admits_run {c : Catalog} {r : Receiver} (ha : c.Announced r) (hc : c.Coherent)
    (ops : List Operation) (hops : ∀ op ∈ ops, op.isRegular = true) (hplain : Along Plain c ops)
    (hs : (c.run ops).catalog.Separate) :
    r.Admits (c.run ops).catalog.wireIds (c.run ops).lines ∧
      (c.run ops).catalog.Announced (r.readAll ((c.run ops).lines.map Line.onWire)) := by
  induction ops generalizing c r with
  | nil => exact ⟨r.admits_nil _, ha⟩
  | cons op rest ih =>
    have hop := hops op List.mem_cons_self
    have hrest := fun other h => hops other (List.mem_cons_of_mem op h)
    obtain ⟨hcoherent, hprefix⟩ := coherent_apply hc hop
    have hids := hprefix.trans (coherent_run hcoherent rest hrest).2
    obtain ⟨hadmits, hannounced⟩ := admits_apply ha hc (hs.of_prefix hids) hplain.1 hop
    obtain ⟨hmore, hend⟩ := ih hannounced hcoherent hrest hplain.2 hs
    refine ⟨(hadmits.mono hids.subset).append hmore, ?_⟩
    rw [run, List.map_append, Receiver.readAll_append]
    exact hend

theorem listsOnce_run {c : Catalog} {r : Receiver} (ha : c.Announced r) (hc : c.Coherent)
    (ops : List Operation) (hops : ∀ op ∈ ops, op.isRegular = true) (hclean : Along Clean c ops) :
    Line.ListsOnce ((c.run ops).lines.map Line.onWire) ∧ Line.Headed ((c.run ops).lines.map Line.onWire) := by
  induction ops generalizing c r with
  | nil => exact ⟨Line.listsOnce_nil, trivial⟩
  | cons op rest ih =>
    have hop := hops op List.mem_cons_self
    obtain ⟨hadmits, hannounced⟩ := admits_apply ha hc (hclean.1.separate hc) hclean.1.plain hop
    obtain ⟨honce, hheaded⟩ := ih hannounced (coherent_apply hc hop).1
      (fun other h => hops other (List.mem_cons_of_mem op h)) hclean.2
    rw [run, List.map_append]
    exact ⟨(listsOnce_apply ha hc hclean.1.unquoted hop).append honce hheaded,
      hadmits.within.headed.append hheaded⟩

theorem coherent_empty {c : Catalog} (h : c.charts = []) : c.Coherent := by
  refine ⟨?_, ?_, ?_⟩ <;> simp [h]

theorem announced_empty {c : Catalog} (hcharts : c.charts = []) (hpending : c.pending = []) (r : Receiver) :
    c.Announced r := by
  refine ⟨?_, ?_, ?_, ?_, ?_⟩
  · simp [hcharts]
  · rw [hpending]
    exact Line.within_nil _
  · simp [hpending]
  · simp [hpending]
  · rw [hpending]
    exact Line.listsOnce_nil

/-- The stream of a catalog is well formed, whatever is done to its charts between the cycles: each group is
closed, holds nothing but values, comes after a live announcement of its chart and sets dimensions of that
announcement that are not taken back. No announcement lists two dimensions of one id, so none of those set is
also listed as obsolete. -/
theorem stream_wellFormed (c : Catalog) (hcharts : c.charts = []) (hpending : c.pending = [])
    (ops : List Operation) (hops : ∀ op ∈ ops, op.isRegular = true) (hclean : Along Clean c ops) :
    ∃ lines, Line.readLines? (Line.renderAll (c.run ops).lines) = some lines ∧
      Line.WellFormed lines ∧ Line.ListsOnce lines := by
  have hcoherent := coherent_empty hcharts
  have hannounced := announced_empty hcharts hpending {}
  have hend := hclean.final.separate (coherent_run hcoherent ops hops).1
  obtain ⟨hadmits, -⟩ := admits_run hannounced hcoherent ops hops (hclean.imp fun _ h => h.plain) hend
  obtain ⟨honce, -⟩ := listsOnce_run hannounced hcoherent ops hops hclean
  exact ⟨_, Line.readLines?_renderAll _ hadmits.plain, Line.wellFormed_of_accepts hadmits.accepts, honce⟩

/-- A chart is created and updated, loses a dimension, is given up and taken up again before the announcement
of that was sent; then it is replaced. -/
def revival : List Operation :=
  [.create (Layout.empty.append "net"
      { options := [.null, .string "Traffic", .string "kb", .string "net", .string "net.traffic"]
        lines := [.array [.string "in"], .array [.string "out"]] }),
    .update ⟨[("in", .integer 3), ("out", .integer 4)]⟩ 0 0,
    .onChart "net" (.removeDimension "out" true),
    .obsoleteChart "net",
    .onChart "net" .refresh,
    .update ⟨[("in", .integer 5)]⟩ 1 0,
    .replaceChart (.array [.string "net", .null, .string "Traffic", .string "kb", .string "net",
      .string "net.traffic"]),
    .onChart "net" (.insertDimension (.ofId "all")),
    .update ⟨[("all", .integer 9)]⟩ 1 2]

theorem stream_wellFormed_revival :
    (∀ op ∈ revival, op.isRegular = true) ∧ Along Clean (Catalog.ofJob "job") revival ∧
      ∃ lines, Line.readLines? (Line.renderAll ((Catalog.ofJob "job").run revival).lines) = some lines ∧
        Line.WellFormed lines ∧ Line.ListsOnce lines := by
  have hregular : ∀ op ∈ revival, op.isRegular = true := by
    simp [revival, Operation.isRegular, Chart.Operation.isTopology]
  have hclean : Along Clean (Catalog.ofJob "job") revival := by decide +kernel
  exact ⟨hregular, hclean, stream_wellFormed (Catalog.ofJob "job") rfl rfl revival hregular hclean⟩

end Catalog

end ChartStream
