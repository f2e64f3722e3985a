import ChartStream.Proofs.WireIds

/-!
# Places of charts

Every operation on a catalog is a sequence of `Edit`s of the list of its charts. None takes a chart away or moves
it, so a chart has its place for good, and the priority that goes with the place (`charts_keep_places`).
-/

namespace ChartStream

set_option autoImplicit false

/-- What charts have from their catalog. -/
structure Settings where
  kind : String
  jobLabel : String
  plugin : String
  module : String
  updateEvery : Nat

def ChartHeader.settings (h : ChartHeader) : Settings :=
  ⟨h.kind, h.jobLabel, h.plugin, h.module, h.updateEvery⟩

namespace Catalog

/-- The settings for charts. -/
def settings (c : Catalog) : Settings :=
  ⟨c.jobName, c.jobLabel, c.plugin, c.module, c.updateEvery⟩

/-- The ids of the charts. -/
def ids (c : Catalog) : List String :=
  c.charts.map (·.id)

/-! ## What an operation can do to the list of charts -/

/-- One change of the list of charts: the charts with the headers that they had, a new chart at the end, or a new
chart in the place and with the priority of the one of its id. -/
inductive Edit (c : Catalog) : Catalog → Prop
  | redraw (charts : List Chart) (pending : List Line)
      (hheaders : charts.map (·.toChartHeader) = c.charts.map (·.toChartHeader)) :
      Edit c { c with charts := charts, pending := pending }
  | push (chart : Chart) (hsettings : chart.settings = c.settings) : Edit c (c.push chart)
  | replace (i : Nat) (held chart : Chart) (hheld : c.charts[i]? = some held) (hid : chart.id = held.id)
      (hpriority : chart.priority = held.priority) (hsettings : chart.settings = c.settings) :
      Edit c { c with charts := c.charts.set i chart }

/-- Any number of edits. -/
def Edits : Catalog → Catalog → Prop :=
  Relation.ReflTransGen Edit

theorem settings_build {c : Catalog} {params : Json} {chart : Chart} (h : c.build params = .ok chart) :
    chart.settings = c.settings ∧ chart.vars = [] ∧ chart.missed = 0 := by
  have hkind := (built h).1
  unfold build Chart.ofParameters at h
  obtain ⟨p, -, h⟩ := ok_of_bind h
  obtain ⟨raw, hraw, h⟩ := ok_of_bind h
  obtain ⟨q, -, hraw⟩ := ok_of_bind hraw
  obtain ⟨kind, -, hraw⟩ := ok_of_bind hraw
  obtain ⟨id, -, hraw⟩ := ok_of_bind hraw
  cases hraw
  cases h
  refine ⟨?_, rfl, rfl⟩
  rw [settings, ← hkind]
  rfl

/-- With ids of their own, a chart takes the place of one other chart. -/
theorem put_eq_set {c : Catalog} (hc : c.Coherent) {i : Nat} {held chart : Chart} (hheld : c.charts[i]? = some held)
    (hid : chart.id = held.id) : c.put chart = { c with charts := c.charts.set i chart } := by
  have hlt : i < c.charts.length := (List.getElem?_eq_some_iff.mp hheld).1
  have hcharts : (c.charts.map fun other => if other.id = chart.id then chart else other) = c.charts.set i chart := by
    refine List.ext_getElem? fun j => ?_
    rw [List.getElem?_map]
    by_cases hij : i = j
    · subst hij
      rw [hheld, List.getElem?_set_self hlt]
      exact congrArg some (if_pos hid.symm)
    · rw [List.getElem?_set_ne hij]
      cases hother : c.charts[j]? with
      | none => rfl
      | some other =>
        -- `put` goes by the id, which no other place has.
        have hne : other.id ≠ chart.id := by
          intro heq
          have hsame : (c.charts.map (·.id))[i]? = (c.charts.map (·.id))[j]? := by
            rw [List.getElem?_map, List.getElem?_map, hheld, hother, Option.map_some, Option.map_some, heq, hid]
          exact hij ((List.getElem?_inj (by rwa [List.length_map]) hc.nodup).mp hsame)
        exact congrArg some (if_neg hne)
  rw [put, hcharts]

/-- A chart that keeps its header in the place of what it was before. -/
theorem headers_put {c : Catalog} (hc : c.Coherent) {held chart : Chart} (hheld : held ∈ c.charts)
    (hheader : chart.toChartHeader = held.toChartHeader) :
    (c.put chart).charts.map (·.toChartHeader) = c.charts.map (·.toChartHeader) := by
  rw [put, List.map_map]
  refine List.map_congr_left fun other hother => ?_
  by_cases hid : other.id = chart.id
  · have hsame : other = held :=
      List.inj_on_of_nodup_map hc.nodup hother hheld (hid.trans (congrArg ChartHeader.id hheader))
    rw [Function.comp_apply, if_pos hid, hheader, hsame]
  · rw [Function.comp_apply, if_neg hid]

/-! ### Operations -/

theorem edit_addChart {c changed : Catalog} {params : Json} {chart : Chart}
    (h : c.addChart params = .ok (changed, chart)) : Edit c changed := by
  obtain ⟨raw, hraw, -, rfl, -⟩ := addChart_cases h
  exact .push raw (settings_build hraw).1

/-- The chart that is replaced is the one with the id of the new chart, which starts afresh. -/
theorem replaceChart_place {c changed : Catalog} (hc : c.Coherent) {params : Json} {chart : Chart}
    (h : c.replaceChart params = .ok (changed, chart)) (hknown : c.contains chart.id = true) :
    ∃ i held, c.charts[i]? = some held ∧ chart.id = held.id ∧ chart.priority = held.priority ∧
      chart.settings = c.settings ∧ changed = { c with charts := c.charts.set i chart } ∧
      chart.state = .pending ∧ chart.missed = 0 ∧ chart.dimensions = [] ∧ chart.vars = [] := by
  rcases replaceChart_cases h with ⟨raw, held, hraw, hget, rfl, hchart⟩ | hadd
  · obtain ⟨-, hstate, hdimensions⟩ := built hraw
    obtain ⟨hsettings, hvars, hmissed⟩ := settings_build hraw
    obtain ⟨hheld, hid⟩ := get?_some hget
    obtain ⟨i, hi⟩ := List.mem_iff_getElem?.mp hheld
    subst hchart
    exact ⟨i, held, hi, hid.symm, rfl, hsettings, put_eq_set hc hi hid.symm, hstate, hmissed, hdimensions, hvars⟩
  · obtain ⟨raw, -, hnew, -, rfl⟩ := addChart_cases hadd
    rw [hnew] at hknown
    cases hknown

theorem edit_replaceChart {c changed : Catalog} (hc : c.Coherent) {params : Json} {chart : Chart}
    (h : c.replaceChart params = .ok (changed, chart)) : Edit c changed := by
  cases hknown : c.contains chart.id with
  | true =>
    obtain ⟨i, held, hi, hid, hpriority, hsettings, rfl, -⟩ := replaceChart_place hc h hknown
    exact .replace i held chart hi hid hpriority hsettings
  | false =>
    rcases replaceChart_cases h with ⟨raw, held, -, hget, -, rfl⟩ | hadd
    · rw [contains, hget] at hknown
      cases hknown
    · exact edit_addChart hadd

theorem edits_createChart (c : Catalog) (id : String) (entry : Layout.Entry) :
    Edits c (c.createChart id entry).1 := by
  rcases c.createChart_cases id entry with heq | ⟨params, raw, hraw, -, heq⟩ <;> rw [heq]
  · exact .refl
  · have hheader := (filledFrom_fill { raw with priority := c.nextPriority } entry).header
    refine .single (.push _ ?_)
    rw [hheader]
    exact (settings_build hraw).1

theorem edits_ofExcept (c : Catalog) (result : Except DeclarationError (Catalog × Chart))
    (h : ∀ changed chart, result = .ok (changed, chart) → Edit c changed) :
    Edits c (Effect.ofExcept c result).catalog := by
  cases result with
  | ok out => exact .single (h out.1 out.2 rfl)
  | error e => exact .refl

theorem edits_apply {c : Catalog} (hc : c.Coherent) (op : Operation) : Edits c (c.apply op).catalog := by
  cases op with
  | create layout =>
    have hcreate : Edits c (c.create layout).1 :=
      createAll_induction layout (fun reached id entry h => h.trans (reached.edits_createChart id entry)) .refl
        layout.order
    cases hall : c.create layout with
    | mk created error =>
      rw [hall] at hcreate
      simp only [apply, hall]
      cases error <;> exact hcreate
  | addChart params => exact c.edits_ofExcept _ fun _ _ => edit_addChart
  | replaceChart params => exact c.edits_ofExcept _ fun _ _ => edit_replaceChart hc
  | obsoleteChart id =>
    rcases c.obsoleteChart_cases id with heq | ⟨held, hheld, -, heq⟩
    · simp only [apply, heq]
      exact .refl
    · simp only [apply, heq]
      exact .single (.redraw _ _ (headers_put hc hheld held.header_obsolete))
  | update data sinceLast cleanup =>
    have hheaders : (c.update data sinceLast cleanup).catalog.charts.map (·.toChartHeader) =
        c.charts.map (·.toChartHeader) := by
      rw [charts_update, List.map_map]
      exact List.map_congr_left fun chart _ => header_step data sinceLast cleanup chart
    exact .single (.redraw _ _ hheaders)
  | onChart id operation =>
    cases hget : c.get? id with
    | none =>
      simp only [apply, hget]
      exact .refl
    | some held =>
      simp only [apply, hget]
      exact .single (.redraw _ _ (headers_put hc (get?_some hget).1 (held.header_apply operation)))

/-! ## What edits keep -/

/-- Each chart has the settings and the priority that go with its place, and the next one will. -/
structure Placed (base : Nat) (c : Catalog) : Prop where
  charts : ∀ (i : Nat) (chart : Chart), c.charts[i]? = some chart →
    chart.settings = c.settings ∧ chart.priority = min (base + i) lastPriority
  next : c.nextPriority = min (base + c.charts.length) lastPriority

variable {c later : Catalog} {base : Nat}

theorem placed_empty (hcharts : c.charts = []) (hnext : c.nextPriority ≤ lastPriority) :
    c.Placed c.nextPriority := by
  refine ⟨fun i chart h => ?_, ?_⟩
  · rw [hcharts] at h
    cases h
  · rw [hcharts]
    exact (Nat.min_eq_left hnext).symm

theorem Edit.settings (h : Edit c later) : later.settings = c.settings := by
  cases h <;> rfl

/-- An edit adds at most one id, at the end. -/
theorem Edit.ids_prefix (h : Edit c later) : c.ids <+: later.ids := by
  cases h with
  | redraw charts pending hheaders =>
    have hids : charts.map (·.id) = c.charts.map (·.id) := by
      have hmapped := congrArg (List.map ChartHeader.id) hheaders
      rwa [List.map_map, List.map_map] at hmapped
    change c.charts.map (·.id) <+: charts.map (·.id)
    exact hids ▸ List.prefix_rfl
  | push chart hsettings =>
    rw [ids, ids, Catalog.push, List.map_append]
    exact List.prefix_append _ _
  | replace i held chart hheld hid =>
    have hids : (c.charts.set i chart).map (·.id) = c.charts.map (·.id) := by
      have hplace : (c.charts.map (·.id))[i]? = some held.id := by rw [List.getElem?_map, hheld, Option.map_some]
      obtain ⟨hlt, hget⟩ := List.getElem?_eq_some_iff.mp hplace
      rw [List.map_set, hid, ← hget]
      exact List.set_getElem_self hlt
    change c.charts.map (·.id) <+: (c.charts.set i chart).map (·.id)
    exact hids ▸ List.prefix_rfl

theorem Edit.placed (h : Edit c later) (hp : c.Placed base) : later.Placed base := by
  cases h with
  | redraw charts pending hheaders =>
    have hlength : charts.length = c.charts.length := by simpa using congrArg List.length hheaders
    refine ⟨fun i chart hchart => ?_, ?_⟩
    · have hplace : (charts.map (·.toChartHeader))[i]? = (c.charts.map (·.toChartHeader))[i]? := by rw [hheaders]
      rw [List.getElem?_map, List.getElem?_map, hchart] at hplace
      obtain ⟨held, hheld, hsame⟩ := Option.map_eq_some_iff.mp hplace.symm
      have hkept := hp.charts i held hheld
      rwa [hsame] at hkept
    · rw [hlength]
      exact hp.next
  | push chart hsettings =>
    refine ⟨fun i other hother => ?_, ?_⟩
    · rw [Catalog.push, List.getElem?_append] at hother
      split at hother
      · exact hp.charts i other hother
      · next hbeyond =>
        obtain ⟨hlast, rfl⟩ : i - c.charts.length = 0 ∧ { chart with priority := c.nextPriority } = other := by
          simpa [List.getElem?_singleton] using hother
        have hi : i = c.charts.length := by omega
        exact ⟨hsettings, hi ▸ hp.next⟩
    · have hnext := hp.next
      change min (c.nextPriority + 1) lastPriority = _
      rw [Catalog.push, List.length_append, List.length_singleton]
      omega
  | replace i held chart hheld hid hpriority hsettings =>
    refine ⟨fun j other hother => ?_, ?_⟩
    · rw [List.getElem?_set] at hother
      split at hother
      · next hij =>
        subst hij
        have hsame : chart = other := by simpa [(List.getElem?_eq_some_iff.mp hheld).1] using hother
        rw [← hsame, hpriority]
        exact ⟨hsettings, (hp.charts i held hheld).2⟩
      · exact hp.charts j other hother
    · rw [List.length_set]
      exact hp.next

theorem Edits.keep (h : Edits c later) (hp : c.Placed base) :
    later.settings = c.settings ∧ c.ids <+: later.ids ∧ later.Placed base := by
  induction h with
  | refl => exact ⟨rfl, List.prefix_rfl, hp⟩
  | tail _ hedit ih =>
    obtain ⟨hsettings, hids, hplaced⟩ := ih
    exact ⟨hedit.settings.trans hsettings, hids.trans hedit.ids_prefix, hedit.placed hplaced⟩

/-! ## Runs -/

theorem edits_run (hc : c.Coherent) (ops : List Operation) : Edits c (c.run ops).catalog := by
  induction ops generalizing c with
  | nil => exact .refl
  | cons op rest ih => exact (edits_apply hc op).trans (ih (hc.apply op))

theorem run_append (c : Catalog) (first second : List Operation) :
    (c.run (first ++ second)).catalog = ((c.run first).catalog.run second).catalog := by
  induction first generalizing c with
  | nil => rfl
  | cons op rest ih => exact ih (c.apply op).catalog

/-- A declaration that is refused changes nothing. -/
theorem apply_refused {op : Operation} {params : Json} (hop : op = .addChart params ∨ op = .replaceChart params)
    {error : DeclarationError} (h : (c.apply op).answer = .failed error) : (c.apply op).catalog = c := by
  have hkept (result : Except DeclarationError (Catalog × Chart))
      (hresult : (Effect.ofExcept c result).answer = .failed error) : (Effect.ofExcept c result).catalog = c := by
    cases result with
    | ok out => cases hresult
    | error e => rfl
  rcases hop with rfl | rfl
  · exact hkept _ h
  · exact hkept _ h

/-- Whatever is done to a catalog that began empty, its charts have ids of their own, the settings of the catalog,
and the priorities in sequence that go with their places, up to the last one. No chart is taken away or moved; the
one that is replaced is new in the same place, and a declaration that is refused changes nothing. -/
theorem charts_keep_places (c : Catalog) (hcharts : c.charts = []) (hnext : c.nextPriority ≤ lastPriority)
    (ops : List Operation) :
    let reached := (c.run ops).catalog
    reached.ids.Nodup ∧ reached.settings = c.settings ∧
      (∀ (i : Nat) (chart : Chart), reached.charts[i]? = some chart →
        chart.settings = c.settings ∧ chart.priority = min (c.nextPriority + i) lastPriority) ∧
      (∀ more, reached.ids <+: (c.run (ops ++ more)).catalog.ids) ∧
      (∀ params chart, (reached.apply (.replaceChart params)).answer = .chart chart →
        reached.contains chart.id = true →
        chart.state = .pending ∧ chart.missed = 0 ∧ chart.dimensions = [] ∧ chart.vars = [] ∧
          ∃ i held, reached.charts[i]? = some held ∧ held.id = chart.id ∧
            (reached.apply (.replaceChart params)).catalog =
              { reached with charts := reached.charts.set i chart }) ∧
      ∀ params op, op = .addChart params ∨ op = .replaceChart params →
        ∀ error, (reached.apply op).answer = .failed error → (reached.apply op).catalog = reached := by
  intro reached
  have hempty := coherent_empty hcharts
  have hcoherent : reached.Coherent := hempty.run ops
  obtain ⟨hsettings, -, hplaced⟩ := (edits_run hempty ops).keep (placed_empty hcharts hnext)
  refine ⟨hcoherent.nodup, hsettings, fun i chart hchart => ?_, fun more => ?_,
    fun params chart hanswer hknown => ?_, fun params op hop error herror => apply_refused hop herror⟩
  · rw [← hsettings]
    exact hplaced.charts i chart hchart
  · rw [run_append]
    exact ((edits_run hcoherent more).keep hplaced).2.1
  · cases hreplace : reached.replaceChart params with
    | error e =>
      rw [apply, hreplace] at hanswer
      cases hanswer
    | ok out =>
      obtain ⟨changed, declared⟩ := out
      rw [apply, hreplace] at hanswer ⊢
      cases hanswer
      obtain ⟨i, held, hi, hid, -, -, hset, hfresh⟩ := replaceChart_place hcoherent hreplace hknown
      exact ⟨hfresh.1, hfresh.2.1, hfresh.2.2.1, hfresh.2.2.2, i, held, hi, hid.symm, hset⟩

/-- Parameters of a chart, as short as they may be. -/
def minimal (id : String) : Json :=
  .array [.string id, .null, .null, .null, .null, .null]

/-- Three charts, one of which is updated, and a chart that is refused for its id. -/
def crowd : List Operation :=
  [.addChart (minimal "a"), .addChart (minimal "b"), .onChart "b" (.addDimension (.array [.string "in"])),
    .update ⟨[("in", .integer 1)]⟩ 0 0, .addChart (minimal "c"), .addChart (minimal "a")]

/-- The third chart shares the last priority with the second one, which is replaced in its place. -/
theorem charts_keep_places_crowd :
    let c : Catalog := { Catalog.ofJob "web" with nextPriority := 4294967294 }
    c.charts = [] ∧ c.nextPriority ≤ lastPriority ∧
      (c.run crowd).catalog.charts.map (fun chart => (chart.id, chart.priority, chart.dimensions.length)) =
        [("a", 4294967294, 0), ("b", 4294967295, 1), ("c", 4294967295, 0)] ∧
      ∃ chart, ((c.run crowd).catalog.apply (.replaceChart (minimal "b"))).answer = .chart chart ∧
        (c.run crowd).catalog.contains chart.id = true ∧
        chart.state = .pending ∧ chart.missed = 0 ∧ chart.dimensions = [] ∧
        ∃ i held, (c.run crowd).catalog.charts[i]? = some held ∧ held.id = chart.id ∧
          ((c.run crowd).catalog.apply (.replaceChart (minimal "b"))).catalog =
            { (c.run crowd).catalog with charts := (c.run crowd).catalog.charts.set i chart } := by
  intro c
  have hnext : c.nextPriority ≤ lastPriority := by decide
  have hknown : (c.run crowd).catalog.contains "b" = true := by decide +kernel
  have hreplaced : ((c.run crowd).catalog.replaceChart (minimal "b")).toOption.map (·.2.id) = some "b" := by
    decide +kernel
  obtain ⟨-, -, -, -, hplace, -⟩ := charts_keep_places c rfl hnext crowd
  refine ⟨rfl, hnext, by decide +kernel, ?_⟩
  cases hresult : (c.run crowd).catalog.replaceChart (minimal "b") with
  | error e =>
    rw [hresult] at hreplaced
    cases hreplaced
  | ok out =>
    rw [hresult] at hreplaced
    have hid : out.2.id = "b" := Option.some.inj hreplaced
    have hanswer : ((c.run crowd).catalog.apply (.replaceChart (minimal "b"))).answer = .chart out.2 := by
      rw [apply, hresult]
      rfl
    obtain ⟨hstate, hmissed, hdimensions, -, hset⟩ := hplace _ _ hanswer (hid ▸ hknown)
    exact ⟨out.2, hanswer, hid ▸ hknown, hstate, hmissed, hdimensions, hset⟩

end Catalog

end ChartStream
