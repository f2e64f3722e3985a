import ChartStream.Proofs.WireIds

/-!
# The interval of a catalog

Whatever is done to a catalog, its charts are announced with its interval, and the lines that wait take charts
back (`Catalog.Uniform.run`).
-/

namespace ChartStream.Catalog

set_option autoImplicit false

/-- The catalog and all its charts have the interval `every`, and the announcements that wait take charts of this
interval back. -/
structure Uniform (every : Nat) (c : Catalog) : Prop where
  own : c.updateEvery = every
  charts : ∀ chart ∈ c.charts, chart.updateEvery = every
  pending : ∀ line ∈ c.pending, ∃ a : Announcement, line = .chart a ∧ a.obsolete = true ∧ a.updateEvery = every

variable {every : Nat} {c : Catalog}

theorem uniform_empty (hcharts : c.charts = []) (hpending : c.pending = []) : c.Uniform c.updateEvery := by
  refine ⟨rfl, ?_, ?_⟩
  · simp [hcharts]
  · simp [hpending]

theorem updateEvery_build {params : Json} {chart : Chart} (h : c.build params = .ok chart) :
    chart.updateEvery = c.updateEvery := by
  unfold build at h
  obtain ⟨p, -, h⟩ := ok_of_bind h
  obtain ⟨raw, -, h⟩ := ok_of_bind h
  cases h
  rfl

namespace Uniform

theorem push (h : c.Uniform every) {chart : Chart} (hchart : chart.updateEvery = every) :
    (c.push chart).Uniform every := by
  refine ⟨h.own, fun other hother => ?_, h.pending⟩
  rcases List.mem_append.mp hother with hother | hother
  · exact h.charts other hother
  · cases List.mem_singleton.mp hother
    exact hchart

theorem put (h : c.Uniform every) {chart : Chart} (hchart : chart.updateEvery = every) :
    (c.put chart).Uniform every := by
  refine ⟨h.own, fun other hother => ?_, h.pending⟩
  rcases mem_put hother with rfl | ⟨hother, -⟩
  · exact hchart
  · exact h.charts other hother

/-! ## Declarations -/

theorem addChart (h : c.Uniform every) {params : Json} {changed : Catalog} {chart : Chart}
    (hadd : c.addChart params = .ok (changed, chart)) : changed.Uniform every ∧ chart.updateEvery = every := by
  obtain ⟨raw, hraw, -, rfl, rfl⟩ := addChart_cases hadd
  have hevery : raw.updateEvery = every := (updateEvery_build hraw).trans h.own
  exact ⟨h.push hevery, hevery⟩

theorem replaceChart (h : c.Uniform every) {params : Json} {changed : Catalog} {chart : Chart}
    (hreplace : c.replaceChart params = .ok (changed, chart)) : changed.Uniform every := by
  rcases replaceChart_cases hreplace with ⟨raw, held, hraw, hget, rfl, rfl⟩ | hadd
  · exact h.put ((updateEvery_build hraw).trans h.own)
  · exact (h.addChart hadd).1

theorem createChart (h : c.Uniform every) (id : String) (entry : Layout.Entry) :
    (c.createChart id entry).1.Uniform every := by
  rcases c.createChart_cases id entry with heq | ⟨params, raw, hraw, -, heq⟩ <;> rw [heq]
  · exact h
  · have hfilled := (filledFrom_fill { raw with priority := c.nextPriority } entry).header
    exact h.push ((congrArg ChartHeader.updateEvery hfilled).trans ((updateEvery_build hraw).trans h.own))

theorem createAll (h : c.Uniform every) (layout : Layout) (ids : List String) :
    (c.createAll layout ids).1.Uniform every :=
  createAll_induction layout (fun _ id entry hreached => hreached.createChart id entry) h ids

/-! ## Operations -/

theorem obsoleteChart (h : c.Uniform every) (id : String) : (c.obsoleteChart id).1.Uniform every := by
  rcases c.obsoleteChart_cases id with heq | ⟨held, hheld, -, heq⟩ <;> rw [heq]
  · exact h
  · have hevery : held.obsolete.updateEvery = every := by rw [held.header_obsolete, h.charts held hheld]
    have hput := h.put hevery
    refine ⟨hput.own, hput.charts, fun line hline => ?_⟩
    rcases List.mem_append.mp hline with hline | hline
    · exact h.pending line hline
    · cases Chart.mem_obsoletion hline
      exact ⟨_, rfl, rfl, h.charts held hheld⟩

theorem update (h : c.Uniform every) (data : Samples) (sinceLast cleanup : Nat) :
    (c.update data sinceLast cleanup).catalog.Uniform every := by
  refine ⟨h.own, fun chart hchart => ?_, fun line hline => by cases hline⟩
  rw [charts_update] at hchart
  obtain ⟨held, hheld, rfl⟩ := List.mem_map.mp hchart
  rw [header_step]
  exact h.charts held hheld

theorem apply (h : c.Uniform every) (op : Operation) : (c.apply op).catalog.Uniform every := by
  cases op with
  | create layout =>
    have hcreate := h.createAll layout layout.order
    cases hall : c.createAll layout layout.order with
    | mk created error =>
      rw [hall] at hcreate
      simp only [Catalog.apply, create, hall]
      cases error <;> exact hcreate
  | addChart params =>
    cases hadd : c.addChart params with
    | error e =>
      simp only [Catalog.apply, hadd, Effect.ofExcept]
      exact h
    | ok out =>
      simp only [Catalog.apply, hadd, Effect.ofExcept]
      exact (h.addChart hadd).1
  | replaceChart params =>
    cases hreplace : c.replaceChart params with
    | error e =>
      simp only [Catalog.apply, hreplace, Effect.ofExcept]
      exact h
    | ok out =>
      simp only [Catalog.apply, hreplace, Effect.ofExcept]
      exact h.replaceChart hreplace
  | obsoleteChart id => exact h.obsoleteChart id
  | update data sinceLast cleanup => exact h.update data sinceLast cleanup
  | onChart id operation =>
    cases hget : c.get? id with
    | none =>
      simp only [Catalog.apply, hget]
      exact h
    | some held =>
      have hheld := h.charts held (get?_some hget).1
      simp only [Catalog.apply, hget]
      exact h.put ((congrArg ChartHeader.updateEvery (held.header_apply operation)).trans hheld)

theorem run (h : c.Uniform every) (ops : List Operation) : (c.run ops).catalog.Uniform every := by
  induction ops generalizing c with
  | nil => exact h
  | cons op rest ih => exact ih (h.apply op)

end Uniform

end ChartStream.Catalog
