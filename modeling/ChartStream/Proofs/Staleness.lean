import ChartStream.Proofs.ChartMarks
import ChartStream.Proofs.DeclaredLines

/-!
# Charts without values

When a chart that gets no values is given up. Main definition: `Catalog.marksOf`, which tells what a run does to a
chart. Main result: `Catalog.stale_charts_given_up`.
-/

namespace ChartStream

set_option autoImplicit false

open Mark

/-! ## Charts of a catalog -/

namespace Catalog

/-- What the operation does to the chart of the id. -/
def marks (c : Catalog) (id : String) (op : Operation) : List Mark :=
  match c.get? id with
  | none => if (c.apply op).catalog.contains id then [.built] else []
  | some chart =>
    match op with
    | .replaceChart _ => if (c.apply op).answer.builds id then [.built] else []
    | .obsoleteChart other => if other = id ∧ (c.apply op).answer.isSuccess = true then [.givenUp] else []
    | .update data _ _ =>
      (if .declaration chart.fullId ∈ (c.apply op).lines.filterMap Line.opens? then [.declared] else [])
        ++ [if chart.Matches data then .renewed else .missed]
    | .onChart other change =>
      if other = id ∧ change.renews = true ∧ (c.apply op).answer.isSuccess = true then [.renewed] else []
    | _ => []

/-- What a run does to the chart of the id. -/
def marksOf (c : Catalog) (id : String) : List Operation → List Mark
  | [] => []
  | op :: rest => c.marks id op ++ (c.apply op).catalog.marksOf id rest

/-- The operation is no cycle that gives charts up after another number of cycles. -/
def Operation.cleansUpAfter (cleanup : Nat) : Operation → Bool
  | .update _ _ cycles => cycles = cleanup
  | _ => true

/-- The state of each chart says what was done to it. -/
def Aged (cleanup : Nat) (past : String → List Mark) (c : Catalog) : Prop :=
  ∀ id chart, c.get? id = some chart → chart.Aged cleanup (past id)

variable {c : Catalog} {id : String}

theorem get?_put (c : Catalog) (chart : Chart) (id : String) :
    (c.put chart).get? id = (c.get? id).map fun held => if held.id = chart.id then chart else held := by
  have hids : ∀ held : Chart, (if held.id = chart.id then chart else held).id = held.id := by
    intro held
    split
    · next hid => exact hid.symm
    · rfl
  simp only [get?, put, List.find?_map, Function.comp_def, hids]

theorem get?_update (c : Catalog) (data : Samples) (sinceLast cleanup : Nat) (id : String) :
    (c.update data sinceLast cleanup).catalog.get? id =
      (c.get? id).map fun held => (step data sinceLast cleanup held).chart := by
  have hids : ∀ held : Chart, (step data sinceLast cleanup held).chart.id = held.id := fun held =>
    congrArg ChartHeader.id (header_step data sinceLast cleanup held)
  simp only [get?, charts_update, List.find?_map, Function.comp_def, hids]

theorem get?_of_mem (hc : c.Coherent) {chart : Chart} (hchart : chart ∈ c.charts) :
    c.get? chart.id = some chart := by
  have hfound : (c.get? chart.id).isSome := by
    rw [get?, List.find?_isSome]
    exact ⟨chart, hchart, by simp⟩
  obtain ⟨held, hheld⟩ := Option.isSome_iff_exists.mp hfound
  obtain ⟨hmem, hid⟩ := get?_some hheld
  rw [hheld, List.inj_on_of_nodup_map hc.nodup hmem hchart hid]

/-! ## Charts that are built -/

theorem fresh_build {params : Json} {chart : Chart} (h : c.build params = .ok chart) : chart.Fresh := by
  unfold build at h
  obtain ⟨p, -, h⟩ := ok_of_bind h
  obtain ⟨raw, hraw, h⟩ := ok_of_bind h
  cases h
  obtain ⟨q, style, hidden, -, rfl⟩ := Chart.ofParameters_eq hraw
  exact ⟨rfl, rfl⟩

/-- The operation adds charts that are fresh, and the others stay as they are. -/
def Extends (c changed : Catalog) : Prop :=
  ∃ more, changed.charts = c.charts ++ more ∧ ∀ chart ∈ more, chart.Fresh

theorem extends_refl (c : Catalog) : c.Extends c :=
  ⟨[], (List.append_nil _).symm, fun _ h => by cases h⟩

theorem Extends.trans {middle last : Catalog} (h : c.Extends middle) (hlast : middle.Extends last) :
    c.Extends last := by
  obtain ⟨first, hfirst, hfresh⟩ := h
  obtain ⟨more, hmore, hmoreFresh⟩ := hlast
  refine ⟨first ++ more, by rw [hmore, hfirst, List.append_assoc], fun chart hchart => ?_⟩
  rcases List.mem_append.mp hchart with hchart | hchart
  · exact hfresh chart hchart
  · exact hmoreFresh chart hchart

theorem extends_push (c : Catalog) {chart : Chart} (h : chart.Fresh) : c.Extends (c.push chart) := by
  refine ⟨[{ chart with priority := c.nextPriority }], rfl, fun other hother => ?_⟩
  cases List.mem_singleton.mp hother
  exact h

theorem extends_addChart {changed : Catalog} {params : Json} {chart : Chart}
    (h : c.addChart params = .ok (changed, chart)) : c.Extends changed := by
  obtain ⟨raw, hraw, -, rfl, -⟩ := addChart_cases h
  exact c.extends_push (fresh_build hraw)

theorem extends_createChart (c : Catalog) (id : String) (entry : Layout.Entry) :
    c.Extends (c.createChart id entry).1 := by
  rcases c.createChart_cases id entry with heq | ⟨params, raw, hraw, -, heq⟩ <;> rw [heq]
  · exact c.extends_refl
  · have hbuilt := fresh_build hraw
    have hstart : ({ raw with priority := c.nextPriority } : Chart).Fresh := ⟨hbuilt.1, hbuilt.2⟩
    have hfilled := changed_fill { raw with priority := c.nextPriority } entry
    refine c.extends_push ?_
    generalize (fill { raw with priority := c.nextPriority } entry).1 = filled at hfilled ⊢
    induction hfilled with
    | refl => exact hstart
    | tail _ hchanged ih => exact ih.changed hchanged

theorem extends_createAll (c : Catalog) (layout : Layout) (ids : List String) :
    c.Extends (c.createAll layout ids).1 :=
  createAll_induction layout (fun reached id entry h => h.trans (reached.extends_createChart id entry))
    c.extends_refl ids

/-! ## What an operation does to the charts -/

variable {cleanup : Nat} {past : String → List Mark}

theorem Aged.extends (h : c.Aged cleanup past) {op : Operation} (hextends : c.Extends (c.apply op).catalog)
    (hmarks : ∀ id, (c.get? id).isSome → c.marks id op = []) :
    (c.apply op).catalog.Aged cleanup fun id => past id ++ c.marks id op := by
  obtain ⟨more, hcharts, hfresh⟩ := hextends
  intro id chart hget
  show chart.Aged cleanup (past id ++ c.marks id op)
  have hfound : (c.apply op).catalog.get? id = (c.get? id).or (more.find? fun held => held.id = id) := by
    rw [get?, hcharts, List.find?_append]
    rfl
  rw [hfound] at hget
  cases hheld : c.get? id with
  | some held =>
    rw [hheld, Option.some_or] at hget
    cases hget
    rw [hmarks id (by rw [hheld]; rfl), List.append_nil]
    exact h id chart hheld
  | none =>
    rw [hheld, Option.none_or] at hget
    have hcontains : (c.apply op).catalog.contains id = true := by
      rw [contains, hfound, hheld, Option.none_or, hget]
      rfl
    have hbuilt : c.marks id op = [.built] := by simp only [marks, hheld, hcontains, if_true]
    rw [hbuilt]
    exact (hfresh chart (List.mem_of_find?_eq_some hget)).aged

/-- The charts are as they were, and the operation leaves no marks. -/
theorem Aged.keep (h : c.Aged cleanup past) {op : Operation} (hcharts : (c.apply op).catalog.charts = c.charts)
    (hmarks : ∀ id, (c.get? id).isSome → c.marks id op = []) :
    (c.apply op).catalog.Aged cleanup fun id => past id ++ c.marks id op :=
  h.extends ⟨[], by rw [hcharts, List.append_nil], fun _ hmem => by cases hmem⟩ hmarks

/-- One chart is put in the place of another one, and only this one has marks. -/
theorem Aged.put (h : c.Aged cleanup past) {op : Operation} {held chart : Chart}
    (hheld : c.get? chart.id = some held) (hcharts : (c.apply op).catalog.charts = (c.put chart).charts)
    (hmarks : ∀ id, (c.get? id).isSome → id ≠ chart.id → c.marks id op = [])
    (hchart : held.Aged cleanup (past chart.id) → chart.Aged cleanup (past chart.id ++ c.marks chart.id op)) :
    (c.apply op).catalog.Aged cleanup fun id => past id ++ c.marks id op := by
  intro id other hget
  have hput : (c.apply op).catalog.get? id = (c.put chart).get? id := by rw [get?, hcharts]; rfl
  rw [hput, get?_put] at hget
  obtain ⟨before, hbefore, rfl⟩ := Option.map_eq_some_iff.mp hget
  show Chart.Aged cleanup (past id ++ c.marks id op) _
  have hid := (get?_some hbefore).2
  by_cases hsame : id = chart.id
  · subst hsame
    rw [if_pos hid]
    exact hchart (h _ held hheld)
  · rw [if_neg (by rw [hid]; exact hsame), hmarks id (by rw [hbefore]; rfl) hsame, List.append_nil]
    exact h id before hbefore

theorem marks_of_get? {op : Operation} {chart : Chart} (h : c.get? id = some chart) :
    c.marks id op = match op with
      | .replaceChart _ => if (c.apply op).answer.builds id then [.built] else []
      | .obsoleteChart other => if other = id ∧ (c.apply op).answer.isSuccess = true then [.givenUp] else []
      | .update data _ _ =>
        (if .declaration chart.fullId ∈ (c.apply op).lines.filterMap Line.opens? then [.declared] else [])
          ++ [if chart.Matches data then .renewed else .missed]
      | .onChart other change =>
        if other = id ∧ change.renews = true ∧ (c.apply op).answer.isSuccess = true then [.renewed] else []
      | _ => [] := by
  simp only [marks, h]

theorem Aged.create (h : c.Aged cleanup past) (layout : Layout) :
    (c.apply (.create layout)).catalog.Aged cleanup fun id => past id ++ c.marks id (.create layout) := by
  refine h.extends ?_ fun id hid => ?_
  · have hcreate := c.extends_createAll layout layout.order
    cases hall : c.createAll layout layout.order with
    | mk created error =>
      rw [hall] at hcreate
      simp only [apply, Catalog.create, hall]
      cases error <;> exact hcreate
  · obtain ⟨chart, hget⟩ := Option.isSome_iff_exists.mp hid
    rw [marks_of_get? hget]

theorem Aged.addChart (h : c.Aged cleanup past) (params : Json) :
    (c.apply (.addChart params)).catalog.Aged cleanup fun id => past id ++ c.marks id (.addChart params) := by
  refine h.extends ?_ fun id hid => ?_
  · cases hadd : c.addChart params with
    | error e =>
      simp only [apply, hadd, Effect.ofExcept]
      exact c.extends_refl
    | ok out =>
      simp only [apply, hadd, Effect.ofExcept]
      exact extends_addChart hadd
  · obtain ⟨chart, hget⟩ := Option.isSome_iff_exists.mp hid
    rw [marks_of_get? hget]

theorem Aged.replaceChart (h : c.Aged cleanup past) (params : Json) :
    (c.apply (.replaceChart params)).catalog.Aged cleanup fun id => past id ++ c.marks id (.replaceChart params) := by
  cases hreplace : c.replaceChart params with
  | error e =>
    have heffect : c.apply (.replaceChart params) = ⟨c, [], .failed e⟩ := by
      simp only [apply, hreplace, Effect.ofExcept]
    refine h.keep (by rw [heffect]) fun id hid => ?_
    obtain ⟨chart, hget⟩ := Option.isSome_iff_exists.mp hid
    simp [marks_of_get? hget, heffect, Answer.builds]
  | ok out =>
    obtain ⟨changed, fresh⟩ := out
    have heffect : c.apply (.replaceChart params) = ⟨changed, [], .chart fresh⟩ := by
      simp only [apply, hreplace, Effect.ofExcept]
    have hmarks : ∀ id, (c.get? id).isSome → c.marks id (.replaceChart params) =
        if fresh.id = id then [.built] else [] := by
      intro id hid
      obtain ⟨chart, hget⟩ := Option.isSome_iff_exists.mp hid
      simp [marks_of_get? hget, heffect, Answer.builds]
    rcases replaceChart_cases hreplace with ⟨raw, held, hraw, hget, rfl, hfresh⟩ | hadd
    · have hbuilt := fresh_build hraw
      have hheld : c.get? fresh.id = some held := by rw [hfresh]; exact hget
      refine h.put hheld (by rw [heffect]) (fun id hid hne => ?_) fun _ => ?_
      · rw [hmarks id hid, if_neg (Ne.symm hne)]
      · rw [hmarks _ (by rw [hheld]; rfl), if_pos rfl]
        exact Chart.Fresh.aged (hfresh ▸ ⟨hbuilt.1, hbuilt.2⟩)
    · obtain ⟨raw, hraw, hnew, rfl, rfl⟩ := addChart_cases hadd
      refine h.extends (by rw [heffect]; exact c.extends_push (fresh_build hraw)) fun id hid => ?_
      rw [hmarks id hid, if_neg]
      rintro rfl
      rw [contains] at hnew
      rw [hnew] at hid
      cases hid

theorem Aged.obsoleteChart (h : c.Aged cleanup past) (id : String) :
    (c.apply (.obsoleteChart id)).catalog.Aged cleanup
      fun other => past other ++ c.marks other (.obsoleteChart id) := by
  have hothers : ∀ other, (c.get? other).isSome → other ≠ id → c.marks other (.obsoleteChart id) = [] := by
    intro other hother hne
    obtain ⟨chart, hget⟩ := Option.isSome_iff_exists.mp hother
    simp [marks_of_get? hget, Ne.symm hne]
  have hfails : c.obsoleteChart id = (c, false) → (c.apply (.obsoleteChart id)).catalog.Aged cleanup
      fun other => past other ++ c.marks other (.obsoleteChart id) := by
    intro heq
    refine h.keep (by simp only [apply, heq]) fun other hother => ?_
    obtain ⟨chart, hget⟩ := Option.isSome_iff_exists.mp hother
    simp [marks_of_get? hget, apply, heq, Answer.isSuccess]
  cases hget : c.get? id with
  | none => exact hfails (by simp only [Catalog.obsoleteChart, hget])
  | some held =>
    have hid := (get?_some hget).2
    cases hobsolete : held.isObsolete with
    | true => exact hfails (by simp only [Catalog.obsoleteChart, hget, hobsolete, if_true])
    | false =>
      have heq : c.obsoleteChart id =
          ({ c.put held.obsolete with pending := c.pending ++ held.obsoletion }, true) := by
        simp [Catalog.obsoleteChart, hget, hobsolete]
      have hsame : held.obsolete.id = id := by rw [held.header_obsolete, hid]
      refine h.put (hsame ▸ hget) (by simp only [apply, heq]) (fun other hother hne => ?_) fun haged => ?_
      · exact hothers other hother (hsame ▸ hne)
      · have hmarks : c.marks held.obsolete.id (.obsoleteChart id) = [.givenUp] := by
          rw [hsame]
          simp [marks_of_get? hget, apply, heq, Answer.isSuccess]
        rw [hmarks]
        exact haged.obsolete hobsolete

theorem Aged.onChart (h : c.Aged cleanup past) (id : String) {change : Chart.Operation}
    (hchange : change.isTopology = true) :
    (c.apply (.onChart id change)).catalog.Aged cleanup
      fun other => past other ++ c.marks other (.onChart id change) := by
  have hothers : ∀ other, (c.get? other).isSome → other ≠ id → c.marks other (.onChart id change) = [] := by
    intro other hother hne
    obtain ⟨chart, hget⟩ := Option.isSome_iff_exists.mp hother
    simp [marks_of_get? hget, Ne.symm hne]
  cases hget : c.get? id with
  | none =>
    refine h.keep (by simp only [apply, hget]) fun other hother => hothers other hother ?_
    rintro rfl
    rw [hget] at hother
    cases hother
  | some held =>
    have hid := (get?_some hget).2
    have hsame : (held.apply change).chart.id = id := by rw [held.header_apply, hid]
    have hmarks : c.marks id (.onChart id change) =
        if change.renews = true ∧ (held.apply change).answer.isSuccess = true then [.renewed] else [] := by
      simp [marks_of_get? hget, apply, hget]
    refine h.put (hsame ▸ hget) (by simp only [apply, hget]) (fun other hother hne => ?_) fun haged => ?_
    · exact hothers other hother (hsame ▸ hne)
    · rw [hsame] at haged ⊢
      rw [hmarks]
      cases hrenews : change.renews with
      | true =>
        rcases held.renewsOrFails_apply hrenews with ⟨hsuccess, dimensions, hchart⟩ | ⟨hfailed, hchart⟩
        · rw [hsuccess, if_pos ⟨rfl, rfl⟩, hchart]
          exact haged.refresh dimensions
        · rw [hfailed, if_neg (by simp), List.append_nil, hchart]
          exact haged
      | false =>
        rw [if_neg (by simp), List.append_nil]
        cases change with
        | addVariable params =>
          rcases held.apply_addVariable params with hchart | ⟨v, -, hchart⟩ <;> rw [hchart]
          · exact haged
          · exact haged.vars _
        | declare => cases hchange
        | obsolete => cases hchange
        | update data sinceLast => cases hchange
        | _ => cases hrenews

/-! ## Cycles -/

section Cycles

variable {every : Nat} (data : Samples) (sinceLast : Nat)

theorem eq_of_fullId (hc : c.Coherent) {chart other : Chart} (hchart : chart ∈ c.charts) (hother : other ∈ c.charts)
    (hid : other.fullId = chart.fullId) : other = chart :=
  List.inj_on_of_nodup_map (fullIds_nodup hc) hother hchart hid

/-- A cycle declares the charts that have values and a declaration due. -/
theorem declares_update_iff (cleanup : Nat) (hc : c.Coherent) (hu : c.Uniform every) {chart : Chart}
    (hchart : chart ∈ c.charts) :
    .declaration chart.fullId ∈ (c.update data sinceLast cleanup).lines.filterMap Line.opens? ↔
      chart.accepts data = true ∧ chart.revived.state.push = true := by
  rw [opens_cycle data sinceLast cleanup hu, List.mem_flatMap]
  constructor
  · rintro ⟨other, hother, hopens⟩
    obtain ⟨hmem, haccepts⟩ := List.mem_filter.mp hother
    have hboth : other.revived.state.push = true ∧ other.fullId = chart.fullId := by
      unfold Chart.openings at hopens
      split at hopens
      · next hpush => exact ⟨hpush, by simpa [eq_comm] using hopens⟩
      · simp at hopens
    rw [← eq_of_fullId hc hchart hmem hboth.2]
    exact ⟨haccepts, hboth.1⟩
  · rintro ⟨haccepts, hpush⟩
    refine ⟨chart, List.mem_filter.mpr ⟨hchart, haccepts⟩, ?_⟩
    simp [Chart.openings, hpush]

theorem Aged.update (h : c.Aged cleanup past) (hc : c.Coherent) (hu : c.Uniform every) :
    (c.apply (.update data sinceLast cleanup)).catalog.Aged cleanup
      fun id => past id ++ c.marks id (.update data sinceLast cleanup) := by
  intro id chart hget
  show chart.Aged cleanup (past id ++ c.marks id (.update data sinceLast cleanup))
  have hupdated : (c.update data sinceLast cleanup).catalog.get? id = some chart := hget
  rw [get?_update] at hupdated
  obtain ⟨held, hheld, rfl⟩ := Option.map_eq_some_iff.mp hupdated
  have haged := h id held hheld
  have hdeclares := declares_update_iff data sinceLast cleanup hc hu (get?_some hheld).1
  rw [marks_of_get? hheld]
  simp only [apply, hdeclares, held.matches_iff]
  cases haccepts : held.accepts data with
  | true =>
    rw [step_of_accepts sinceLast cleanup haccepts, ← List.append_assoc]
    exact Chart.aged_update_of_accepts haged haccepts sinceLast (by simp)
  | false =>
    simpa using Chart.aged_step_of_not_accepts haged haccepts sinceLast

end Cycles

/-! ## Runs -/

theorem Aged.apply {every : Nat} (h : c.Aged cleanup past) (hc : c.Coherent) (hu : c.Uniform every) {op : Operation}
    (hop : op.isRegular = true) (hcleanup : op.cleansUpAfter cleanup = true) :
    (c.apply op).catalog.Aged cleanup fun id => past id ++ c.marks id op := by
  cases op with
  | create layout => exact h.create layout
  | addChart params => exact h.addChart params
  | replaceChart params => exact h.replaceChart params
  | obsoleteChart id => exact h.obsoleteChart id
  | update data sinceLast cycles =>
    have hsame : cycles = cleanup := by simpa [Operation.cleansUpAfter] using hcleanup
    subst hsame
    exact h.update data sinceLast hc hu
  | onChart id change => exact h.onChart id hop

theorem Aged.run {every : Nat} (h : c.Aged cleanup past) (hc : c.Coherent) (hu : c.Uniform every)
    (ops : List Operation) (hops : ∀ op ∈ ops, op.isRegular = true ∧ op.cleansUpAfter cleanup = true) :
    (c.run ops).catalog.Aged cleanup fun id => past id ++ c.marksOf id ops := by
  induction ops generalizing c past with
  | nil => simpa [marksOf, Catalog.run] using h
  | cons op rest ih =>
    obtain ⟨hregular, hcleanup⟩ := hops op List.mem_cons_self
    have hstep := h.apply hc hu hregular hcleanup
    have hend := ih hstep (hc.apply op) (hu.apply op) fun other hother => hops other (List.mem_cons_of_mem op hother)
    simpa [marksOf, Catalog.run, List.append_assoc] using hend

/-! ## Charts that are given up -/

theorem takesBack_linesOf (data : Samples) (sinceLast cleanup : Nat) (charts : List Chart) :
    (linesOf data sinceLast cleanup charts).filterMap Line.takesBack? =
      (charts.filter fun chart => chart.FallsDue cleanup data ∧ chart.state.isCreated = true).map Chart.fullId := by
  induction charts with
  | nil => rfl
  | cons chart rest ih =>
    rw [linesOf, List.flatMap_cons, List.filterMap_append, takesBack_step, ← linesOf, ih, List.filter_cons]
    by_cases hdue : chart.FallsDue cleanup data ∧ chart.state.isCreated = true <;> simp [hdue]

theorem count_takesBack (hc : c.Coherent) (data : Samples) (sinceLast cleanup : Nat) {chart : Chart}
    (hchart : chart ∈ c.charts) :
    ((linesOf data sinceLast cleanup c.charts).filterMap Line.takesBack?).count chart.fullId =
      if chart.FallsDue cleanup data ∧ chart.state.isCreated = true then 1 else 0 := by
  rw [takesBack_linesOf]
  have hnodup := (fullIds_nodup hc).sublist ((List.filter_sublist
    (p := fun chart : Chart => chart.FallsDue cleanup data ∧ chart.state.isCreated = true)).map Chart.fullId)
  rw [List.Nodup.count hnodup]
  refine if_congr ?_ rfl rfl
  rw [List.mem_map]
  constructor
  · rintro ⟨other, hother, hid⟩
    obtain ⟨hmem, hdue⟩ := List.mem_filter.mp hother
    rw [← eq_of_fullId hc hchart hmem hid]
    simpa using hdue
  · exact fun hdue => ⟨chart, List.mem_filter.mpr ⟨hchart, by simpa using hdue⟩, rfl⟩

/-- If all cycles of a run give charts up after the same number of cycles, a chart is given up exactly when, since
it counts as fresh, it was asked for or the chart missed that many cycles. So a chart that is not given up has
missed fewer. A chart that was declared since it was built is taken back, once, by the cycle that makes it so many;
if the number is zero, by none. -/
theorem stale_charts_given_up (c : Catalog) (hcharts : c.charts = []) (hpending : c.pending = []) (cleanup : Nat)
    (ops : List Operation) (hops : ∀ op ∈ ops, op.isRegular = true ∧ op.cleansUpAfter cleanup = true) :
    ∀ chart ∈ (c.run ops).catalog.charts, ∀ marks, marks = c.marksOf chart.id ops →
      (chart.isObsolete = true ↔
        .givenUp ∈ sinceRenewal marks ∨ 1 ≤ cleanup ∧ cleanup ≤ (sinceRenewal marks).count .missed) ∧
      (1 ≤ cleanup → chart.isObsolete = false → chart.missed < cleanup) ∧
      ∀ (data : Samples) (sinceLast : Nat),
        ((c.run ops).catalog.update data sinceLast cleanup).lines =
          (c.run ops).catalog.pending ++ linesOf data sinceLast cleanup (c.run ops).catalog.charts ∧
        ((linesOf data sinceLast cleanup (c.run ops).catalog.charts).filterMap Line.takesBack?).count chart.fullId =
          if .declared ∈ sinceBuilt marks ∧ .givenUp ∉ sinceRenewal marks ∧ ¬ chart.Matches data ∧
            (sinceRenewal marks).count .missed + 1 = cleanup then 1 else 0 := by
  rintro chart hchart marks rfl
  have hnone : c.Aged cleanup fun _ => [] := fun id held hget => by simp [get?, hcharts] at hget
  have hcoherent := (coherent_empty hcharts).run ops
  have hreached := hnone.run (coherent_empty hcharts) (uniform_empty hcharts hpending) ops hops
  have haged : chart.Aged cleanup (c.marksOf chart.id ops) := hreached chart.id chart (get?_of_mem hcoherent hchart)
  refine ⟨haged.givenUp, fun hpos hlive => ?_, fun data sinceLast => ⟨lines_update data sinceLast cleanup _, ?_⟩⟩
  · have hmissed := haged.missed hlive
    have hstays := mt haged.givenUp.mpr (by simp [hlive])
    rw [not_or] at hstays
    omega
  · rw [count_takesBack hcoherent data sinceLast cleanup hchart]
    refine if_congr ?_ rfl rfl
    rw [haged.fallsDue_iff, haged.created]
    tauto

/-- Two charts stop being updated, and the dimension of one is hidden on the way. -/
def idleness : List Operation :=
  [.addChart (.array [.string "net", .null, .string "Traffic", .string "kb", .string "net",
      .string "net.traffic"]),
    .addChart (.array [.string "disk", .null, .string "Reads", .string "ops", .string "disk",
      .string "disk.reads"]),
    .onChart "net" (.insertDimension (.ofId "in")),
    .onChart "disk" (.insertDimension (.ofId "reads")),
    .update ⟨[("in", .integer 3), ("reads", .integer 8)]⟩ 0 2,
    .update ⟨[]⟩ 1 2,
    .onChart "net" (.hideDimension "in" true),
    .update ⟨[]⟩ 1 2]

theorem stale_charts_given_up_idleness :
    (∀ op ∈ idleness, op.isRegular = true ∧ op.cleansUpAfter 2 = true) ∧
    ((Catalog.ofJob "job").run idleness).catalog.charts.map Chart.isObsolete = [false, true] ∧
    (sinceRenewal ((Catalog.ofJob "job").marksOf "net" idleness) = [.missed] ∧
      sinceRenewal ((Catalog.ofJob "job").marksOf "disk" idleness) = [.missed, .missed]) ∧
    ∀ chart ∈ ((Catalog.ofJob "job").run idleness).catalog.charts,
      ((linesOf ⟨[]⟩ 1 2 ((Catalog.ofJob "job").run idleness).catalog.charts).filterMap Line.takesBack?).count
        chart.fullId = if chart.id = "net" then 1 else 0 := by
  have hops : ∀ op ∈ idleness, op.isRegular = true ∧ op.cleansUpAfter 2 = true := by
    simp [idleness, Operation.isRegular, Operation.cleansUpAfter, Chart.Operation.isTopology]
  have hmarks : ∀ chart ∈ ((Catalog.ofJob "job").run idleness).catalog.charts,
      (.declared ∈ sinceBuilt ((Catalog.ofJob "job").marksOf chart.id idleness) ∧
        .givenUp ∉ sinceRenewal ((Catalog.ofJob "job").marksOf chart.id idleness) ∧ ¬ chart.Matches ⟨[]⟩ ∧
        (sinceRenewal ((Catalog.ofJob "job").marksOf chart.id idleness)).count .missed + 1 = 2) ↔
      chart.id = "net" := by decide +kernel
  refine ⟨hops, by decide +kernel, by decide +kernel, fun chart hchart => ?_⟩
  obtain ⟨-, -, hcycle⟩ :=
    stale_charts_given_up (Catalog.ofJob "job") rfl rfl 2 idleness hops chart hchart _ rfl
  exact (hcycle ⟨[]⟩ 1).2.trans (if_congr (hmarks chart hchart) rfl rfl)

end Catalog

end ChartStream
