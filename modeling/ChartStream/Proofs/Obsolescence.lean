import ChartStream.Proofs.CatalogStream

/-!
# Charts that were given up

A chart that was given up is taken back at the receiver, if the receiver was told of it. A catalog keeps to
this in every run, but for charts that were replaced: the new chart starts without knowing that the receiver
still has the old one (`obsolete_charts_taken_back`, `replaced_chart_left_live`).
-/

namespace ChartStream

set_option autoImplicit false

/-! ## The last announcement of a chart -/

namespace Line

/-- The announcement that the line makes of one chart. -/
def announces? (id : String) : Line → Option Announcement
  | .chart a => if a.fullId = id then some a else none
  | _ => none

/-- The announcements of one chart. -/
def announcementsOf (id : String) (lines : List Line) : List Announcement :=
  lines.filterMap (announces? id)

/-- The last announcement of one chart. -/
def lastAnnouncement? (id : String) (lines : List Line) : Option Announcement :=
  (announcementsOf id lines).getLast?

theorem announcementsOf_append (id : String) (first second : List Line) :
    announcementsOf id (first ++ second) = announcementsOf id first ++ announcementsOf id second :=
  List.filterMap_append

theorem announces?_eq_some {id : String} {line : Line} {a : Announcement} :
    line.announces? id = some a ↔ line = .chart a ∧ a.fullId = id := by
  cases line with
  | chart b =>
    rw [announces?, Option.ite_none_right_eq_some, Option.some.injEq, Line.chart.injEq]
    constructor
    · rintro ⟨hid, rfl⟩
      exact ⟨rfl, hid⟩
    · rintro ⟨rfl, hid⟩
      exact ⟨hid, rfl⟩
  | _ => simp [announces?]

theorem Within.announcementsOf_eq_nil {ids : List String} {lines : List Line} (h : Within ids lines)
    {id : String} (hid : id ∉ ids) : announcementsOf id lines = [] := by
  rw [announcementsOf, List.filterMap_eq_nil_iff]
  intro line hl
  cases hline : line.announces? id with
  | none => rfl
  | some a =>
    obtain ⟨rfl, hname⟩ := announces?_eq_some.mp hline
    exact absurd (h.named _ hl id (by rw [← hname]; rfl)) hid

end Line

/-- How a chart stands after an announcement. -/
def Standing.after (a : Announcement) : Standing :=
  if a.obsolete then .obsolete else .live

namespace Receiver

theorem standing_read (r : Receiver) (line : Line) (id : String) :
    ((r.read line).view id).standing =
      ((line.announces? id).map Standing.after).getD (r.view id).standing := by
  cases line with
  | chart a =>
    by_cases hid : a.fullId = id
    · subst hid
      cases hobsolete : a.obsolete <;>
        simp [read, Line.announces?, View.announced, Standing.after, hobsolete, change]
    · have hview : ((r.read (.chart a)).view id) = r.view id := view_change_of_ne r _ (Ne.symm hid)
      simp [hview, Line.announces?, hid]
  | dimension d =>
    cases hcurrent : r.current with
    | none => simp [read, hcurrent, Line.announces?]
    | some other =>
      by_cases hid : id = other <;> simp [read, hcurrent, Line.announces?, change, View.declared, hid]
  | groupStart other n => by_cases hid : id = other <;> simp [read, Line.announces?, change, View.begun, hid]
  | _ => rfl

/-- How a chart stands is what its last announcement says. -/
theorem standing_readAll (r : Receiver) (lines : List Line) (id : String) :
    ((r.readAll lines).view id).standing =
      ((Line.lastAnnouncement? id lines).map Standing.after).getD (r.view id).standing := by
  induction lines generalizing r with
  | nil => rfl
  | cons line rest ih =>
    rw [readAll_cons, ih, standing_read]
    cases hrest : Line.lastAnnouncement? id rest with
    | some a =>
      have hlast : Line.lastAnnouncement? id (line :: rest) = some a := by
        unfold Line.lastAnnouncement? at hrest ⊢
        rw [← List.singleton_append, Line.announcementsOf_append, List.getLast?_append, hrest]
        rfl
      rw [hlast]
      rfl
    | none =>
      have hlast : Line.lastAnnouncement? id (line :: rest) = line.announces? id := by
        unfold Line.lastAnnouncement? at hrest ⊢
        rw [← List.singleton_append, Line.announcementsOf_append, List.getLast?_append, hrest]
        cases hline : line.announces? id <;> simp [Line.announcementsOf, hline]
      rw [hlast]
      rfl

end Receiver

/-! ## One chart -/

namespace Chart

theorem State.isObsoleted_refreshed (s : State) : s.refreshed.isObsoleted = false := by
  cases s with
  | obsoleted known updated => cases known <;> rfl
  | _ => rfl

theorem State.isCreated_refreshed (s : State) : s.refreshed.isCreated = s.isCreated := by
  cases s with
  | obsoleted known updated => cases known <;> rfl
  | _ => rfl

/-- What the state of a chart says is true of the receiver: a chart that was declared and given up has been
taken back there, and one that was never declared is not live, unless it is `lost`. -/
structure Truthful (c : Chart) (v : View) (lost : Prop) : Prop where
  takenBack : c.isObsolete = true → c.state.isCreated = true → v.standing = .obsolete
  undeclared : c.state.isCreated = false → v.standing = .live → lost

variable {c : Chart} {v : View} {lost : Prop}

theorem Truthful.imp {lost' : Prop} (h : c.Truthful v lost) (hlost : lost → lost') : c.Truthful v lost' :=
  ⟨h.takenBack, fun hc hlive => hlost (h.undeclared hc hlive)⟩

/-- A chart that is given up and still live is lost. -/
theorem Truthful.lost_of_live (h : c.Truthful v lost) (hobsolete : c.isObsolete = true)
    (hlive : v.standing = .live) : lost := by
  cases hcreated : c.state.isCreated with
  | true =>
    have htaken := h.takenBack hobsolete hcreated
    rw [hlive] at htaken
    cases htaken
  | false => exact h.undeclared hcreated hlive

theorem Truthful.changed {changed : Chart} (h : c.Truthful v lost) (hc : c.Changed changed) :
    changed.Truthful v lost := by
  rcases hc with ⟨vars, rfl⟩ | ⟨dimensions, rfl, -⟩
  · exact ⟨h.takenBack, h.undeclared⟩
  · refine ⟨fun hobsolete => ?_, fun hcreated => h.undeclared ?_⟩
    · exact absurd hobsolete (by simp [isObsolete, refresh, State.isObsoleted_refreshed])
    · exact c.state.isCreated_refreshed.symm.trans hcreated

/-- A chart that is given up without having been declared has no announcement sent. -/
theorem Truthful.given_up {r : Receiver} (h : c.Truthful (r.view c.wireId) lost) :
    c.obsolete.Truthful ((r.readAll (c.obsoletion.map Line.onWire)).view c.wireId)
      (lost ∧ c.obsoletion = []) := by
  rw [view_obsoletion]
  cases hobsolete : c.isObsolete with
  | true =>
    have hnone : c.obsoletion = [] := if_pos hobsolete
    rw [if_neg (by simp), Chart.obsolete, if_pos hobsolete]
    exact h.imp fun hlost => ⟨hlost, hnone⟩
  | false =>
    have hcreated : c.obsolete.state.isCreated = c.state.isCreated := by
      rw [Chart.obsolete, if_neg (by simp [hobsolete])]
      rfl
    cases hknown : c.state.isCreated with
    | true =>
      rw [hknown] at hcreated
      refine ⟨fun _ _ => rfl, fun hunknown => ?_⟩
      rw [hcreated] at hunknown
      cases hunknown
    | false =>
      have hnone : c.obsoletion = [] := by simp [obsoletion, hobsolete, hknown]
      rw [hknown] at hcreated
      refine ⟨fun _ hdeclared => ?_, fun _ hlive => ⟨h.undeclared hknown hlive, hnone⟩⟩
      rw [hcreated] at hdeclared
      cases hdeclared

/-- A chart that is not declared in an update has no announcement sent. -/
theorem Truthful.updated {r : Receiver} (h : c.Truthful (r.view c.wireId) lost) (data : Samples)
    (sinceLast : Nat) :
    (c.update data sinceLast).chart.Truthful
      ((r.readAll ((c.update data sinceLast).lines.map Line.onWire)).view c.wireId)
      (lost ∧ (c.update data sinceLast).lines = []) := by
  cases haccepts : c.accepts data with
  | true =>
    rw [update_of_accepts haccepts]
    refine ⟨fun hobsolete => ?_, fun hcreated => ?_⟩
    · cases hobsolete
    · cases hcreated
  | false =>
    rw [update_of_not_accepts haccepts]
    exact ⟨h.takenBack, fun hcreated hlive => ⟨h.undeclared hcreated hlive, rfl⟩⟩

end Chart

/-! ## What an operation can do, chart by chart -/

namespace Catalog

/-- A chart that has not been declared is added. -/
inductive Adds (c : Catalog) : Catalog → Prop
  | push (chart : Chart) (hkind : chart.kind = c.jobName) (hstate : chart.state = .pending)
      (hdistinct : chart.Distinct) (hnew : c.contains chart.id = false) : Adds c (c.push chart)

theorem Adds.change {c changed : Catalog} (h : Adds c changed) : Change c changed := by
  cases h with
  | push chart hkind hstate hdistinct hnew =>
    exact .push chart hkind (by rw [hstate]; rfl) hdistinct hnew

/-- The parameters declare a chart that takes the place of another one, which is known by `id`. -/
def Replaces (c : Catalog) (params : Json) (id : String) : Prop :=
  ∃ fresh held, c.build params = .ok fresh ∧ c.get? fresh.id = some held ∧ held.wireId = id

/-- One change of the charts that sends nothing: charts are added, one is changed, or a chart that has not been
declared takes the place of one that is known by an id of `renewed`. -/
inductive Turn (renewed : String → Prop) (c : Catalog) : Catalog → Prop
  | add {changed : Catalog} (h : Relation.ReflTransGen Adds c changed) : Turn renewed c changed
  | change (held chart : Chart) (hheld : held ∈ c.charts) (h : held.Changed chart) :
      Turn renewed c (c.put chart)
  | renew (held chart : Chart) (hheld : held ∈ c.charts) (hid : chart.id = held.id)
      (hkind : chart.kind = c.jobName) (hstate : chart.state = .pending) (hrenewed : renewed held.wireId) :
      Turn renewed c (c.put chart)

theorem adds_addChart {c changed : Catalog} {params : Json} {chart : Chart}
    (h : c.addChart params = .ok (changed, chart)) : Adds c changed := by
  obtain ⟨raw, hraw, hnew, rfl, -⟩ := addChart_cases h
  obtain ⟨hkind, hstate, hdimensions⟩ := built hraw
  exact .push raw hkind hstate (by simp [Chart.Distinct, hdimensions]) hnew

theorem adds_createChart (c : Catalog) (id : String) (entry : Layout.Entry) :
    (c.createChart id entry).1 = c ∨ Adds c (c.createChart id entry).1 := by
  rcases c.createChart_cases id entry with heq | ⟨params, raw, hraw, hnew, heq⟩ <;> rw [heq]
  · exact .inl rfl
  · obtain ⟨hkind, hstate, hdimensions⟩ := built hraw
    have hfilled := filledFrom_fill { raw with priority := c.nextPriority } entry
    have hheader := hfilled.header
    refine .inr (.push _ ?_ (hfilled.pending hstate) (hfilled.distinct ?_) ?_)
    · rw [hheader]
      exact hkind
    · simp [Chart.Distinct, hdimensions]
    · rw [hheader]
      exact hnew

theorem adds_createAll (c : Catalog) (layout : Layout) (ids : List String) :
    Relation.ReflTransGen Adds c (c.createAll layout ids).1 := by
  refine createAll_induction layout (fun reached id entry h => ?_) .refl ids
  rcases reached.adds_createChart id entry with heq | hadds
  · exact heq.symm ▸ h
  · exact h.tail hadds

theorem turn_replaceChart {c changed : Catalog} {params : Json} {chart : Chart}
    (h : c.replaceChart params = .ok (changed, chart)) : Turn (c.Replaces params) c changed := by
  rcases replaceChart_cases h with ⟨raw, held, hraw, hget, rfl, rfl⟩ | hadd
  · obtain ⟨hkind, hstate, -⟩ := built hraw
    obtain ⟨hheld, hid⟩ := get?_some hget
    exact .renew held _ hheld hid.symm hkind hstate ⟨raw, held, hraw, hget, rfl⟩
  · exact .add (.single (adds_addChart hadd))

/-- The charts that the operation replaces, by the ids by which they are known. -/
def renewedBy (c : Catalog) : Operation → String → Prop
  | .replaceChart params => c.Replaces params
  | _ => fun _ => False

theorem turn_apply (c : Catalog) {op : Operation} (hop : op.isChange = true) :
    (c.apply op).lines = [] ∧ Turn (c.renewedBy op) c (c.apply op).catalog := by
  cases op with
  | create layout =>
    have hcreate := c.adds_createAll layout layout.order
    cases hall : c.createAll layout layout.order with
    | mk created error =>
      rw [hall] at hcreate
      simp only [apply, create, hall]
      cases error <;> exact ⟨rfl, .add hcreate⟩
  | addChart params =>
    cases hadd : c.addChart params with
    | error e =>
      simp only [apply, hadd, Effect.ofExcept]
      exact ⟨trivial, .add .refl⟩
    | ok out =>
      simp only [apply, hadd, Effect.ofExcept]
      exact ⟨trivial, .add (.single (adds_addChart hadd))⟩
  | replaceChart params =>
    cases hreplace : c.replaceChart params with
    | error e =>
      simp only [apply, hreplace, Effect.ofExcept]
      exact ⟨trivial, .add .refl⟩
    | ok out =>
      simp only [apply, hreplace, Effect.ofExcept]
      exact ⟨trivial, turn_replaceChart hreplace⟩
  | obsoleteChart id => cases hop
  | update data sinceLast cleanup => cases hop
  | onChart id operation =>
    cases hget : c.get? id with
    | none =>
      simp only [apply, hget]
      exact ⟨trivial, .add .refl⟩
    | some held =>
      obtain ⟨hlines, hchanged⟩ := held.silent_apply operation hop
      simp only [apply, hget]
      exact ⟨hlines, .change held _ (get?_some hget).1 hchanged⟩

/-! ## What the charts and the receiver have in common -/

/-- The receiver of all that was sent knows of each chart what its state says, once it reads the announcements
that are waiting; only the charts of `lost` may still be live without their state saying so. What is waiting
takes charts of the catalog back, and of other charts nothing is known. -/
structure Reconciled (c : Catalog) (r : Receiver) (lost : String → Prop) : Prop where
  truthful : ∀ chart ∈ c.charts,
    chart.Truthful ((r.readAll (c.pending.map Line.onWire)).view chart.wireId) (lost chart.wireId)
  unseen : ∀ id, id ∉ c.wireIds → ((r.readAll (c.pending.map Line.onWire)).view id).standing = .unknown
  within : Line.Within c.wireIds (c.pending.map Line.onWire)
  takesBack : ∀ line ∈ c.pending, ∃ chart : Chart, line = chart.announcement true

theorem Reconciled.imp {c : Catalog} {r : Receiver} {lost lost' : String → Prop} (h : c.Reconciled r lost)
    (hlost : ∀ id, lost id → lost' id) : c.Reconciled r lost' :=
  ⟨fun chart hchart => (h.truthful chart hchart).imp (hlost _), h.unseen, h.within, h.takesBack⟩

theorem Adds.reconciled {c changed : Catalog} {r : Receiver} {lost : String → Prop} (h : Adds c changed)
    (hk : c.Reconciled r lost) (hs : changed.Separate) : changed.Reconciled r lost := by
  cases h with
  | push chart hkind hstate hdistinct hnew =>
    have hids : (c.push chart).wireIds = c.wireIds ++ [chart.wireId] := by
      rw [wireIds, wireIds, Catalog.push, List.map_append]
      rfl
    rw [Separate, hids, List.nodup_append] at hs
    have hfresh : chart.wireId ∉ c.wireIds := fun hmem =>
      hs.2.2 _ hmem _ (List.mem_singleton_self _) rfl
    have hmore : c.wireIds ⊆ (c.push chart).wireIds := hids ▸ List.subset_append_left _ _
    refine ⟨fun other hother => ?_, fun id hid => hk.unseen id fun hmem => hid (hmore hmem),
      hk.within.mono hmore, hk.takesBack⟩
    rcases List.mem_append.mp hother with hother | hother
    · exact hk.truthful other hother
    · cases List.mem_singleton.mp hother
      refine ⟨fun hobsolete => ?_, fun _ hlive => ?_⟩
      · rw [Chart.isObsolete, hstate] at hobsolete
        cases hobsolete
      · have hunknown := hk.unseen _ hfresh
        cases hunknown.symm.trans hlive

theorem reconciled_put {c : Catalog} {r : Receiver} {lost lost' : String → Prop} (hk : c.Reconciled r lost)
    (hc : c.Coherent) (hlost : ∀ id, lost id → lost' id) {chart : Chart} (hkind : chart.kind = c.jobName)
    (htruthful : chart.Truthful ((r.readAll (c.pending.map Line.onWire)).view chart.wireId)
      (lost' chart.wireId)) : (c.put chart).Reconciled r lost' := by
  have hids : (c.put chart).wireIds = c.wireIds := wireIds_put hc hkind
  refine ⟨fun other hother => ?_, fun id hid => hk.unseen id (hids ▸ hid), ?_, hk.takesBack⟩
  · rcases mem_put hother with rfl | ⟨hother, -⟩
    · exact htruthful
    · exact (hk.truthful other hother).imp (hlost _)
  · rw [hids]
    exact hk.within

theorem Turn.reconciled {c changed : Catalog} {r : Receiver} {lost renewed : String → Prop}
    (h : Turn renewed c changed) (hc : c.Coherent) (hk : c.Reconciled r lost) (hs : changed.Separate) :
    changed.Reconciled r fun id => lost id ∨ renewed id := by
  cases h with
  | add h =>
    refine Reconciled.imp ?_ fun id => .inl
    -- The charts stay coherent with each one that is added.
    have hboth : changed.Coherent ∧ (changed.Separate → changed.Reconciled r lost) := by
      clear hs
      induction h with
      | refl => exact ⟨hc, fun _ => hk⟩
      | tail _ hadds ih =>
        refine ⟨hadds.change.coherent ih.1, fun hs => hadds.reconciled (ih.2 ?_) hs⟩
        exact hs.of_prefix (hadds.change.wireIds_prefix ih.1)
    exact hboth.2 hs
  | change held chart hheld h =>
    have hkind : chart.kind = c.jobName := by rw [h.header, hc.kind held hheld]
    refine reconciled_put hk hc (fun id => .inl) hkind ?_
    rw [h.wireId]
    exact ((hk.truthful held hheld).changed h).imp .inl
  | renew held chart hheld hid hkind hstate hrenewed =>
    have hwire : chart.wireId = held.wireId := by
      rw [Chart.wireId, Chart.wireId, Chart.fullId, Chart.fullId, hid, hkind, hc.kind held hheld]
    refine reconciled_put hk hc (fun id => .inl) hkind ⟨fun hobsolete => ?_, fun _ _ => .inr ?_⟩
    · rw [Chart.isObsolete, hstate] at hobsolete
      cases hobsolete
    · rw [hwire]
      exact hrenewed

theorem reconciled_obsoleteChart {c : Catalog} {r : Receiver} {lost : String → Prop}
    (hk : c.Reconciled r lost) (hc : c.Coherent) (hs : c.Separate) (id : String) :
    (c.obsoleteChart id).1.Reconciled r lost := by
  rcases c.obsoleteChart_cases id with heq | ⟨held, hheld, -, heq⟩ <;> rw [heq]
  · exact hk
  · have hid : held.obsolete.id = held.id := by rw [held.header_obsolete]
    have hids : (c.put held.obsolete).wireIds = c.wireIds :=
      wireIds_put hc (by rw [held.header_obsolete, hc.kind held hheld])
    have hmem : held.wireId ∈ c.wireIds := List.mem_map_of_mem hheld
    have hother : ∀ id, id ≠ held.wireId →
        (r.readAll ((c.pending ++ held.obsoletion).map Line.onWire)).view id =
          (r.readAll (c.pending.map Line.onWire)).view id := by
      intro id hne
      rw [List.map_append, Receiver.readAll_append]
      exact held.within_obsoletion.view_eq _ fun h => hne (List.mem_singleton.mp h)
    refine ⟨fun other hchart => ?_, fun id hid => ?_, ?_, fun line hl => ?_⟩
    · rcases mem_put hchart with rfl | ⟨hchart, hne⟩
      · rw [List.map_append, Receiver.readAll_append, Chart.wireId_obsolete]
        exact (hk.truthful held hheld).given_up.imp (·.1)
      · have hwire : other.wireId ≠ held.wireId := by
          intro hwire
          rw [eq_of_wireId hs hchart hheld hwire] at hne
          exact hne hid.symm
        rw [hother _ hwire]
        exact hk.truthful other hchart
    · have hunseen : id ∉ c.wireIds := hids ▸ hid
      rw [hother id fun h => hunseen (h ▸ hmem)]
      exact hk.unseen id hunseen
    · rw [List.map_append]
      exact (hk.within.append (held.within_obsoletion.mono (by simpa using hmem))).mono
        (hids ▸ List.Subset.refl _)
    · rcases List.mem_append.mp hl with hl | hl
      · exact hk.takesBack line hl
      · exact ⟨held, Chart.mem_obsoletion hl⟩

/-! ## Cycles -/

section Cycles

variable (data : Samples) (sinceLast cleanup : Nat)

theorem truthful_step {chart : Chart} {r : Receiver} {lost : Prop}
    (h : chart.Truthful (r.view chart.wireId) lost) :
    (step data sinceLast cleanup chart).chart.Truthful
      ((r.readAll ((step data sinceLast cleanup chart).lines.map Line.onWire)).view chart.wireId)
      (lost ∧ Line.announcementsOf chart.wireId
        ((step data sinceLast cleanup chart).lines.map Line.onWire) = []) := by
  have hupdate := h.updated data sinceLast
  rcases step_cases data sinceLast cleanup chart with hstep | hstep | hstep <;> rw [hstep]
  · exact h.imp fun hlost => ⟨hlost, rfl⟩
  · exact hupdate.imp fun ⟨hlost, hnone⟩ => ⟨hlost, by rw [hnone]; rfl⟩
  · rw [← chart.wireId_update data sinceLast] at hupdate ⊢
    rw [List.map_append, Receiver.readAll_append]
    exact hupdate.given_up.imp fun ⟨⟨hlost, hnone⟩, hmore⟩ => ⟨hlost, by rw [hnone, hmore]; rfl⟩

theorem within_steps (charts : List Chart) :
    Line.Within (charts.map Chart.wireId)
      ((charts.flatMap fun c => (step data sinceLast cleanup c).lines).map Line.onWire) := by
  induction charts with
  | nil => exact Line.within_nil _
  | cons chart rest ih =>
    rw [List.flatMap_cons, List.map_append]
    exact ((within_step data sinceLast cleanup chart).mono (by simp)).append (ih.mono (by simp))

/-- Of the parts that charts take in a cycle, one chart is touched by its own only. -/
theorem steps_of_chart (charts : List Chart) (hids : (charts.map Chart.wireId).Nodup) {chart : Chart}
    (hchart : chart ∈ charts) (r : Receiver) :
    (r.readAll ((charts.flatMap fun c => (step data sinceLast cleanup c).lines).map Line.onWire)).view
        chart.wireId =
      (r.readAll ((step data sinceLast cleanup chart).lines.map Line.onWire)).view chart.wireId ∧
    Line.announcementsOf chart.wireId
        ((charts.flatMap fun c => (step data sinceLast cleanup c).lines).map Line.onWire) =
      Line.announcementsOf chart.wireId ((step data sinceLast cleanup chart).lines.map Line.onWire) := by
  induction charts generalizing r with
  | nil => cases hchart
  | cons first rest ih =>
    rw [List.map_cons, List.nodup_cons] at hids
    have hrest : Line.Within (rest.map Chart.wireId)
        ((rest.flatMap fun c => (step data sinceLast cleanup c).lines).map Line.onWire) :=
      within_steps data sinceLast cleanup rest
    have hown := within_step data sinceLast cleanup first
    rw [List.flatMap_cons, List.map_append, Receiver.readAll_append, Line.announcementsOf_append]
    rcases List.mem_cons.mp hchart with rfl | hmem
    · refine ⟨hrest.view_eq _ hids.1, ?_⟩
      rw [hrest.announcementsOf_eq_nil hids.1, List.append_nil]
    · have hne : chart.wireId ∉ [first.wireId] := by
        rw [List.mem_singleton]
        exact fun heq => hids.1 (heq ▸ List.mem_map_of_mem hmem)
      obtain ⟨hview, hannouncements⟩ :=
        ih hids.2 hmem (r.readAll ((step data sinceLast cleanup first).lines.map Line.onWire))
      refine ⟨hview.trans ?_, ?_⟩
      · have hheaded := (within_step data sinceLast cleanup chart).headed
        exact Receiver.view_readAll_of_headed hheaded (hown.view_eq r hne)
      · rw [hown.announcementsOf_eq_nil hne, List.nil_append, hannouncements]

/-- Once the waiting announcements are sent, a chart that was taken back by them is not lost. -/
theorem Reconciled.flushed {c : Catalog} {r : Receiver} {lost : String → Prop} (hk : c.Reconciled r lost)
    {chart : Chart} (hchart : chart ∈ c.charts) :
    chart.Truthful ((r.readAll (c.pending.map Line.onWire)).view chart.wireId)
      (lost chart.wireId ∧ Line.announcementsOf chart.wireId (c.pending.map Line.onWire) = []) := by
  have h := hk.truthful chart hchart
  refine ⟨h.takenBack, fun hcreated hlive => ⟨h.undeclared hcreated hlive, ?_⟩⟩
  cases hlast : Line.lastAnnouncement? chart.wireId (c.pending.map Line.onWire) with
  | none => exact List.getLast?_eq_none_iff.mp hlast
  | some a =>
    obtain ⟨line, hl, hline⟩ := List.mem_filterMap.mp (List.mem_of_getLast? hlast)
    obtain ⟨rfl, -⟩ := Line.announces?_eq_some.mp hline
    obtain ⟨raw, hraw, hwire⟩ := List.mem_map.mp hl
    obtain ⟨other, rfl⟩ := hk.takesBack raw hraw
    cases hwire
    rw [Receiver.standing_readAll, hlast] at hlive
    cases hlive

theorem Reconciled.update {c : Catalog} {r : Receiver} {lost : String → Prop} (hk : c.Reconciled r lost)
    (hs : c.Separate) :
    (c.update data sinceLast cleanup).catalog.Reconciled
      (r.readAll ((c.update data sinceLast cleanup).lines.map Line.onWire))
      fun id => lost id ∧
        Line.announcementsOf id ((c.update data sinceLast cleanup).lines.map Line.onWire) = [] := by
  have hwithin := within_steps data sinceLast cleanup c.charts
  have hpending : (c.update data sinceLast cleanup).catalog.pending = [] := rfl
  refine ⟨fun chart hchart => ?_, fun id hid => ?_, Line.within_nil _, fun _ h => by cases h⟩
  · rw [charts_update] at hchart
    obtain ⟨held, hheld, rfl⟩ := List.mem_map.mp hchart
    obtain ⟨hview, hannouncements⟩ := steps_of_chart data sinceLast cleanup c.charts hs hheld
      (r.readAll (c.pending.map Line.onWire))
    rw [Chart.wireId_of_header (header_step data sinceLast cleanup held), lines_update, List.map_append,
      Receiver.readAll_append, Line.announcementsOf_append, hannouncements, hpending, List.map_nil,
      Receiver.readAll_nil, hview]
    refine (truthful_step data sinceLast cleanup (hk.flushed hheld)).imp fun ⟨⟨hlost, hnone⟩, hmore⟩ => ?_
    exact ⟨hlost, by rw [hnone, hmore]; rfl⟩
  · rw [wireIds_update] at hid
    rw [lines_update, List.map_append, Receiver.readAll_append, hpending, List.map_nil, Receiver.readAll_nil,
      hwithin.view_eq _ hid]
    exact hk.unseen id hid

end Cycles

/-! ## Runs -/

theorem reconciled_apply {c : Catalog} {r : Receiver} {lost : String → Prop} (hk : c.Reconciled r lost)
    (hc : c.Coherent) {op : Operation} (hop : op.isRegular = true) (hs : c.Separate)
    (hafter : (c.apply op).catalog.Separate) :
    (c.apply op).catalog.Reconciled (r.readAll ((c.apply op).lines.map Line.onWire))
      fun id => (lost id ∧ Line.announcementsOf id ((c.apply op).lines.map Line.onWire) = []) ∨
        c.renewedBy op id := by
  rcases regular_cases hop with hchange | ⟨id, rfl⟩ | ⟨data, sinceLast, cleanup, rfl⟩
  · obtain ⟨hlines, hturn⟩ := c.turn_apply hchange
    rw [hlines]
    exact (hturn.reconciled hc hk hafter).imp fun id => Or.imp_left fun hlost => ⟨hlost, rfl⟩
  · exact (reconciled_obsoleteChart hk hc hs id).imp fun id hlost => .inl ⟨hlost, rfl⟩
  · exact (hk.update data sinceLast cleanup hs).imp fun id => .inl

/-- In the run the chart known by `id` was replaced, and it has not been announced since. -/
def ReplacedSince (c : Catalog) (ops : List Operation) (id : String) : Prop :=
  ∃ before params after, ops = before ++ .replaceChart params :: after ∧
    (c.run before).catalog.Replaces params id ∧
    Line.announcementsOf id
      (((c.run (before ++ [.replaceChart params])).catalog.run after).lines.map Line.onWire) = []

theorem ReplacedSince.cons {c : Catalog} {op : Operation} {rest : List Operation} {id : String}
    (h : (c.apply op).catalog.ReplacedSince rest id) : c.ReplacedSince (op :: rest) id := by
  obtain ⟨before, params, after, rfl, hreplaces, hnone⟩ := h
  exact ⟨op :: before, params, after, rfl, hreplaces, hnone⟩

theorem replacedSince_of_renewedBy {c : Catalog} {op : Operation} {rest : List Operation} {id : String}
    (h : c.renewedBy op id)
    (hnone : Line.announcementsOf id (((c.apply op).catalog.run rest).lines.map Line.onWire) = []) :
    c.ReplacedSince (op :: rest) id := by
  cases op with
  | replaceChart params => exact ⟨[], params, rest, rfl, h, hnone⟩
  | _ => exact h.elim

theorem reconciled_run {c : Catalog} {r : Receiver} {lost : String → Prop} (hk : c.Reconciled r lost)
    (hc : c.Coherent) (ops : List Operation) (hops : ∀ op ∈ ops, op.isRegular = true)
    (hs : (c.run ops).catalog.Separate) :
    (c.run ops).catalog.Reconciled (r.readAll ((c.run ops).lines.map Line.onWire))
      fun id => (lost id ∧ Line.announcementsOf id ((c.run ops).lines.map Line.onWire) = []) ∨
        c.ReplacedSince ops id := by
  induction ops generalizing c r lost with
  | nil => exact hk.imp fun id hlost => .inl ⟨hlost, rfl⟩
  | cons op rest ih =>
    have hop := hops op List.mem_cons_self
    have hrest := fun other h => hops other (List.mem_cons_of_mem op h)
    obtain ⟨hcoherent, hprefix⟩ := coherent_apply hc hop
    have hafter := hs.of_prefix (coherent_run hcoherent rest hrest).2
    have hstep := reconciled_apply hk hc hop (hafter.of_prefix hprefix) hafter
    have hend := ih hstep hcoherent hrest hs
    rw [run, List.map_append, Receiver.readAll_append]
    refine hend.imp fun id hlost => ?_
    rw [Line.announcementsOf_append]
    rcases hlost with ⟨⟨hlost, hnone⟩ | hrenewed, hmore⟩ | hreplaced
    · exact .inl ⟨hlost, by rw [hnone, hmore]; rfl⟩
    · exact .inr (replacedSince_of_renewedBy hrenewed hmore)
    · exact .inr hreplaced.cons

/-- A run that ends with a cycle leaves no announcement waiting. -/
theorem pending_run_update (c : Catalog) (ops : List Operation) (data : Samples) (sinceLast cleanup : Nat) :
    (c.run (ops ++ [.update data sinceLast cleanup])).catalog.pending = [] := by
  induction ops generalizing c with
  | nil => rfl
  | cons op rest ih => exact ih (c.apply op).catalog

theorem reconciled_empty {c : Catalog} (hcharts : c.charts = []) (hpending : c.pending = []) :
    c.Reconciled {} fun _ => False := by
  refine ⟨?_, fun id _ => ?_, ?_, ?_⟩
  · simp [hcharts]
  · rw [hpending]
    rfl
  · rw [hpending]
    exact Line.within_nil _
  · simp [hpending]

/-- After every cycle, each chart that is given up has not been announced at all or was last announced as
obsolete, whatever was done to the charts before; unless it was replaced and has not been announced since. -/
theorem obsolete_charts_taken_back (c : Catalog) (hcharts : c.charts = []) (hpending : c.pending = [])
    (ops : List Operation) (data : Samples) (sinceLast cleanup : Nat)
    (hops : ∀ op ∈ ops, op.isRegular = true)
    (hclean : Along Clean c (ops ++ [.update data sinceLast cleanup])) :
    ∃ lines, Line.readLines? (Line.renderAll (c.run (ops ++ [.update data sinceLast cleanup])).lines) =
        some lines ∧
      ∀ chart ∈ (c.run (ops ++ [.update data sinceLast cleanup])).catalog.charts,
        chart.isObsolete = true → ∀ a ∈ Line.lastAnnouncement? chart.wireId lines,
          a.obsolete = true ∨ c.ReplacedSince (ops ++ [.update data sinceLast cleanup]) chart.wireId := by
  have hsent := c.pending_run_update ops data sinceLast cleanup
  have hregular : ∀ op ∈ ops ++ [.update data sinceLast cleanup], op.isRegular = true := by
    intro op hop
    rcases List.mem_append.mp hop with hop | hop
    · exact hops op hop
    · cases List.mem_singleton.mp hop
      rfl
  generalize ops ++ [Operation.update data sinceLast cleanup] = run at hclean hsent hregular ⊢
  have hcoherent := coherent_empty hcharts
  have hend := hclean.final.separate (coherent_run hcoherent run hregular).1
  obtain ⟨hadmits, -⟩ := admits_run (announced_empty hcharts hpending {}) hcoherent run hregular
    (hclean.imp fun _ h => h.plain) hend
  have hreconciled := reconciled_run (reconciled_empty hcharts hpending) hcoherent run hregular hend
  refine ⟨_, Line.readLines?_renderAll _ hadmits.plain, fun chart hchart hobsolete a hlast => ?_⟩
  have htruthful := hreconciled.truthful chart hchart
  rw [hsent, List.map_nil, Receiver.readAll_nil] at htruthful
  have hstanding := Receiver.standing_readAll {} ((c.run run).lines.map Line.onWire) chart.wireId
  rw [Option.mem_def.mp hlast] at hstanding
  cases hlive : a.obsolete with
  | true => exact .inl rfl
  | false =>
    rw [Option.map_some, Option.getD_some, Standing.after, hlive] at hstanding
    exact .inr ((htruthful.lost_of_live hobsolete hstanding).resolve_left fun hlost => hlost.1)

/-- Of two charts that were announced one is given up and the other stops being updated. -/
def retirement : List Operation :=
  [.addChart (.array [.string "net", .null, .string "Traffic", .string "kb", .string "net",
      .string "net.traffic"]),
    .addChart (.array [.string "disk", .null, .string "Reads", .string "ops", .string "disk",
      .string "disk.reads"]),
    .onChart "net" (.insertDimension (.ofId "in")),
    .onChart "disk" (.insertDimension (.ofId "reads")),
    .update ⟨[("in", .integer 3), ("reads", .integer 8)]⟩ 0 0,
    .obsoleteChart "net"]

theorem obsolete_charts_taken_back_retirement :
    (∀ op ∈ retirement, op.isRegular = true) ∧
    Along Clean (Catalog.ofJob "job") (retirement ++ [.update ⟨[]⟩ 1 1]) ∧
    (((Catalog.ofJob "job").run (retirement ++ [.update ⟨[]⟩ 1 1])).catalog.charts.map Chart.isObsolete =
      [true, true]) ∧
    ∃ lines, Line.readLines? (Line.renderAll ((Catalog.ofJob "job").run
        (retirement ++ [.update ⟨[]⟩ 1 1])).lines) = some lines ∧
      ∀ chart ∈ ((Catalog.ofJob "job").run (retirement ++ [.update ⟨[]⟩ 1 1])).catalog.charts,
        chart.isObsolete = true → ∀ a ∈ Line.lastAnnouncement? chart.wireId lines,
          a.obsolete = true ∨
            (Catalog.ofJob "job").ReplacedSince (retirement ++ [.update ⟨[]⟩ 1 1]) chart.wireId := by
  have hregular : ∀ op ∈ retirement, op.isRegular = true := by
    simp [retirement, Operation.isRegular, Chart.Operation.isTopology]
  have hclean : Along Clean (Catalog.ofJob "job") (retirement ++ [.update ⟨[]⟩ 1 1]) := by decide +kernel
  exact ⟨hregular, hclean, by decide +kernel,
    obsolete_charts_taken_back (Catalog.ofJob "job") rfl rfl retirement ⟨[]⟩ 1 1 hregular hclean⟩

/-- A chart is announced and replaced, and the new one is never updated. -/
def replacement : List Operation :=
  [.addChart (.array [.string "net", .null, .string "Traffic", .string "kb", .string "net",
      .string "net.traffic"]),
    .onChart "net" (.insertDimension (.ofId "in")),
    .update ⟨[("in", .integer 3)]⟩ 0 0,
    .replaceChart (.array [.string "net", .null, .string "Traffic", .string "kb", .string "net",
      .string "net.traffic"])]

/-- A chart that takes the place of an announced one is given up without a word: the receiver keeps the old
one live. -/
theorem replaced_chart_left_live :
    ¬ ∀ (c : Catalog), c.charts = [] → c.pending = [] →
      ∀ (ops : List Operation) (data : Samples) (sinceLast cleanup : Nat),
        (∀ op ∈ ops, op.isRegular = true) → Along Clean c (ops ++ [.update data sinceLast cleanup]) →
        ∃ lines, Line.readLines? (Line.renderAll (c.run (ops ++ [.update data sinceLast cleanup])).lines) =
            some lines ∧
          ∀ chart ∈ (c.run (ops ++ [.update data sinceLast cleanup])).catalog.charts,
            chart.isObsolete = true → ∀ a ∈ Line.lastAnnouncement? chart.wireId lines,
              a.obsolete = true := by
  intro hall
  have hregular : ∀ op ∈ replacement, op.isRegular = true := by
    simp [replacement, Operation.isRegular, Chart.Operation.isTopology]
  have hclean : Along Clean (Catalog.ofJob "job") (replacement ++ [.update ⟨[]⟩ 0 1]) := by decide +kernel
  obtain ⟨lines, hlines, hback⟩ := hall (Catalog.ofJob "job") rfl rfl replacement ⟨[]⟩ 0 1 hregular hclean
  have hplain : ∀ line ∈ ((Catalog.ofJob "job").run (replacement ++ [.update ⟨[]⟩ 0 1])).lines,
      line.Plain := by decide +kernel
  rw [Line.readLines?_renderAll _ hplain, Option.some.injEq] at hlines
  subst hlines
  have hlive : ¬ ∀ chart ∈ ((Catalog.ofJob "job").run (replacement ++ [.update ⟨[]⟩ 0 1])).catalog.charts,
      chart.isObsolete = true →
        ∀ a ∈ Line.lastAnnouncement? chart.wireId (((Catalog.ofJob "job").run
            (replacement ++ [.update ⟨[]⟩ 0 1])).lines.map Line.onWire), a.obsolete = true := by
    decide +kernel
  exact hlive hback

end Catalog

end ChartStream
