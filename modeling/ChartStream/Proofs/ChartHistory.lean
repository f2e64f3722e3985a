import ChartStream.Proofs.JobCycles
import ChartStream.Proofs.Obsolescence

/-!
# What became of charts

Charts are built, declared and sent values for. Main definitions: `Event`, `Honest`. What a chart's own state says
is what its history says (`Chart.Recorded`), and a cycle that goes by the states keeps the history honest
(`Catalog.Recorded.update`).
-/

namespace ChartStream

set_option autoImplicit false

/-! ## Histories -/

/-- Whose chart something is about: one of the catalog, or the run time chart of the job itself. -/
inductive Owner where
  | catalog
  | job
  deriving DecidableEq

/-- A chart is built, in the place of another one or not, or a line is sent. -/
inductive Event where
  | built (owner : Owner) (fullId : String)
  | sent (owner : Owner) (line : Line)
  deriving DecidableEq

namespace Event

def line? : Event → Option Line
  | .built _ _ => none
  | .sent _ line => some line

/-- The event begins a group of the chart. -/
def begins (owner : Owner) (id : String) : Event → Bool
  | .sent o (.groupStart other _) => o = owner && other = id
  | _ => false

/-- What the event announces of the chart, if it does not take it back. -/
def declares? (owner : Owner) (id : String) : Event → Option Announcement
  | .sent o (.chart a) => if o = owner ∧ a.fullId = id ∧ a.obsolete = false then some a else none
  | _ => none

/-- There was a group of the chart since it was built. -/
def begun (owner : Owner) (id : String) (history : List Event) : Bool :=
  (history.reverse.takeWhile (· != .built owner id)).any (begins owner id)

/-- The latest declaration of the chart. -/
def lastDeclaration? (owner : Owner) (id : String) (history : List Event) : Option Announcement :=
  (history.filterMap (declares? owner id)).getLast?

variable {owner : Owner} {id : String} {history : List Event}

theorem begun_concat (owner : Owner) (id : String) (history : List Event) (e : Event) :
    begun owner id (history ++ [e]) = (e != .built owner id && (begins owner id e || begun owner id history)) := by
  rw [begun, List.reverse_append, List.reverse_singleton, List.singleton_append, List.takeWhile_cons]
  cases he : e != .built owner id with
  | false => rfl
  | true => rw [if_pos rfl, List.any_cons, Bool.true_and]; rfl

theorem begun_append_of_apart (history : List Event) {events : List Event}
    (h : ∀ e ∈ events, e ≠ .built owner id ∧ begins owner id e = false) :
    begun owner id (history ++ events) = begun owner id history := by
  induction events generalizing history with
  | nil => rw [List.append_nil]
  | cons e rest ih =>
    obtain ⟨hbuilt, hbegins⟩ := h e List.mem_cons_self
    have hrest := ih (history ++ [e]) fun other hother => h other (List.mem_cons_of_mem e hother)
    rw [List.append_assoc, List.singleton_append] at hrest
    rw [hrest, begun_concat, hbegins, bne_iff_ne.mpr hbuilt]
    rfl

theorem begun_of_built {events : List Event} (history : List Event) (hbuilt : .built owner id ∈ events)
    (h : ∀ e ∈ events, begins owner id e = false) : begun owner id (history ++ events) = false := by
  induction events using List.reverseRecOn with
  | nil => cases hbuilt
  | append_singleton events e ih =>
    rw [← List.append_assoc, begun_concat, h e (List.mem_append_right _ (List.mem_singleton_self e))]
    rcases List.mem_append.mp hbuilt with hbuilt | hbuilt
    · rw [ih hbuilt fun other hother => h other (List.mem_append_left _ hother)]
      simp
    · rw [List.mem_singleton.mp hbuilt]
      simp

theorem mem_of_begun (h : begun owner id history = true) : ∃ n, .sent owner (.groupStart id n) ∈ history := by
  obtain ⟨e, he, hbegins⟩ := List.any_eq_true.mp h
  have hmem : e ∈ history := List.mem_reverse.mp ((List.takeWhile_sublist _).mem he)
  cases e with
  | built o other => cases hbegins
  | sent o line =>
    cases line with
    | groupStart other n =>
      simp only [begins, Bool.and_eq_true, decide_eq_true_eq] at hbegins
      obtain ⟨rfl, rfl⟩ := hbegins
      exact ⟨n, hmem⟩
    | _ => cases hbegins

theorem group_of_begins {lines : List Line} {o : Owner} {n : Nat}
    (h : .sent o (.groupStart id n) ∈ lines.map (Event.sent owner)) : .group id ∈ lines.filterMap Line.opens? := by
  obtain ⟨line, hline, heq⟩ := List.mem_map.mp h
  cases heq
  exact List.mem_filterMap.mpr ⟨_, hline, rfl⟩

theorem eq_of_declares? {e : Event} {a : Announcement} (h : e.declares? owner id = some a) :
    e = .sent owner (.chart a) := by
  unfold declares? at h
  split at h
  · split at h
    · next hsame =>
      cases h
      rw [hsame.1]
    · cases h
  · cases h

end Event

open Event

/-- The chart was declared. -/
def Declared (owner : Owner) (id : String) (history : List Event) : Prop :=
  ∃ a : Announcement, a.fullId = id ∧ a.obsolete = false ∧ .sent owner (.chart a) ∈ history

theorem Declared.append {owner : Owner} {id : String} {history : List Event} (h : Declared owner id history)
    (events : List Event) : Declared owner id (history ++ events) := by
  obtain ⟨a, hid, hlive, hsent⟩ := h
  exact ⟨a, hid, hlive, List.mem_append_left _ hsent⟩

/-- Each group reports what is due: the interval, or nothing for the first one since its chart was built. It comes
after a declaration of its chart, and whatever is announced has the interval. -/
structure Honest (every : Nat) (history : List Event) : Prop where
  groups : ∀ before owner id n after, history = before ++ .sent owner (.groupStart id n) :: after →
    n = (if begun owner id before then every else 0) ∧ Declared owner id before
  announcements : ∀ owner a, .sent owner (.chart a) ∈ history → a.updateEvery = every

namespace Honest

variable {every : Nat} {history : List Event}

theorem empty (every : Nat) : Honest every [] := by
  refine ⟨fun before owner id n after h => ?_, fun owner a h => by cases h⟩
  simp at h

theorem concat (h : Honest every history) {e : Event}
    (hgroup : ∀ owner id n, e = .sent owner (.groupStart id n) →
      n = (if begun owner id history then every else 0) ∧ Declared owner id history)
    (hannouncement : ∀ owner a, e = .sent owner (.chart a) → a.updateEvery = every) :
    Honest every (history ++ [e]) := by
  refine ⟨fun before owner id n after hsplit => ?_, fun owner a hmem => ?_⟩
  · rcases List.eq_nil_or_concat after with rfl | ⟨rest, last, rfl⟩
    · obtain ⟨rfl, he⟩ := List.append_inj' hsplit rfl
      exact hgroup owner id n (List.cons.inj he).1
    · rw [List.concat_eq_append, ← List.cons_append, ← List.append_assoc] at hsplit
      obtain ⟨hrest, -⟩ := List.append_inj' hsplit rfl
      exact h.groups before owner id n rest hrest
  · rcases List.mem_append.mp hmem with hmem | hmem
    · exact h.announcements owner a hmem
    · exact hannouncement owner a (List.mem_singleton.mp hmem).symm

theorem append (h : Honest every history) {events : List Event}
    (hgroup : ∀ owner id n, .sent owner (.groupStart id n) ∉ events)
    (hannouncement : ∀ owner a, .sent owner (.chart a) ∈ events → a.updateEvery = every) :
    Honest every (history ++ events) := by
  induction events generalizing history with
  | nil => rwa [List.append_nil]
  | cons e rest ih =>
    have hfirst : Honest every (history ++ [e]) := by
      refine h.concat (fun owner id n he => ?_) fun owner a he => ?_
      · exact absurd (he ▸ List.mem_cons_self) (hgroup owner id n)
      · exact hannouncement owner a (he ▸ List.mem_cons_self)
    rw [← List.singleton_append, ← List.append_assoc]
    exact ih hfirst (fun owner id n hmem => hgroup owner id n (List.mem_cons_of_mem e hmem))
      fun owner a hmem => hannouncement owner a (List.mem_cons_of_mem e hmem)

theorem append_silent (h : Honest every history) {events : List Event}
    (hsilent : ∀ owner line, .sent owner line ∉ events) : Honest every (history ++ events) :=
  h.append (fun owner _ _ => hsilent owner _) fun owner a hmem => absurd hmem (hsilent owner (.chart a))

/-- Lines that begin no group. -/
theorem append_lines (h : Honest every history) (owner : Owner) {lines : List Line}
    (hgroup : ∀ id, .group id ∉ lines.filterMap Line.opens?)
    (hannouncement : ∀ a, .chart a ∈ lines → a.updateEvery = every) :
    Honest every (history ++ lines.map (.sent owner)) := by
  refine h.append (fun o id n hmem => hgroup id (group_of_begins hmem)) fun o a hmem => ?_
  obtain ⟨line, hline, heq⟩ := List.mem_map.mp hmem
  cases heq
  exact hannouncement a hline

theorem of_append {before after : List Event} (h : Honest every (before ++ after)) : Honest every before := by
  refine ⟨fun first owner id n rest hsplit => ?_, fun owner a hmem => ?_⟩
  · refine h.groups first owner id n (rest ++ after) ?_
    rw [hsplit, List.append_assoc, List.cons_append]
  · exact h.announcements owner a (List.mem_append_left _ hmem)

theorem lastDeclaration (h : Honest every history) {owner : Owner} {id : String}
    (hdeclared : Declared owner id history) :
    ∃ a ∈ lastDeclaration? owner id history, a.updateEvery = every := by
  obtain ⟨a, hid, hlive, hsent⟩ := hdeclared
  have hdeclares : declares? owner id (.sent owner (.chart a)) = some a := if_pos ⟨rfl, hid, hlive⟩
  have hmem := List.mem_filterMap.mpr ⟨_, hsent, hdeclares⟩
  obtain ⟨last, hlast⟩ := Option.isSome_iff_exists.mp (List.getLast?_isSome.mpr (List.ne_nil_of_mem hmem))
  obtain ⟨e, he, hfrom⟩ := List.mem_filterMap.mp (List.mem_of_getLast? hlast)
  exact ⟨last, hlast, h.announcements owner last (eq_of_declares? hfrom ▸ he)⟩

end Honest

/-! ## Charts -/

namespace Chart

/-- The state of the chart says what became of it since it was built. -/
structure Recorded (owner : Owner) (c : Chart) (history : List Event) : Prop where
  updated : c.state.isUpdated = begun owner c.fullId history
  created : c.state.isCreated = true → Declared owner c.fullId history
  known : c.state.isUpdated = true → c.state.isCreated = true

variable {owner : Owner} {c : Chart} {history : List Event}

/-- The chart is kept in another form. -/
theorem Recorded.of_state {other : Chart} (h : c.Recorded owner history) (hid : other.fullId = c.fullId)
    (hupdated : other.state.isUpdated = c.state.isUpdated) (hcreated : other.state.isCreated = c.state.isCreated) :
    other.Recorded owner history := by
  refine ⟨?_, ?_, ?_⟩
  · rw [hupdated, hid]
    exact h.updated
  · rw [hcreated, hid]
    exact h.created
  · rw [hupdated, hcreated]
    exact h.known

/-- Something happens to other charts. -/
theorem Recorded.append (h : c.Recorded owner history) {events : List Event}
    (hapart : ∀ e ∈ events, e ≠ .built owner c.fullId ∧ begins owner c.fullId e = false) :
    c.Recorded owner (history ++ events) := by
  refine ⟨?_, fun hcreated => (h.created hcreated).append events, h.known⟩
  rw [begun_append_of_apart history hapart]
  exact h.updated

theorem recorded_of_pending (hstate : c.state = .pending) (hbegun : begun owner c.fullId history = false) :
    c.Recorded owner history := by
  refine ⟨?_, ?_, ?_⟩ <;> rw [hstate]
  · exact hbegun.symm
  · exact fun h => by cases h
  · exact fun h => by cases h

theorem State.isUpdated_refreshed {s : State} (h : s.isUpdated = true → s.isCreated = true) :
    s.refreshed.isUpdated = s.isUpdated := by
  cases s with
  | obsoleted known updated => cases known <;> cases updated <;> simp_all [State.refreshed, isUpdated, isCreated]
  | _ => rfl

theorem Recorded.refresh (h : c.Recorded owner history) : c.refresh.Recorded owner history :=
  h.of_state rfl (State.isUpdated_refreshed h.known) c.state.isCreated_refreshed

theorem Recorded.changed {changed : Chart} (h : c.Recorded owner history) (hc : c.Changed changed) :
    changed.Recorded owner history := by
  rcases hc with ⟨vars, rfl⟩ | ⟨dimensions, rfl, -⟩
  · exact h.of_state rfl rfl rfl
  · exact Recorded.refresh (c := { c with dimensions := dimensions }) (h.of_state rfl rfl rfl)

theorem Recorded.obsolete (h : c.Recorded owner history) : c.obsolete.Recorded owner history := by
  unfold Chart.obsolete
  split
  · exact h
  · exact h.of_state rfl rfl rfl

theorem Recorded.revived (h : c.Recorded owner history) : c.revived.Recorded owner history := by
  unfold Chart.revived
  split
  · exact h.refresh
  · exact h

/-! ## Groups -/

/-- Lines are no events of a chart whose groups they do not begin. -/
theorem apart_of_opens {lines : List Line} {id : String} (hlines : .group id ∉ lines.filterMap Line.opens?)
    (owner o : Owner) : ∀ e ∈ lines.map (Event.sent o), e ≠ .built owner id ∧ begins owner id e = false := by
  intro e he
  obtain ⟨line, hline, rfl⟩ := List.mem_map.mp he
  refine ⟨fun hbuilt => (by cases hbuilt), ?_⟩
  cases line with
  | groupStart other n =>
    have hne : other ≠ id := by
      rintro rfl
      exact hlines (List.mem_filterMap.mpr ⟨_, hline, rfl⟩)
    simp [begins, hne]
  | _ => rfl

theorem State.isCreated_of_push {s : State} (h : s.push = false) : s.isCreated = true := by
  cases s with
  | created again updated => rfl
  | _ => cases h

variable {every : Nat}

/-- After its overture a chart has been declared, and it has no group more than before. -/
theorem honest_overture (h : c.Recorded owner history) (hhonest : Honest every history)
    (hevery : c.updateEvery = every) :
    Honest every (history ++ c.overture.map (.sent owner)) ∧
      Declared owner c.fullId (history ++ c.overture.map (.sent owner)) ∧
      begun owner c.fullId (history ++ c.overture.map (.sent owner)) = c.state.isUpdated := by
  have hgroups : ∀ id, .group id ∉ c.overture.filterMap Line.opens? := by
    intro id
    rw [opens_overture]
    split <;> simp
  have hheader := c.header_revived
  refine ⟨hhonest.append_lines owner hgroups fun a hline => ?_, ?_, ?_⟩
  · rcases mem_declaration (mem_overture hline) with ha | ha | ha | ⟨d, -, ha⟩ | ⟨v, -, m, ha⟩ <;> cases ha
    exact (congrArg ChartHeader.updateEvery hheader).trans hevery
  · cases hpush : c.revived.state.push with
    | true =>
      have hfirst : c.revived.announcement false ∈ c.overture := by
        rw [overture, if_pos hpush]
        exact List.mem_cons_self
      exact ⟨_, fullId_of_header hheader, rfl, List.mem_append_right _ (List.mem_map_of_mem hfirst)⟩
    | false =>
      have hdeclared := h.revived.created (State.isCreated_of_push hpush)
      rw [fullId_of_header hheader] at hdeclared
      exact hdeclared.append _
  · rw [begun_append_of_apart history (apart_of_opens (hgroups _) owner owner)]
    exact h.updated.symm

/-- A group that reports what is due. -/
theorem honest_group (hhonest : Honest every history) (hdeclared : Declared owner c.fullId history) (data : Samples)
    {n : Nat} (hn : n = if begun owner c.fullId history then every else 0) :
    Honest every (history ++ (c.group data n).map (.sent owner)) ∧
      begun owner c.fullId (history ++ (c.group data n).map (.sent owner)) = true := by
  have hfirst : Honest every (history ++ [.sent owner (.groupStart c.fullId n)]) := by
    refine hhonest.concat (fun o id m heq => ?_) fun o a heq => by cases heq
    cases heq
    exact ⟨hn, hdeclared⟩
  have hvalues : (c.values data ++ [Line.groupEnd]).filterMap Line.opens? = [] := by
    have hgroup := c.opens_group data n
    rw [group_eq, List.filterMap_cons] at hgroup
    exact (List.cons.inj hgroup).2
  have hnone : ∀ a, .chart a ∉ c.values data ++ [Line.groupEnd] := by
    intro a hmem
    rcases List.mem_append.mp hmem with hmem | hmem
    · have hkind := c.isValue_values data _ (List.mem_map_of_mem hmem)
      cases hkind
    · cases List.mem_singleton.mp hmem
  rw [group_eq, List.map_cons, ← List.singleton_append, ← List.append_assoc]
  constructor
  · exact hfirst.append_lines owner (by simp [hvalues]) fun a hline => absurd hline (hnone a)
  · rw [begun_append_of_apart _ (apart_of_opens (by simp [hvalues]) owner owner), begun_concat]
    simp [begins]

/-- A cycle of a chart whose groups are to report `sinceLast` from the second one on. -/
theorem Recorded.update (h : c.Recorded owner history) (hhonest : Honest every history)
    (hevery : c.updateEvery = every) (data : Samples) {sinceLast : Nat}
    (hsince : c.state.isUpdated = true → sinceLast = every) :
    Honest every (history ++ (c.update data sinceLast).lines.map (.sent owner)) ∧
      (c.update data sinceLast).chart.Recorded owner
        (history ++ (c.update data sinceLast).lines.map (.sent owner)) := by
  cases haccepts : c.accepts data with
  | false =>
    rw [update_of_not_accepts haccepts, List.map_nil, List.append_nil]
    exact ⟨hhonest, h.of_state rfl rfl rfl⟩
  | true =>
    obtain ⟨hopened, hdeclared, hbegun⟩ := honest_overture h hhonest hevery
    have hid : c.known.fullId = c.fullId := fullId_of_header c.header_known
    have hupdated : c.known.state.isUpdated = c.state.isUpdated := by
      have hknown : c.known.state.isUpdated = c.revived.state.isUpdated := by
        unfold Chart.known
        split <;> rfl
      rw [hknown, h.revived.updated, fullId_of_header c.header_revived, h.updated]
    rw [← hid] at hdeclared hbegun
    have hn : (if c.known.state.isUpdated then sinceLast else 0) =
        if begun owner c.known.fullId (history ++ c.overture.map (.sent owner)) then every else 0 := by
      rw [hbegun, hupdated]
      cases hstate : c.state.isUpdated with
      | false => rfl
      | true => exact hsince hstate
    obtain ⟨hsent, hcollected⟩ := honest_group hopened hdeclared data hn
    rw [update_of_accepts haccepts, List.map_append, ← List.append_assoc]
    exact ⟨hsent, hcollected.symm, fun _ => hdeclared.append _, fun _ => rfl⟩

theorem fullId_eq_iff {other : Chart} (hkind : c.kind = other.kind) : c.fullId = other.fullId ↔ c.id = other.id := by
  rw [fullId, fullId, hkind, String.append_right_inj]

theorem Recorded.step (h : c.Recorded owner history) (hhonest : Honest every history)
    (hevery : c.updateEvery = every) (data : Samples) {sinceLast : Nat} (cleanup : Nat)
    (hsince : c.state.isUpdated = true → sinceLast = every) :
    Honest every (history ++ (Catalog.step data sinceLast cleanup c).lines.map (.sent owner)) ∧
      (Catalog.step data sinceLast cleanup c).chart.Recorded owner
        (history ++ (Catalog.step data sinceLast cleanup c).lines.map (.sent owner)) := by
  obtain ⟨hsent, hupdated⟩ := h.update hhonest hevery data hsince
  rcases Catalog.step_cases data sinceLast cleanup c with hstep | hstep | hstep <;> rw [hstep]
  · rw [List.map_nil, List.append_nil]
    exact ⟨hhonest, h⟩
  · exact ⟨hsent, hupdated⟩
  · have hopens := (c.update data sinceLast).chart.opens_obsoletion
    rw [List.map_append, ← List.append_assoc]
    refine ⟨hsent.append_lines owner (by simp [hopens]) fun a hline => ?_, hupdated.obsolete.append ?_⟩
    · cases mem_obsoletion hline
      exact (congrArg ChartHeader.updateEvery (c.header_update data sinceLast)).trans hevery
    · exact apart_of_opens (by simp [hopens]) owner owner

end Chart

namespace Catalog

/-! ## Charts that are built -/

/-- The charts that the operation builds, those in the places of others included. -/
def builtBy (c : Catalog) : Operation → List String
  | .create layout => ((c.create layout).1.charts.drop c.charts.length).map Chart.fullId
  | .addChart params =>
    match c.addChart params with
    | .ok (_, chart) => [chart.fullId]
    | .error _ => []
  | .replaceChart params =>
    match c.replaceChart params with
    | .ok (_, chart) => [chart.fullId]
    | .error _ => []
  | _ => []

/-- What operations that send nothing do. -/
def history (c : Catalog) : List Operation → List Event
  | [] => []
  | op :: rest => (c.builtBy op).map (.built .catalog) ++ (c.apply op).catalog.history rest

/-- One chart is built, and the other charts are those that were there before. -/
structure Builds (c changed : Catalog) (chart : Chart) : Prop where
  pending : chart.state = .pending
  kind : chart.kind = c.jobName
  others : ∀ other ∈ changed.charts, other = chart ∨ other ∈ c.charts ∧ other.id ≠ chart.id

variable {every : Nat} {c : Catalog} {history : List Event}

theorem builds_addChart {changed : Catalog} {params : Json} {chart : Chart}
    (h : c.addChart params = .ok (changed, chart)) : c.Builds changed chart := by
  obtain ⟨raw, hraw, hnew, rfl, rfl⟩ := addChart_cases h
  obtain ⟨hkind, hstate, -⟩ := built hraw
  have hfresh : ∀ held ∈ c.charts, held.id ≠ raw.id := by simpa [contains, get?] using hnew
  refine ⟨hstate, hkind, fun other hother => ?_⟩
  rcases List.mem_append.mp hother with hother | hother
  · exact .inr ⟨hother, hfresh other hother⟩
  · exact .inl (List.mem_singleton.mp hother)

theorem builds_replaceChart {changed : Catalog} {params : Json} {chart : Chart}
    (h : c.replaceChart params = .ok (changed, chart)) : c.Builds changed chart := by
  rcases replaceChart_cases h with ⟨raw, held, hraw, hget, rfl, rfl⟩ | hadd
  · obtain ⟨hkind, hstate, -⟩ := built hraw
    exact ⟨hstate, hkind, fun other => mem_put⟩
  · exact builds_addChart hadd

theorem charts_of_adds {changed : Catalog} (h : Relation.ReflTransGen Adds c changed) :
    ∃ fresh, changed.charts = c.charts ++ fresh ∧ ∀ chart ∈ fresh, chart.state = .pending := by
  induction h with
  | refl => exact ⟨[], (List.append_nil _).symm, fun _ hmem => by cases hmem⟩
  | @tail before changed _ hadds ih =>
    obtain ⟨fresh, hcharts, hpending⟩ := ih
    cases hadds with
    | push chart hkind hstate hdistinct hnew =>
      refine ⟨fresh ++ [{ chart with priority := before.nextPriority }], ?_, fun other hother => ?_⟩
      · rw [Catalog.push, hcharts, List.append_assoc]
      · rcases List.mem_append.mp hother with hother | hother
        · exact hpending other hother
        · cases List.mem_singleton.mp hother
          exact hstate

/-- The chart was built by the operation, or it is one that was there before, maybe changed or given up. -/
def BuiltOrKept (c : Catalog) (op : Operation) (chart : Chart) : Prop :=
  (chart.state = .pending ∧ chart.fullId ∈ c.builtBy op) ∨
    (chart.fullId ∉ c.builtBy op ∧ ∃ held ∈ c.charts, held.Changed chart ∨ chart = held.obsolete)

theorem Builds.builtOrKept {changed : Catalog} {built chart : Chart} (h : c.Builds changed built) (hc : c.Coherent)
    {op : Operation} (hbuilt : c.builtBy op = [built.fullId]) (hchart : chart ∈ changed.charts) :
    c.BuiltOrKept op chart := by
  rcases h.others chart hchart with rfl | ⟨hheld, hne⟩
  · exact .inl ⟨h.pending, hbuilt ▸ List.mem_singleton_self _⟩
  · refine .inr ⟨fun hmem => hne ?_, chart, hheld, .inl chart.changed_self⟩
    rw [hbuilt, List.mem_singleton] at hmem
    exact (Chart.fullId_eq_iff ((hc.kind chart hheld).trans h.kind.symm)).mp hmem

theorem BuiltOrKept.of_mem {op : Operation} {chart : Chart} (hchart : chart ∈ c.charts) (hbuilt : c.builtBy op = []) :
    c.BuiltOrKept op chart := by
  refine .inr ⟨?_, chart, hchart, .inl chart.changed_self⟩
  rw [hbuilt]
  exact List.not_mem_nil

theorem builtOrKept_create (hc : c.Coherent) (layout : Layout) {chart : Chart}
    (hchart : chart ∈ (c.create layout).1.charts) : c.BuiltOrKept (.create layout) chart := by
  have hadds := c.adds_createAll layout layout.order
  obtain ⟨fresh, hcharts, hpending⟩ := charts_of_adds hadds
  have hbuilt : c.builtBy (.create layout) = fresh.map Chart.fullId := by
    rw [builtBy, create, hcharts, List.drop_left]
  have hcreated : (c.create layout).1.Coherent := by
    have hchanges : Changes c (c.createAll layout layout.order).1 := c.changes_createAll layout layout.order
    exact (Changes.coherent hchanges hc).1
  have hcharts' : (c.create layout).1.charts = c.charts ++ fresh := hcharts
  have hnodup := hcreated.nodup
  rw [hcharts', List.map_append] at hnodup
  rw [hcharts'] at hchart
  rcases List.mem_append.mp hchart with hheld | hfresh
  · refine .inr ⟨fun hmem => ?_, chart, hheld, .inl chart.changed_self⟩
    rw [hbuilt] at hmem
    obtain ⟨other, hother, hid⟩ := List.mem_map.mp hmem
    have hkind : ∀ held ∈ c.charts ++ fresh, held.kind = (c.create layout).1.jobName := hcharts' ▸ hcreated.kind
    have hsame := (Chart.fullId_eq_iff ((hkind other (List.mem_append_right _ hother)).trans
      (hkind chart hchart).symm)).mp hid
    exact List.disjoint_of_nodup_append hnodup (List.mem_map_of_mem hheld) (hsame ▸ List.mem_map_of_mem hother)
  · exact .inl ⟨hpending chart hfresh, hbuilt ▸ List.mem_map_of_mem hfresh⟩

theorem builtOrKept (hc : c.Coherent) {op : Operation} (hop : op.isSilent = true) {chart : Chart}
    (hchart : chart ∈ (c.apply op).catalog.charts) : c.BuiltOrKept op chart := by
  cases op with
  | create layout =>
    refine builtOrKept_create hc layout ?_
    cases hcreate : c.create layout with
    | mk created error => cases error <;> simpa only [apply, hcreate] using hchart
  | addChart params =>
    cases hadd : c.addChart params with
    | error e =>
      simp only [apply, hadd, Effect.ofExcept] at hchart
      exact .of_mem hchart (by simp only [builtBy, hadd])
    | ok out =>
      simp only [apply, hadd, Effect.ofExcept] at hchart
      exact (builds_addChart hadd).builtOrKept hc (by simp only [builtBy, hadd]) hchart
  | replaceChart params =>
    cases hreplace : c.replaceChart params with
    | error e =>
      simp only [apply, hreplace, Effect.ofExcept] at hchart
      exact .of_mem hchart (by simp only [builtBy, hreplace])
    | ok out =>
      simp only [apply, hreplace, Effect.ofExcept] at hchart
      exact (builds_replaceChart hreplace).builtOrKept hc (by simp only [builtBy, hreplace]) hchart
  | obsoleteChart id =>
    have hcharts : chart ∈ (c.obsoleteChart id).1.charts := hchart
    rcases c.obsoleteChart_cases id with heq | ⟨held, hheld, -, heq⟩ <;> rw [heq] at hcharts
    · exact .of_mem hcharts rfl
    · rcases mem_put hcharts with rfl | ⟨hother, -⟩
      · exact .inr ⟨List.not_mem_nil, held, hheld, .inr rfl⟩
      · exact .of_mem hother rfl
  | update data sinceLast cleanup => cases hop
  | onChart id operation =>
    cases hget : c.get? id with
    | none =>
      simp only [apply, hget] at hchart
      exact .of_mem hchart rfl
    | some held =>
      simp only [apply, hget] at hchart
      rcases mem_put hchart with rfl | ⟨hother, -⟩
      · exact .inr ⟨List.not_mem_nil, held, (get?_some hget).1, .inl (held.silent_apply operation hop).2⟩
      · exact .of_mem hother rfl

/-! ## What the states of the charts say -/

/-- The catalog keeps to one interval, and the states of its charts say what became of them. -/
structure Recorded (every : Nat) (c : Catalog) (history : List Event) : Prop where
  coherent : c.Coherent
  uniform : c.Uniform every
  charts : ∀ chart ∈ c.charts, chart.Recorded .catalog history

theorem begins_built {e : Event} {owner o : Owner} {ids : List String} {id : String}
    (he : e ∈ ids.map (Event.built o)) : begins owner id e = false := by
  obtain ⟨other, -, rfl⟩ := List.mem_map.mp he
  rfl

theorem Recorded.apply (h : c.Recorded every history) {op : Operation} (hop : op.isSilent = true) :
    (c.apply op).catalog.Recorded every (history ++ (c.builtBy op).map (.built .catalog)) := by
  refine ⟨h.coherent.apply op, h.uniform.apply op, fun chart hchart => ?_⟩
  rcases builtOrKept h.coherent hop hchart with ⟨hstate, hbuilt⟩ | ⟨hapart, held, hheld, hkept⟩
  · exact Chart.recorded_of_pending hstate
      (begun_of_built history (List.mem_map_of_mem hbuilt) fun e he => begins_built he)
  · have hrecorded : chart.Recorded .catalog history := by
      rcases hkept with hchanged | rfl
      · exact (h.charts held hheld).changed hchanged
      · exact (h.charts held hheld).obsolete
    refine hrecorded.append fun e he => ⟨?_, begins_built he⟩
    rintro rfl
    obtain ⟨id, hid, heq⟩ := List.mem_map.mp he
    cases heq
    exact hapart hid

theorem Recorded.run (h : c.Recorded every history) (ops : List Operation)
    (hops : ∀ op ∈ ops, op.isSilent = true) :
    (c.run ops).catalog.Recorded every (history ++ c.history ops) := by
  induction ops generalizing c history with
  | nil => rwa [Catalog.history, List.append_nil]
  | cons op rest ih =>
    have hstep := h.apply (hops op List.mem_cons_self)
    rw [Catalog.history, ← List.append_assoc]
    exact ih hstep fun other hother => hops other (List.mem_cons_of_mem op hother)

theorem built_of_mem_history {ops : List Operation} {e : Event} (he : e ∈ c.history ops) :
    ∃ id, e = .built .catalog id := by
  induction ops generalizing c with
  | nil => cases he
  | cons op rest ih =>
    rw [Catalog.history] at he
    rcases List.mem_append.mp he with he | he
    · obtain ⟨id, -, rfl⟩ := List.mem_map.mp he
      exact ⟨id, rfl⟩
    · exact ih he

section Cycle

variable (data : Samples) {sinceLast : Nat} (cleanup : Nat)

/-- The lines that the charts send in a cycle. -/
def linesOf (data : Samples) (sinceLast cleanup : Nat) (charts : List Chart) : List Line :=
  charts.flatMap fun chart => (step data sinceLast cleanup chart).lines

theorem mem_of_opens_linesOf {charts : List Chart} {id : String}
    (h : .group id ∈ (linesOf data sinceLast cleanup charts).filterMap Line.opens?) :
    ∃ chart ∈ charts, chart.accepts data = true ∧ chart.fullId = id := by
  obtain ⟨line, hline, hopens⟩ := List.mem_filterMap.mp h
  obtain ⟨chart, hchart, hline⟩ := List.mem_flatMap.mp hline
  have hmem := List.mem_filterMap.mpr ⟨line, hline, hopens⟩
  rw [opens_step] at hmem
  split at hmem
  · next haccepts =>
    exact ⟨chart, hchart, haccepts, (chart.group_mem_openings.mp hmem).symm⟩
  · cases hmem

/-- The charts take their parts one after the other, and none is about another chart. -/
theorem recorded_steps (charts : List Chart) (hids : (charts.map Chart.fullId).Nodup)
    (hhonest : Honest every history)
    (hcharts : ∀ chart ∈ charts, chart.Recorded .catalog history ∧ chart.updateEvery = every ∧
      (chart.state.isUpdated = true → sinceLast = every)) :
    Honest every (history ++ (linesOf data sinceLast cleanup charts).map (.sent .catalog)) ∧
      ∀ chart ∈ charts, (step data sinceLast cleanup chart).chart.Recorded .catalog
        (history ++ (linesOf data sinceLast cleanup charts).map (.sent .catalog)) := by
  induction charts generalizing history with
  | nil =>
    rw [linesOf, List.flatMap_nil, List.map_nil, List.append_nil]
    exact ⟨hhonest, fun _ hmem => by cases hmem⟩
  | cons chart rest ih =>
    rw [List.map_cons, List.nodup_cons] at hids
    obtain ⟨hrecorded, hevery, hsince⟩ := hcharts chart List.mem_cons_self
    obtain ⟨hsent, hafter⟩ := hrecorded.step hhonest hevery data cleanup hsince
    have hapart : ∀ other ∈ rest, .group other.fullId ∉
        (step data sinceLast cleanup chart).lines.filterMap Line.opens? := by
      intro other hother hmem
      have hown : .group other.fullId ∈ (linesOf data sinceLast cleanup [chart]).filterMap Line.opens? := by
        rwa [linesOf, List.flatMap_singleton]
      obtain ⟨same, hsame, -, hid⟩ := mem_of_opens_linesOf data cleanup hown
      cases List.mem_singleton.mp hsame
      exact hids.1 (hid ▸ List.mem_map_of_mem hother)
    obtain ⟨hend, hmore⟩ := ih hids.2 hsent fun other hother => by
      obtain ⟨hother', hevery', hsince'⟩ := hcharts other (List.mem_cons_of_mem chart hother)
      exact ⟨hother'.append (Chart.apart_of_opens (hapart other hother) _ _), hevery', hsince'⟩
    rw [linesOf, List.flatMap_cons, List.map_append, ← List.append_assoc]
    refine ⟨hend, fun other hother => ?_⟩
    rcases List.mem_cons.mp hother with rfl | hother
    · have hid : (step data sinceLast cleanup other).chart.fullId = other.fullId :=
        Chart.fullId_of_header (header_step data sinceLast cleanup other)
      refine hafter.append (Chart.apart_of_opens (fun hmem => ?_) _ _)
      obtain ⟨next, hnext, -, hsame⟩ := mem_of_opens_linesOf data cleanup hmem
      exact hids.1 (hid ▸ hsame ▸ List.mem_map_of_mem hnext)
    · exact hmore other hother

theorem fullIds_nodup (hc : c.Coherent) : (c.charts.map Chart.fullId).Nodup := by
  have hids : c.charts.Pairwise fun a b => a.id ≠ b.id := List.pairwise_map.mp hc.nodup
  refine List.pairwise_map.mpr (hids.imp_of_mem fun ha hb hne heq => hne ?_)
  exact (Chart.fullId_eq_iff ((hc.kind _ ha).trans (hc.kind _ hb).symm)).mp heq

theorem Recorded.update (h : c.Recorded every history) (hhonest : Honest every history)
    (hsince : ∀ chart ∈ c.charts, chart.state.isUpdated = true → sinceLast = every) :
    Honest every (history ++ (c.update data sinceLast cleanup).lines.map (.sent .catalog)) ∧
      (c.update data sinceLast cleanup).catalog.Recorded every
        (history ++ (c.update data sinceLast cleanup).lines.map (.sent .catalog)) := by
  have hnone : ∀ id, .group id ∉ c.pending.filterMap Line.opens? := by
    intro id
    rw [h.uniform.opens_pending]
    exact List.not_mem_nil
  have hwaited : Honest every (history ++ c.pending.map (.sent .catalog)) := by
    refine hhonest.append_lines .catalog hnone fun a hline => ?_
    obtain ⟨b, heq, -, hevery⟩ := h.uniform.pending _ hline
    cases heq
    exact hevery
  obtain ⟨hsent, hcharts⟩ := recorded_steps data cleanup c.charts (fullIds_nodup h.coherent) hwaited
    fun chart hchart => ⟨(h.charts chart hchart).append (Chart.apart_of_opens (hnone _) _ _),
      h.uniform.charts chart hchart, hsince chart hchart⟩
  rw [lines_update, List.map_append, ← List.append_assoc]
  refine ⟨hsent, h.coherent.update data sinceLast cleanup, h.uniform.update data sinceLast cleanup,
    fun chart hchart => ?_⟩
  rw [charts_update] at hchart
  obtain ⟨held, hheld, rfl⟩ := List.mem_map.mp hchart
  exact hcharts held hheld

end Cycle

end Catalog

end ChartStream
