import ChartStream.Chart.Operation
import ChartStream.Proofs.Receiver

/-!
# A chart and what is known of it

What the lines of a chart do to a receiver, and the relation between the state of a chart and the view that
its stream gives of it. `Chart.Tracks` holds after every run of operations (`receiver_tracks_chart`).
-/

namespace ChartStream.Chart

set_option autoImplicit false

/-- The id by which the chart is known on the wire. -/
def wireId (c : Chart) : String :=
  Line.bare c.fullId

/-! ## What an operation can do -/

/-- The operation changes the chart and sends nothing. -/
def Operation.isTopology : Operation → Bool
  | .declare => false
  | .obsolete => false
  | .update _ _ => false
  | _ => true

/-- No two dimensions of the chart have the same id. -/
def Distinct (c : Chart) : Prop :=
  (c.dimensions.map (·.id)).Nodup

/-- The outcome of a change of the chart itself: other variables, or other dimensions and a refresh. The
dimensions stay distinct. -/
def Changed (c changed : Chart) : Prop :=
  (∃ vars, changed = { c with vars := vars }) ∨
    ∃ dimensions, changed = ({ c with dimensions := dimensions } : Chart).refresh ∧
      (c.Distinct → changed.Distinct)

theorem changed_self (c : Chart) : c.Changed c :=
  .inl ⟨c.vars, rfl⟩

theorem changed_insertDimension {c changed : Chart} {d : Dimension}
    (h : c.insertDimension d = .ok changed) : c.Changed changed := by
  unfold insertDimension at h
  split at h
  · next hnew =>
    cases h
    refine .inr ⟨_, rfl, fun hdistinct => ?_⟩
    have hfresh : ∀ e ∈ c.dimensions, e.id ≠ d.id := by simpa [dimension?] using hnew
    simpa [Distinct, refresh, List.nodup_append, or_imp, forall_and] using And.intro hdistinct hfresh
  · split at h
    · cases h
      refine .inr ⟨_, rfl, fun hdistinct => ?_⟩
      have hids : (c.dimensions.map fun e => if e.id = d.id then d else e).map (·.id) =
          c.dimensions.map (·.id) := by
        rw [List.map_map]
        refine List.map_congr_left fun e _ => ?_
        by_cases he : e.id = d.id <;> simp [he]
      rwa [Distinct, refresh, hids]
    · cases h

/-- The variable is added at the end if its id is new. -/
theorem addVariable_cases {c changed : Chart} {params : Json} (h : c.addVariable params = .ok changed) :
    changed = c ∨
      ∃ v : Variable, (∀ held ∈ c.vars, held.id ≠ v.id) ∧ changed = { c with vars := c.vars ++ [v] } := by
  unfold addVariable at h
  cases hv : Variable.ofParameters params with
  | error e =>
    rw [hv] at h
    cases h
  | ok v =>
    rw [hv] at h
    by_cases hany : (c.vars.any fun held => held.id = v.id) = true
    · exact .inl (by simpa [bind, Except.bind, pure, Except.pure, hany] using h.symm)
    · refine .inr ⟨v, by simpa using hany, ?_⟩
      simpa [bind, Except.bind, pure, Except.pure, hany] using h.symm

theorem changed_addVariable {c changed : Chart} {params : Json}
    (h : c.addVariable params = .ok changed) : c.Changed changed := by
  rcases addVariable_cases h with rfl | ⟨v, -, rfl⟩
  · exact changed_self _
  · exact .inl ⟨_, rfl⟩

theorem changed_modifyDimension? {c changed : Chart} {id : String} {change : Dimension → Dimension}
    (hchange : ∀ d, (change d).id = d.id) (h : c.modifyDimension? id change = some changed) :
    c.Changed changed := by
  unfold modifyDimension? at h
  split at h
  · cases h
    refine .inr ⟨_, rfl, fun hdistinct => ?_⟩
    have hids : (c.dimensions.map fun d => if d.id = id then change d else d).map (·.id) =
        c.dimensions.map (·.id) := by
      rw [List.map_map]
      refine List.map_congr_left fun d _ => ?_
      by_cases hd : d.id = id <;> simp [hd, hchange]
    rwa [Distinct, refresh, hids]
  · cases h

theorem changed_removeDimension? {c changed : Chart} {id : String}
    (h : c.removeDimension? id = some changed) : c.Changed changed := by
  unfold removeDimension? at h
  split at h
  · cases h
    exact .inr ⟨_, rfl, fun hdistinct => hdistinct.sublist (List.filter_sublist.map _)⟩
  · cases h

/-- The effect sends nothing and is a change of the chart. -/
def Silent (c : Chart) (effect : Effect) : Prop :=
  effect.lines = [] ∧ c.Changed effect.chart

theorem silent_ofExcept (c : Chart) (answer : Chart → Answer) (result : Except DeclarationError Chart)
    (h : ∀ changed, result = .ok changed → c.Changed changed) :
    c.Silent (Effect.ofExcept c answer result) := by
  cases result with
  | ok changed => exact ⟨rfl, h changed rfl⟩
  | error e => exact ⟨rfl, c.changed_self⟩

theorem silent_ofOption (c : Chart) (result : Option Chart)
    (h : ∀ changed, result = some changed → c.Changed changed) :
    c.Silent (Effect.ofOption c result) := by
  cases result with
  | some changed => exact ⟨rfl, h changed rfl⟩
  | none => exact ⟨rfl, c.changed_self⟩

theorem addDimension_of_ok (c : Chart) {params : Json} {d : Dimension} (h : Dimension.ofParameters params = .ok d) :
    c.apply (.addDimension params) = c.apply (.insertDimension d) := by
  simp only [apply, h]

theorem addDimension_of_error (c : Chart) {params : Json} {e : DeclarationError}
    (h : Dimension.ofParameters params = .error e) : c.apply (.addDimension params) = ⟨c, [], .failed e⟩ := by
  simp only [apply, h]

theorem silent_apply (c : Chart) (op : Operation) (h : op.isTopology = true) : c.Silent (c.apply op) := by
  cases op with
  | addDimension params =>
    cases hd : Dimension.ofParameters params with
    | ok d =>
      rw [c.addDimension_of_ok hd]
      exact c.silent_ofExcept _ _ fun _ => changed_insertDimension
    | error e =>
      rw [c.addDimension_of_error hd]
      exact ⟨rfl, c.changed_self⟩
  | insertDimension d => exact c.silent_ofExcept _ _ fun _ => changed_insertDimension
  | addVariable params => exact c.silent_ofExcept _ _ fun _ => changed_addVariable
  | removeDimension id retire =>
    refine c.silent_ofOption _ fun changed hc => ?_
    cases retire with
    | true =>
      have hretired : ∀ d : Dimension, d.retired.id = d.id := fun _ => rfl
      exact changed_modifyDimension? hretired hc
    | false => exact changed_removeDimension? hc
  | hideDimension id hidden => exact c.silent_ofOption _ fun _ => changed_modifyDimension? fun _ => rfl
  | refresh => exact ⟨rfl, .inr ⟨c.dimensions, rfl, id⟩⟩
  | declare => cases h
  | obsolete => cases h
  | update data sinceLast => cases h

theorem lines_of_isTopology (c : Chart) {op : Operation} (h : op.isTopology = true) : (c.apply op).lines = [] :=
  (c.silent_apply op h).1

theorem Changed.header {c changed : Chart} (h : c.Changed changed) :
    changed.toChartHeader = c.toChartHeader := by
  rcases h with ⟨vars, rfl⟩ | ⟨dimensions, rfl, -⟩ <;> rfl

theorem Changed.pending {c changed : Chart} (h : c.Changed changed) (hc : c.state = .pending) :
    changed.state = .pending := by
  rcases h with ⟨vars, rfl⟩ | ⟨dimensions, rfl, -⟩
  · exact hc
  · simp [refresh, hc, State.refreshed]

theorem Changed.distinct {c changed : Chart} (h : c.Changed changed) (hc : c.Distinct) :
    changed.Distinct := by
  rcases h with ⟨vars, rfl⟩ | ⟨dimensions, rfl, hdistinct⟩
  · exact hc
  · exact hdistinct hc

theorem wireId_of_header {c other : Chart} (h : other.toChartHeader = c.toChartHeader) :
    other.wireId = c.wireId := by
  rw [wireId, wireId, fullId, fullId, h]

theorem Changed.wireId {c changed : Chart} (h : c.Changed changed) : changed.wireId = c.wireId :=
  wireId_of_header h.header

@[simp] theorem wireId_obsolete (c : Chart) : c.obsolete.wireId = c.wireId := by
  unfold obsolete
  split <;> rfl

/-- A chart that is revived has another state, and its cycles without values are counted anew. -/
theorem revived_eq (c : Chart) : c.revived = { c with state := c.revived.state, missed := c.revived.missed } := by
  unfold revived
  split <;> rfl

theorem header_revived (c : Chart) : c.revived.toChartHeader = c.toChartHeader := by
  rw [revived_eq]

@[simp] theorem wireId_revived (c : Chart) : c.revived.wireId = c.wireId :=
  wireId_of_header c.header_revived

/-- A chart that is not declared before values was not given up. -/
theorem revived_of_push {c : Chart} (h : c.revived.state.push = false) : c.revived = c := by
  unfold revived at h ⊢
  split
  · next hobsolete =>
    rw [if_pos hobsolete] at h
    cases hstate : c.state with
    | obsoleted known updated => cases known <;> simp [refresh, State.refreshed, State.push, hstate] at h
    | _ => simp [refresh, State.refreshed, State.push, hstate] at h
  · rfl

theorem dimensions_revived (c : Chart) : c.revived.dimensions = c.dimensions := by
  rw [revived_eq]

/-- The chart whose values are sent in a cycle. -/
def known (c : Chart) : Chart :=
  if c.revived.state.push then c.revived.declared else c.revived

/-- The declaration that is sent before values, if one is due. -/
def overture (c : Chart) : List Line :=
  if c.revived.state.push then c.revived.declaration else []

/-- A declaration before values takes dimensions back besides. -/
theorem known_eq (c : Chart) : c.known =
    { c with dimensions := c.known.dimensions, state := c.known.state, missed := c.known.missed } := by
  unfold known
  rw [revived_eq]
  split <;> rfl

theorem header_known (c : Chart) : c.known.toChartHeader = c.toChartHeader := by
  rw [known_eq]

@[simp] theorem wireId_known (c : Chart) : c.known.wireId = c.wireId :=
  wireId_of_header c.header_known

theorem update_of_accepts {c : Chart} {data : Samples} (h : c.accepts data = true) (sinceLast : Nat) :
    c.update data sinceLast =
      { chart := { c.known with state := .collected, missed := 0 }
        lines := c.overture ++ c.known.group data (if c.known.state.isUpdated then sinceLast else 0)
        updated := true } := by
  rw [update, if_pos h]
  rfl

theorem update_of_not_accepts {c : Chart} {data : Samples} (h : c.accepts data = false)
    (sinceLast : Nat) :
    c.update data sinceLast = { chart := { c with missed := c.missed + 1 }, lines := [], updated := false } := by
  rw [update, if_neg (by simp [h])]

@[simp] theorem wireId_update (c : Chart) (data : Samples) (sinceLast : Nat) :
    (c.update data sinceLast).chart.wireId = c.wireId := by
  cases h : c.accepts data with
  | true =>
    rw [update_of_accepts h]
    exact c.wireId_known
  | false =>
    rw [update_of_not_accepts h]
    rfl

/-! ## What the lines of a chart do to a receiver -/

theorem readAll_dimensions (r : Receiver) (ds : List Dimension) (id : String) (h : r.current = some id) :
    (r.readAll (ds.map .dimension)).view id =
      { r.view id with listed := (r.view id).listed ++ ds } := by
  induction ds generalizing r with
  | nil => simp
  | cons d ds ih =>
    have hstep : r.read (.dimension d) = r.change id (View.declared d) := by simp [Receiver.read, h]
    rw [List.map_cons, Receiver.readAll_cons, hstep, ih (r.change id (View.declared d)) h]
    simp [View.declared]

theorem readAll_of_inert (r : Receiver) (lines : List Line)
    (h : ∀ line ∈ lines, line.fullId? = none ∧ line.dimension? = none) : r.readAll lines = r := by
  induction lines generalizing r with
  | nil => rfl
  | cons line rest ih =>
    have hline := h line List.mem_cons_self
    have hstep : r.read line = r := by
      cases line <;> simp_all [Line.fullId?, Line.dimension?, Receiver.read]
    rw [Receiver.readAll_cons, hstep, ih r fun l hl => h l (List.mem_cons_of_mem line hl)]

theorem mem_declaration {c : Chart} {line : Line} (h : line ∈ c.declaration) :
    line = c.announcement false ∨ line = .label c.jobLabel ∨ line = .labelsDone ∨
      (∃ d ∈ c.dimensions, line = .dimension d) ∨ ∃ v ∈ c.vars, ∃ n, line = .variable v.id n := by
  simp only [declaration, List.cons_append, List.mem_cons, List.mem_append, List.mem_map,
    List.mem_filterMap] at h
  rcases h with h | h | h | ⟨d, hd, rfl⟩ | ⟨v, hv, hn⟩
  · exact .inl h
  · exact .inr (.inl h)
  · exact .inr (.inr (.inl h))
  · exact .inr (.inr (.inr (.inl ⟨d, hd, rfl⟩)))
  · obtain ⟨n, -, rfl⟩ := Option.map_eq_some_iff.mp hn
    exact .inr (.inr (.inr (.inr ⟨v, hv, n, rfl⟩)))

theorem mem_overture {c : Chart} {line : Line} (h : line ∈ c.overture) : line ∈ c.revived.declaration := by
  unfold overture at h
  split at h
  · exact h
  · cases h

theorem no_group_overture (c : Chart) (id : String) (n : Nat) :
    .groupStart id n ∉ c.overture.map Line.onWire := by
  intro h
  obtain ⟨raw, hraw, hgroup⟩ := List.mem_map.mp h
  rcases mem_declaration (mem_overture hraw) with rfl | rfl | rfl | ⟨d, -, rfl⟩ | ⟨v, -, m, rfl⟩ <;>
    cases hgroup

/-- The lines that give the values of a chart. -/
def values (c : Chart) (data : Samples) : List Line :=
  (c.dimensions.filter fun d => !d.obsolete).filterMap (fun d => (d.sample? data).map d.setLine)
    ++ c.vars.filterMap fun v => (v.sample? data).map (.variable v.id)

theorem group_eq (c : Chart) (data : Samples) (sinceLast : Nat) :
    c.group data sinceLast = .groupStart c.fullId sinceLast :: (c.values data ++ [.groupEnd]) := by
  simp [group, values]

theorem isValue_values (c : Chart) (data : Samples) :
    ∀ line ∈ (c.values data).map Line.onWire, line.isValue = true := by
  intro line hl
  obtain ⟨raw, hraw, rfl⟩ := List.mem_map.mp hl
  rw [values, List.mem_append, List.mem_filterMap, List.mem_filterMap] at hraw
  rcases hraw with ⟨d, -, hd⟩ | ⟨v, -, hv⟩
  · obtain ⟨n, -, rfl⟩ := Option.map_eq_some_iff.mp hd
    rfl
  · obtain ⟨n, -, rfl⟩ := Option.map_eq_some_iff.mp hv
    rfl

theorem inert_of_isValue {line : Line} (h : line.isValue = true) :
    line.fullId? = none ∧ line.dimension? = none := by
  cases line <;> simp_all [Line.isValue, Line.fullId?, Line.dimension?]

theorem inert_vars (vars : List Variable) (value : Variable → Option Int) :
    ∀ line ∈ (vars.filterMap fun v => (value v).map (.variable v.id)).map Line.onWire,
      line.fullId? = none ∧ line.dimension? = none := by
  intro line hl
  obtain ⟨raw, hraw, rfl⟩ := List.mem_map.mp hl
  obtain ⟨v, -, hv⟩ := List.mem_filterMap.mp hraw
  obtain ⟨n, -, rfl⟩ := Option.map_eq_some_iff.mp hv
  exact ⟨rfl, rfl⟩

theorem onWire_declaration (c : Chart) :
    c.declaration.map Line.onWire = (c.announcement false).onWire :: .label (Line.bare c.jobLabel)
      :: .labelsDone :: ((c.dimensions.map Dimension.onWire).map .dimension
        ++ (c.vars.filterMap fun v => v.value.map (.variable v.id)).map Line.onWire) := by
  simp [declaration, Line.onWire, Function.comp_def]

theorem view_announcement (c : Chart) (obsolete : Bool) (r : Receiver) :
    (r.read (c.announcement obsolete).onWire).view c.wireId = (r.view c.wireId).announced obsolete := by
  simp only [announcement, Line.onWire, Announcement.onWire, Receiver.read, Receiver.change, wireId, if_pos]

theorem view_declaration (c : Chart) (r : Receiver) :
    (r.readAll (c.declaration.map Line.onWire)).view c.wireId =
      { standing := .live, listed := c.dimensions.map Dimension.onWire,
        groups := (r.view c.wireId).groups } := by
  rw [onWire_declaration, Receiver.readAll_cons, Receiver.readAll_cons, Receiver.readAll_cons, Receiver.readAll_append,
    readAll_of_inert _ _ (inert_vars c.vars fun v => v.value), readAll_dimensions _ _ c.wireId rfl]
  have hview : (((r.read (c.announcement false).onWire).read (.label (Line.bare c.jobLabel))).read
      .labelsDone).view c.wireId = (r.view c.wireId).announced false := c.view_announcement false r
  rw [hview]
  rfl

theorem view_group (c : Chart) (data : Samples) (sinceLast : Nat) (r : Receiver) :
    (r.readAll ((c.group data sinceLast).map Line.onWire)).view c.wireId =
      (r.view c.wireId).begun := by
  have hinert := fun line hl => inert_of_isValue (c.isValue_values data line hl)
  rw [group_eq, List.map_cons, List.map_append, Receiver.readAll_cons, Receiver.readAll_append,
    readAll_of_inert _ _ hinert]
  exact r.view_change_self c.wireId View.begun

theorem view_obsoletion (c : Chart) (r : Receiver) :
    (r.readAll (c.obsoletion.map Line.onWire)).view c.wireId =
      if c.isObsolete = false ∧ c.state.isCreated = true then
        { r.view c.wireId with standing := .obsolete }
      else r.view c.wireId := by
  unfold obsoletion
  cases c.isObsolete with
  | true => rfl
  | false =>
    cases c.state.isCreated with
    | false => rfl
    | true => exact c.view_announcement true r

/-- What a receiver knows of a chart whose declaration is not due. -/
def Told (c : Chart) (v : View) : Prop :=
  c.state.push = false → v.standing = .live ∧ v.dimensions = c.dimensions.map Dimension.onWire

theorem told_refresh (c : Chart) (v : View) : c.refresh.Told v := by
  intro h
  cases hstate : c.state with
  | obsoleted known updated => cases known <;> simp [refresh, State.refreshed, State.push, hstate] at h
  | _ => simp [refresh, State.refreshed, State.push, hstate] at h

theorem told_obsolete (c : Chart) (v : View) : c.obsolete.Told v := by
  intro h
  cases hobsolete : c.isObsolete with
  | true => cases hstate : c.state <;> simp_all [obsolete, isObsolete, State.isObsoleted, State.push]
  | false => simp [obsolete, hobsolete, State.obsolete, State.push] at h

theorem Told.changed {c changed : Chart} {v : View} (h : c.Told v) (hc : c.Changed changed) :
    changed.Told v := by
  rcases hc with ⟨vars, rfl⟩ | ⟨dimensions, rfl, -⟩
  · exact h
  · exact told_refresh _ v

/-- After the overture the values of the known chart can be sent. -/
theorem Told.known {c : Chart} {r : Receiver} (h : c.Told (r.view c.wireId)) :
    ((r.readAll (c.overture.map Line.onWire)).view c.wireId).standing = .live ∧
      ((r.readAll (c.overture.map Line.onWire)).view c.wireId).dimensions =
        c.known.dimensions.map Dimension.onWire := by
  cases hpush : c.revived.state.push with
  | true =>
    have hview := c.revived.view_declaration r
    rw [wireId_revived] at hview
    rw [overture, Chart.known, if_pos hpush, if_pos hpush, hview]
    refine ⟨rfl, ?_⟩
    simp only [View.dimensions, Chart.declared, List.filter_map]
    rfl
  | false =>
    have hlive := revived_of_push hpush
    have hneg : ¬ c.revived.state.push = true := by simp [hpush]
    rw [overture, Chart.known, if_neg hneg, if_neg hneg, hlive]
    exact h (hlive ▸ hpush)

theorem view_update (c : Chart) (data : Samples) (sinceLast : Nat) (r : Receiver) :
    (r.readAll ((c.update data sinceLast).lines.map Line.onWire)).view c.wireId =
      if c.accepts data then ((r.readAll (c.overture.map Line.onWire)).view c.wireId).begun
      else r.view c.wireId := by
  cases h : c.accepts data with
  | true =>
    have hgroup := c.known.view_group data (if c.known.state.isUpdated then sinceLast else 0)
      (r.readAll (c.overture.map Line.onWire))
    rw [wireId_known] at hgroup
    rw [update_of_accepts h, List.map_append, Receiver.readAll_append, hgroup]
    rfl
  | false =>
    rw [update_of_not_accepts h]
    rfl

theorem Told.update {c : Chart} {r : Receiver} (h : c.Told (r.view c.wireId)) (data : Samples)
    (sinceLast : Nat) :
    (c.update data sinceLast).chart.Told
      ((r.readAll ((c.update data sinceLast).lines.map Line.onWire)).view c.wireId) := by
  rw [view_update]
  cases haccepts : c.accepts data with
  | true =>
    rw [update_of_accepts haccepts]
    exact fun _ => h.known
  | false =>
    rw [update_of_not_accepts haccepts]
    exact h

theorem set_mem_values {c : Chart} {data : Samples} {x : String} {n : Int}
    (h : .set x n ∈ (c.values data).map Line.onWire) :
    ∃ d ∈ c.dimensions, d.obsolete = false ∧ d.onWire.id = x := by
  obtain ⟨raw, hraw, hx⟩ := List.mem_map.mp h
  rw [values, List.mem_append, List.mem_filterMap, List.mem_filterMap] at hraw
  rcases hraw with ⟨d, hd, hset⟩ | ⟨v, -, hv⟩
  · obtain ⟨m, -, rfl⟩ := Option.map_eq_some_iff.mp hset
    rw [Dimension.setLine, Line.onWire, Line.set.injEq] at hx
    obtain ⟨hmem, hlive⟩ := List.mem_filter.mp hd
    exact ⟨d, hmem, by simpa using hlive, hx.1⟩
  · obtain ⟨m, -, rfl⟩ := Option.map_eq_some_iff.mp hv
    cases hx

theorem accepts_update {c : Chart} {r : Receiver} (h : c.Told (r.view c.wireId)) (data : Samples)
    (sinceLast : Nat) : r.Accepts ((c.update data sinceLast).lines.map Line.onWire) := by
  cases haccepts : c.accepts data with
  | false =>
    rw [update_of_not_accepts haccepts]
    exact r.accepts_nil
  | true =>
    obtain ⟨hlive, hdims⟩ := h.known
    rw [update_of_accepts haccepts, List.map_append]
    refine (r.accepts_of_no_group (no_group_overture c)).append ?_
    rw [group_eq, List.map_cons, List.map_append]
    have hvalues := c.known.isValue_values data
    refine Receiver.accepts_group hvalues ⟨_, [], rfl, hvalues, ?_, ?_⟩
    · change ((r.readAll _).view c.known.wireId).standing = .live
      rw [wireId_known]
      exact hlive
    · intro x n hx
      change ∃ d ∈ ((r.readAll _).view c.known.wireId).dimensions, d.id = x
      rw [wireId_known, hdims]
      obtain ⟨d, hd, -, hid⟩ := set_mem_values hx
      exact ⟨d.onWire, List.mem_map_of_mem hd, hid⟩

/-! ## The state of a chart and its view -/

/-- The view that a receiver has of a chart, as far as the state of the chart tells it. -/
def Tracks (c : Chart) (v : View) : Prop :=
  (match c.state with
    | .pending => v.standing = .unknown
    | .created false _ => v.standing = .live ∧ v.dimensions = c.dimensions.map Dimension.onWire
    | .created true _ => v.standing = .live ∨ v.standing = .obsolete
    | .obsoleted false updated => v.standing = .unknown ∧ updated = false
    | .obsoleted true _ => v.standing = .obsolete)
  ∧ (c.state.isUpdated = true ↔ 0 < v.groups)

theorem Tracks.refresh {c : Chart} {v : View} (h : c.Tracks v) (dimensions : List Dimension) :
    ({ c with dimensions := dimensions } : Chart).refresh.Tracks v := by
  obtain ⟨hview, hupdated⟩ := h
  cases hstate : c.state with
  | pending => simp_all [Tracks, Chart.refresh, State.refreshed]
  | created push updated => cases push <;> simp_all [Tracks, Chart.refresh, State.refreshed, State.isUpdated]
  | obsoleted known updated =>
    cases known <;> simp_all [Tracks, Chart.refresh, State.refreshed, State.isUpdated]

theorem Tracks.changed {c changed : Chart} {v : View} (h : c.Tracks v) (hc : c.Changed changed) :
    changed.Tracks v := by
  rcases hc with ⟨vars, rfl⟩ | ⟨dimensions, rfl, -⟩
  · exact h
  · exact h.refresh dimensions

theorem Tracks.declared {c : Chart} {r : Receiver} (h : c.Tracks (r.view c.wireId)) :
    c.declared.Tracks ((r.readAll (c.declaration.map Line.onWire)).view c.wireId) := by
  rw [view_declaration]
  refine ⟨⟨rfl, ?_⟩, h.2⟩
  simp only [View.dimensions, Chart.declared, List.filter_map]
  rfl

theorem Tracks.obsolete {c : Chart} {r : Receiver} (h : c.Tracks (r.view c.wireId)) :
    c.obsolete.Tracks ((r.readAll (c.obsoletion.map Line.onWire)).view c.wireId) := by
  rw [view_obsoletion]
  obtain ⟨hview, hupdated⟩ := h
  cases hstate : c.state with
  | pending =>
    simp_all [Tracks, Chart.obsolete, isObsolete, State.isObsoleted, State.obsolete, State.isCreated,
      State.isUpdated]
  | created push updated =>
    cases push <;>
      simp_all [Tracks, Chart.obsolete, isObsolete, State.isObsoleted, State.obsolete, State.isCreated,
        State.isUpdated]
  | obsoleted known updated =>
    have hkept : c.obsolete = c := if_pos (by simp [isObsolete, hstate, State.isObsoleted])
    have hobsolete : c.isObsolete = true := by simp [isObsolete, hstate, State.isObsoleted]
    rw [hkept, hobsolete, if_neg (by simp)]
    exact ⟨hview, hupdated⟩

theorem Tracks.told {c : Chart} {v : View} (h : c.Tracks v) : c.Told v := by
  intro hpush
  obtain ⟨hview, -⟩ := h
  cases hstate : c.state with
  | created push updated =>
    rw [hstate] at hpush hview
    cases push with
    | false => exact hview
    | true => cases hpush
  | _ =>
    rw [hstate] at hpush
    cases hpush

theorem Tracks.update {c : Chart} {r : Receiver} (h : c.Tracks (r.view c.wireId)) (data : Samples)
    (sinceLast : Nat) :
    (c.update data sinceLast).chart.Tracks
      ((r.readAll ((c.update data sinceLast).lines.map Line.onWire)).view c.wireId) := by
  rw [view_update]
  cases haccepts : c.accepts data with
  | true =>
    rw [update_of_accepts haccepts]
    exact ⟨h.told.known, by simp [State.collected, State.isUpdated, View.begun]⟩
  | false =>
    rw [update_of_not_accepts haccepts]
    exact h

@[simp] theorem wireId_apply (c : Chart) (op : Operation) : (c.apply op).chart.wireId = c.wireId := by
  cases htopology : op.isTopology with
  | true => exact (c.silent_apply op htopology).2.wireId
  | false =>
    cases op with
    | declare => rfl
    | obsolete => exact c.wireId_obsolete
    | update data sinceLast => exact c.wireId_update data sinceLast
    | _ => cases htopology

theorem Tracks.apply {c : Chart} {r : Receiver} (h : c.Tracks (r.view c.wireId)) (op : Operation) :
    (c.apply op).chart.Tracks ((r.readAll ((c.apply op).lines.map Line.onWire)).view c.wireId) := by
  cases htopology : op.isTopology with
  | true =>
    obtain ⟨hlines, hchanged⟩ := c.silent_apply op htopology
    rw [hlines]
    exact h.changed hchanged
  | false =>
    cases op with
    | declare => exact h.declared
    | obsolete => exact h.obsolete
    | update data sinceLast => exact h.update data sinceLast
    | _ => cases htopology

/-! ## Runs -/

/-- What a sequence of operations did: the chart after it and the lines it sent. -/
structure Run where
  chart : Chart
  lines : List Line

/-- Applies operations in order. -/
def run (c : Chart) : List Operation → Run
  | [] => ⟨c, []⟩
  | op :: rest =>
    let effect := c.apply op
    let further := effect.chart.run rest
    ⟨further.chart, effect.lines ++ further.lines⟩

theorem run_append (c : Chart) (before after : List Operation) :
    c.run (before ++ after) =
      ⟨((c.run before).chart.run after).chart, (c.run before).lines ++ ((c.run before).chart.run after).lines⟩ := by
  induction before generalizing c with
  | nil => rfl
  | cons op rest ih => simp only [List.cons_append, run, ih, List.append_assoc]

theorem Tracks.run {c : Chart} {r : Receiver} (h : c.Tracks (r.view c.wireId)) (ops : List Operation) :
    (c.run ops).chart.Tracks ((r.readAll ((c.run ops).lines.map Line.onWire)).view c.wireId) := by
  induction ops generalizing c r with
  | nil => exact h
  | cons op rest ih =>
    have hstep := h.apply op
    rw [← wireId_apply c op] at hstep
    have hrest := ih hstep
    rw [wireId_apply] at hrest
    simpa [Chart.run, Receiver.readAll_append] using hrest

/-- The stream of a chart that starts without having been declared gives the view that its state tells,
after every sequence of operations: the chart is unknown as long as it is pending or was given up before
it was declared; it is live, with the dimensions of the chart, when no declaration is due; it is known when
one is due again; it is obsolete once it was given up; and values have been sent if a group has begun. If
no text holds a line break, reading line by line comes to the same. -/
theorem receiver_tracks_chart (c : Chart) (hstate : c.state = .pending) (ops : List Operation) :
    ∃ lines, Line.readAll? (Line.renderAll (c.run ops).lines) = some lines ∧
      (c.run ops).chart.Tracks ((({} : Receiver).readAll lines).view c.wireId) ∧
      ((∀ line ∈ (c.run ops).lines, line.Plain) →
        Line.readLines? (Line.renderAll (c.run ops).lines) = some lines) := by
  have hstart : c.Tracks (({} : Receiver).view c.wireId) := by
    rw [Tracks, hstate]
    exact ⟨rfl, by simp [State.isUpdated]⟩
  exact ⟨_, Line.readAll?_renderAll _, hstart.run ops, Line.readLines?_renderAll _⟩

theorem receiver_tracks_chart_given_up :
    ({ kind := "job", id := "c" } : Chart).state = .pending ∧
      ∃ lines, Line.readAll? (Line.renderAll (({ kind := "job", id := "c" } : Chart).run
          [.insertDimension (.ofId "it's"), .update ⟨[("it's", .integer 7)]⟩ 1,
            .removeDimension "it's" true, .obsolete, .refresh, .declare]).lines) = some lines ∧
        (({ kind := "job", id := "c" } : Chart).run
          [.insertDimension (.ofId "it's"), .update ⟨[("it's", .integer 7)]⟩ 1,
            .removeDimension "it's" true, .obsolete, .refresh, .declare]).chart.Tracks
          ((({} : Receiver).readAll lines).view "job.c") :=
  have h := receiver_tracks_chart { kind := "job", id := "c" } rfl
    [.insertDimension (.ofId "it's"), .update ⟨[("it's", .integer 7)]⟩ 1, .removeDimension "it's" true,
      .obsolete, .refresh, .declare]
  ⟨rfl, h.imp fun _ hlines => ⟨hlines.1, hlines.2.1⟩⟩

end ChartStream.Chart
