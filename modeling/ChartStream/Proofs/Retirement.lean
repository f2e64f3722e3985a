import ChartStream.Proofs.WireIds
import Mathlib.Data.List.TakeWhile

/-!
# Dimensions that are retired

A retired dimension stays until the next declaration, which takes it back. Main definitions: `Chart.Waiting`,
`Line.mentions`. Main result: `Chart.retired_dimension`.
-/

namespace ChartStream

set_option autoImplicit false

/-! ## Lines that mention a dimension -/

namespace Line

/-- The dimensions of the id that lines declare. -/
def mentions (id : String) (lines : List Line) : List Dimension :=
  (lines.filterMap dimension?).filter fun d => d.id = id

theorem mentions_append (id : String) (first second : List Line) :
    mentions id (first ++ second) = mentions id first ++ mentions id second := by
  rw [mentions, List.filterMap_append, List.filter_append]
  rfl

theorem listing_of_no_chart {lines : List Line} (h : ∀ line ∈ lines, line.isChart = false) :
    listing lines = lines.filterMap dimension? := by
  rw [listing, List.takeWhile_eq_self_iff.mpr fun line hline => by rw [h line hline]; rfl]

end Line

namespace Chart

/-! ## Operations and one dimension -/

/-- The dimension that the operation is to add. -/
def Operation.added? : Operation → Option Dimension
  | .addDimension params => (Dimension.ofParameters params).toOption
  | .insertDimension d => some d
  | _ => none

/-- The operation removes the dimension at once. -/
def Operation.drops (id : String) : Operation → Bool
  | .removeDimension other retire => other = id && !retire
  | _ => false

/-- The operation retires the dimension. -/
def Operation.retires (id : String) : Operation → Bool
  | .removeDimension other retire => other = id && retire
  | _ => false

/-- The operation neither adds the dimension nor removes it at once. -/
def Operation.spares (id : String) (op : Operation) : Bool :=
  (op.added?.all fun d => d.id != id) && !op.drops id

/-- The operation does not retire the dimension, nor add one that waits to be taken back. -/
def Operation.keepsLive (id : String) (op : Operation) : Bool :=
  (op.added?.all fun d => d.id != id || !d.obsolete) && !op.retires id

/-- The operation sends a declaration of the chart. -/
def declares (c : Chart) : Operation → Bool
  | .declare => true
  | .update data _ => c.accepts data && c.revived.state.push
  | _ => false

/-- What an operation that sends no declaration makes of dimensions: one for each of them, of the same id, or one
more, or all but those of an id. -/
inductive Reshaped (op : Operation) (ds : List Dimension) : List Dimension → Prop
  | mapped (f : Dimension → Dimension) (hid : ∀ e, (f e).id = e.id)
      (hobsolete : ∀ e, (f e).obsolete = e.obsolete ∨ op.retires e.id = true ∧ (f e).obsolete = true ∨
        op.added? = some (f e)) : Reshaped op ds (ds.map f)
  | appended (d : Dimension) (hadded : op.added? = some d) : Reshaped op ds (ds ++ [d])
  | dropped (id : String) (hdrops : op.drops id = true) : Reshaped op ds (ds.filter fun e => e.id != id)

theorem Reshaped.same (op : Operation) (ds : List Dimension) : Reshaped op ds ds := by
  have hmap : Reshaped op ds (ds.map id) := .mapped id (fun _ => rfl) fun _ => .inl rfl
  rwa [List.map_id] at hmap

/-- A dimension that is added is appended, or takes the place of the one of its id. -/
theorem reshaped_insertDimension {c changed : Chart} {d : Dimension} {op : Operation} (hop : op.added? = some d)
    (h : c.insertDimension d = .ok changed) : Reshaped op c.dimensions changed.dimensions := by
  unfold insertDimension at h
  split at h
  · cases h
    exact .appended d hop
  · split at h
    · cases h
      refine .mapped (fun e => if e.id = d.id then d else e) (fun e => ?_) fun e => ?_
      · split
        · next hid => exact hid.symm
        · rfl
      · split
        · exact .inr (.inr hop)
        · exact .inl rfl
    · cases h

theorem apply_of_added {c : Chart} {op : Operation} {d : Dimension} (hop : op.added? = some d) :
    c.apply op = c.apply (.insertDimension d) := by
  cases op with
  | addDimension params =>
    cases hd : Dimension.ofParameters params with
    | ok declared =>
      simp only [Operation.added?, hd, Except.toOption, Option.some.injEq] at hop
      rw [c.addDimension_of_ok hd, hop]
    | error e =>
      rw [Operation.added?, hd] at hop
      cases hop
  | insertDimension e => cases hop; rfl
  | _ => cases hop

theorem lines_of_added {c : Chart} {op : Operation} {d : Dimension} (hop : op.added? = some d) :
    (c.apply op).lines = [] := by
  rw [apply_of_added hop]
  exact c.lines_of_isTopology rfl

theorem reshaped_of_added {c : Chart} {op : Operation} {d : Dimension} (hop : op.added? = some d) :
    Reshaped op c.dimensions (c.apply op).chart.dimensions := by
  rw [apply_of_added hop]
  simp only [apply]
  cases hresult : c.insertDimension d with
  | error e => exact .same _ _
  | ok changed => exact reshaped_insertDimension hop hresult

theorem reshaped_ofOption {c : Chart} {op : Operation} {result : Option Chart}
    (h : ∀ changed, result = some changed → Reshaped op c.dimensions changed.dimensions) :
    Reshaped op c.dimensions (Effect.ofOption c result).chart.dimensions := by
  cases result with
  | some changed => exact h changed rfl
  | none => exact .same _ _

theorem reshaped_modifyDimension? {c changed : Chart} {op : Operation} {id : String} {change : Dimension → Dimension}
    (hid : ∀ e, (change e).id = e.id)
    (hobsolete : ∀ e, e.id = id →
      (change e).obsolete = e.obsolete ∨ op.retires e.id = true ∧ (change e).obsolete = true)
    (h : c.modifyDimension? id change = some changed) : Reshaped op c.dimensions changed.dimensions := by
  unfold modifyDimension? at h
  split at h
  · cases h
    refine .mapped (fun e => if e.id = id then change e else e) (fun e => ?_) fun e => ?_
    · split
      · exact hid e
      · rfl
    · split
      · next he => exact (hobsolete e he).imp_right .inl
      · exact .inl rfl
  · cases h

theorem dimensions_of_declares {c : Chart} {op : Operation} (h : c.declares op = true) :
    (c.apply op).chart.dimensions = c.dimensions.filter fun d => !d.obsolete := by
  cases op with
  | declare => rfl
  | update data sinceLast =>
    obtain ⟨haccepts, hpush⟩ := Bool.and_eq_true_iff.mp h
    simp only [apply, update_of_accepts haccepts, known, hpush, if_true, declared, dimensions_revived]
  | _ => cases h

theorem reshaped_apply {c : Chart} {op : Operation} (h : c.declares op = false) :
    Reshaped op c.dimensions (c.apply op).chart.dimensions := by
  cases op with
  | addDimension params =>
    cases hd : Dimension.ofParameters params with
    | ok d =>
      have hadded : Operation.added? (.addDimension params) = some d := by
        simp only [Operation.added?, hd, Except.toOption]
      exact reshaped_of_added hadded
    | error e =>
      rw [c.addDimension_of_error hd]
      exact .same _ _
  | insertDimension d => exact reshaped_of_added rfl
  | addVariable params =>
    simp only [apply]
    cases hresult : c.addVariable params with
    | error e => exact .same _ _
    | ok changed =>
      rcases addVariable_cases hresult with rfl | ⟨v, -, rfl⟩
      · exact .same _ _
      · exact .same _ _
  | removeDimension id retire =>
    refine reshaped_ofOption fun changed hresult => ?_
    cases retire with
    | true =>
      have hid : ∀ e : Dimension, e.retired.id = e.id := fun _ => rfl
      refine reshaped_modifyDimension? hid (fun e he => .inr ⟨?_, rfl⟩) hresult
      simp [Operation.retires, he]
    | false =>
      rw [if_neg (by simp), removeDimension?] at hresult
      split at hresult
      · cases hresult
        exact .dropped id (by simp [Operation.drops])
      · cases hresult
  | hideDimension id hidden =>
    exact reshaped_ofOption fun changed => reshaped_modifyDimension? (fun _ => rfl) fun _ _ => .inl rfl
  | refresh => exact .same _ _
  | declare => cases h
  | obsolete =>
    simp only [apply, obsolete]
    split <;> exact .same _ _
  | update data sinceLast =>
    cases haccepts : c.accepts data with
    | false =>
      simp only [apply, update_of_not_accepts haccepts]
      exact .same _ _
    | true =>
      have hpush : c.revived.state.push = false := by simpa [declares, haccepts] using h
      have hdimensions : (c.apply (.update data sinceLast)).chart.dimensions = c.dimensions := by
        simp [apply, update_of_accepts haccepts, known, hpush, dimensions_revived]
      rw [hdimensions]
      exact .same _ _

/-! ## The dimension of an id -/

/-- The dimensions of the id. -/
def entries (c : Chart) (id : String) : List Dimension :=
  c.dimensions.filter fun d => d.id = id

/-- The dimension is there and waits to be taken back. -/
def Waiting (c : Chart) (id : String) : Prop :=
  ∃ d, c.entries id = [d] ∧ d.obsolete = true

/-- The dimension is not retired. -/
def KeptLive (c : Chart) (id : String) : Prop :=
  ∀ d ∈ c.entries id, d.obsolete = false

/-- The ids of the dimensions in front of that of the id. -/
def ahead (c : Chart) (id : String) : List String :=
  (c.dimensions.map (·.id)).takeWhile (· != id)

variable {c : Chart} {op : Operation} {id : String}

theorem contains_iff : c.contains id = true ↔ c.entries id ≠ [] := by
  rw [contains, dimension?, List.find?_isSome, entries, Ne, List.filter_eq_nil_iff]
  simp

theorem mem_entries {d : Dimension} : d ∈ c.entries id ↔ d ∈ c.dimensions ∧ d.id = id := by
  simp [entries]

theorem entries_of_declares (h : c.declares op = true) :
    (c.apply op).chart.entries id = (c.entries id).filter fun d => !d.obsolete := by
  rw [entries, dimensions_of_declares h, List.filter_comm]
  rfl

theorem added_ne_of_spares {d : Dimension} (h : op.spares id = true) (hadded : op.added? = some d) : d.id ≠ id := by
  simp [Operation.spares, hadded] at h
  exact h.1

/-- An operation that spares the dimension and sends no declaration leaves it, unless it retires it. -/
theorem entries_of_spares (hspares : op.spares id = true) (h : c.declares op = false) :
    ∃ f : Dimension → Dimension, (∀ e, e.id = id → e.obsolete = true → (f e).obsolete = true) ∧
      (c.apply op).chart.entries id = (c.entries id).map f := by
  have hreshaped := reshaped_apply h
  rw [entries, entries]
  generalize (c.apply op).chart.dimensions = ds at hreshaped ⊢
  cases hreshaped with
  | mapped f hid hobsolete =>
    refine ⟨f, fun e he hgone => ?_, by simp [List.filter_map, Function.comp_def, hid]⟩
    rcases hobsolete e with hsame | ⟨-, hretired⟩ | hadded
    · exact hsame.trans hgone
    · exact hretired
    · exact absurd ((hid e).trans he) (added_ne_of_spares hspares hadded)
  | appended d hadded =>
    have hne := added_ne_of_spares hspares hadded
    exact ⟨fun e => e, fun e _ hgone => hgone, by simp [List.filter_append, hne]⟩
  | dropped other hdrops =>
    have hne : other ≠ id := by
      rintro rfl
      simp [Operation.spares, hdrops] at hspares
    refine ⟨fun e => e, fun e _ hgone => hgone, ?_⟩
    rw [List.filter_filter, List.map_id']
    refine List.filter_congr fun e _ => ?_
    by_cases he : e.id = id <;> simp [he, Ne.symm hne]

theorem Waiting.apply (h : c.Waiting id) (hspares : op.spares id = true) (hdeclares : c.declares op = false) :
    (c.apply op).chart.Waiting id := by
  obtain ⟨d, hd, hobsolete⟩ := h
  obtain ⟨f, hf, hentries⟩ := entries_of_spares hspares hdeclares
  have hid : d.id = id := (mem_entries.mp (hd ▸ List.mem_singleton_self d)).2
  exact ⟨f d, by rw [hentries, hd]; rfl, hf d hid hobsolete⟩

theorem Waiting.declared (h : c.Waiting id) (hdeclares : c.declares op = true) :
    (c.apply op).chart.entries id = [] := by
  obtain ⟨d, hd, hobsolete⟩ := h
  rw [entries_of_declares hdeclares, hd]
  simp [hobsolete]

/-- A dimension that is gone stays away. -/
theorem gone_apply (h : c.entries id = []) (hspares : op.spares id = true) :
    (c.apply op).chart.entries id = [] := by
  cases hdeclares : c.declares op with
  | true => rw [entries_of_declares hdeclares, h]; rfl
  | false =>
    obtain ⟨f, -, hentries⟩ := entries_of_spares hspares hdeclares
    rw [hentries, h]
    rfl

theorem KeptLive.apply (h : c.KeptLive id) (hop : op.keepsLive id = true) : (c.apply op).chart.KeptLive id := by
  obtain ⟨hadds, hretires⟩ := Bool.and_eq_true_iff.mp hop
  have hlive : ∀ d, op.added? = some d → d.id = id → d.obsolete = false := by
    intro d hadded hid
    simpa [hadded, hid] using hadds
  intro d hd
  obtain ⟨hmem, hid⟩ := mem_entries.mp hd
  have hheld : ∀ e ∈ c.dimensions, e.id = id → e.obsolete = false := fun e he hid => h e (mem_entries.mpr ⟨he, hid⟩)
  cases hdeclares : c.declares op with
  | true =>
    rw [dimensions_of_declares hdeclares] at hmem
    simpa using (List.mem_filter.mp hmem).2
  | false =>
    have hreshaped := reshaped_apply hdeclares
    generalize (c.apply op).chart.dimensions = ds at hreshaped hmem
    cases hreshaped with
    | mapped f hfid hobsolete =>
      obtain ⟨e, he, rfl⟩ := List.mem_map.mp hmem
      have heid : e.id = id := (hfid e).symm.trans hid
      rcases hobsolete e with hsame | ⟨hretired, -⟩ | hadded
      · exact hsame.trans (hheld e he heid)
      · rw [heid] at hretired
        simp [hretired] at hretires
      · exact hlive (f e) hadded hid
    | appended added hadded =>
      rcases List.mem_append.mp hmem with hmem | hmem
      · exact hheld d hmem hid
      · cases List.mem_singleton.mp hmem
        exact hlive d hadded hid
    | dropped other hdrops => exact hheld d (List.mem_filter.mp hmem).1 hid

/-- The dimension keeps its place: what is in front of it was there before. -/
theorem ahead_apply (hheld : c.entries id ≠ []) (hspares : op.spares id = true) (hdeclares : c.declares op = false) :
    ((c.apply op).chart.ahead id).Sublist (c.ahead id) ∧
      ((∀ other, op.drops other = false) → (c.apply op).chart.ahead id = c.ahead id) := by
  have hreshaped := reshaped_apply hdeclares
  rw [ahead, ahead]
  generalize (c.apply op).chart.dimensions = ds at hreshaped ⊢
  cases hreshaped with
  | mapped f hid hobsolete =>
    have hids : (c.dimensions.map f).map (·.id) = c.dimensions.map (·.id) := by
      simp [Function.comp_def, hid]
    rw [hids]
    exact ⟨List.Sublist.refl _, fun _ => rfl⟩
  | appended d hadded =>
    obtain ⟨e, he⟩ := List.exists_mem_of_ne_nil _ hheld
    obtain ⟨hmem, rfl⟩ := mem_entries.mp he
    have hshort : ((c.dimensions.map (·.id)).takeWhile (· != e.id)).length ≠ (c.dimensions.map (·.id)).length := by
      intro hlength
      have hall := List.takeWhile_eq_self_iff.mp ((List.takeWhile_sublist _).eq_of_length hlength)
      simpa using hall e.id (List.mem_map_of_mem hmem)
    rw [List.map_append, List.takeWhile_append, if_neg hshort]
    exact ⟨List.Sublist.refl _, fun _ => rfl⟩
  | dropped other hdrops =>
    have hne : other ≠ id := by
      rintro rfl
      simp [Operation.spares, hdrops] at hspares
    have hids : (c.dimensions.filter fun e => e.id != other).map (·.id) =
        (c.dimensions.map (·.id)).filter (· != other) := by
      rw [List.filter_map]
      rfl
    have hfront : (fun a : String => !(a != other) || a != id) = (· != id) := by
      funext a
      by_cases ha : a = other <;> simp [ha, hne]
    rw [hids, List.takeWhile_filter, hfront]
    exact ⟨List.filter_sublist, fun hnone => absurd (hnone other) (by simp [hdrops])⟩

/-! ## What an operation says of a dimension -/

theorem filterMap_vars (vars : List Variable) (value : Variable → Option Int) :
    ((vars.filterMap fun v => (value v).map (.variable v.id)).map Line.onWire).filterMap Line.dimension? = [] :=
  List.filterMap_eq_nil_iff.mpr fun line hline => (inert_vars vars value line hline).2

theorem filterMap_group (c : Chart) (data : Samples) (sinceLast : Nat) :
    ((c.group data sinceLast).map Line.onWire).filterMap Line.dimension? = [] := by
  have hvalues : ((c.values data).map Line.onWire).filterMap Line.dimension? = [] :=
    List.filterMap_eq_nil_iff.mpr fun line hline => (inert_of_isValue (c.isValue_values data line hline)).2
  rw [group_eq, List.map_cons, List.map_append]
  show (_ ++ [Line.groupEnd]).filterMap Line.dimension? = []
  rw [List.filterMap_append, hvalues]
  rfl

theorem isChart_group (c : Chart) (data : Samples) (sinceLast : Nat) :
    ∀ line ∈ (c.group data sinceLast).map Line.onWire, line.isChart = false := by
  intro line hline
  rw [group_eq, List.map_cons, List.map_append] at hline
  rcases List.mem_cons.mp hline with rfl | hline
  · rfl
  · rcases List.mem_append.mp hline with hline | hline
    · have hkind := c.isValue_values data line hline
      cases line <;> simp_all [Line.isValue, Line.isChart]
    · cases List.mem_singleton.mp hline
      rfl

/-- A declaration begins with the chart and goes on with its dimensions. -/
theorem declaration_shape (c : Chart) :
    ∃ a rest, c.declaration.map Line.onWire = .chart a :: rest ∧ a.obsolete = false ∧
      (∀ line ∈ rest, line.isChart = false) ∧ rest.filterMap Line.dimension? = c.dimensions.map Dimension.onWire := by
  refine ⟨_, _, c.onWire_declaration, rfl, fun line hline => ?_, ?_⟩
  · simp only [List.mem_cons, List.mem_append] at hline
    rcases hline with rfl | rfl | hline | hline
    · rfl
    · rfl
    · obtain ⟨d, -, rfl⟩ := List.mem_map.mp hline
      rfl
    · obtain ⟨raw, hraw, rfl⟩ := List.mem_map.mp hline
      obtain ⟨v, -, hv⟩ := List.mem_filterMap.mp hraw
      obtain ⟨n, -, rfl⟩ := Option.map_eq_some_iff.mp hv
      rfl
  · show ((c.dimensions.map Dimension.onWire).map Line.dimension ++ _).filterMap Line.dimension? = _
    rw [List.filterMap_append, filterMap_vars, List.append_nil, List.filterMap_map]
    exact List.filterMap_some

/-- What is sent with a declaration is one chart, which is live, and its dimensions. -/
theorem lines_of_declares (h : c.declares op = true) :
    ∃ a rest, (c.apply op).lines.map Line.onWire = .chart a :: rest ∧ a.obsolete = false ∧
      (∀ line ∈ rest, line.isChart = false) ∧ rest.filterMap Line.dimension? = c.dimensions.map Dimension.onWire := by
  cases op with
  | declare => exact c.declaration_shape
  | update data sinceLast =>
    obtain ⟨haccepts, hpush⟩ := Bool.and_eq_true_iff.mp h
    obtain ⟨a, rest, hlines, hlive, hchart, hlisted⟩ := c.revived.declaration_shape
    rw [dimensions_revived] at hlisted
    refine ⟨a, rest ++ (c.known.group data (if c.known.state.isUpdated then sinceLast else 0)).map Line.onWire, ?_,
      hlive, fun line hline => ?_, ?_⟩
    · simp only [apply, update_of_accepts haccepts, overture, hpush, if_true, List.map_append, hlines]
      rfl
    · exact (List.mem_append.mp hline).elim (hchart line) (isChart_group _ data _ line)
    · rw [List.filterMap_append, filterMap_group, List.append_nil, hlisted]
  | _ => cases h

/-- Without a declaration no chart is announced as live, and no dimension is declared. -/
theorem lines_of_not_declares (h : c.declares op = false) :
    (∀ a, .chart a ∈ (c.apply op).lines.map Line.onWire → a.obsolete = true) ∧
      ((c.apply op).lines.map Line.onWire).filterMap Line.dimension? = [] := by
  cases op with
  | declare => cases h
  | obsolete =>
    constructor
    · intro a hmem
      obtain ⟨raw, hraw, hline⟩ := List.mem_map.mp hmem
      rw [mem_obsoletion hraw] at hline
      cases hline
      rfl
    · refine List.filterMap_eq_nil_iff.mpr fun line hline => ?_
      obtain ⟨raw, hraw, rfl⟩ := List.mem_map.mp hline
      rw [mem_obsoletion hraw]
      rfl
  | update data sinceLast =>
    cases haccepts : c.accepts data with
    | false =>
      simp only [apply, update_of_not_accepts haccepts]
      simp
    | true =>
      have hpush : c.revived.state.push = false := by simpa [declares, haccepts] using h
      have hlines : (c.apply (.update data sinceLast)).lines.map Line.onWire =
          (c.known.group data (if c.known.state.isUpdated then sinceLast else 0)).map Line.onWire := by
        simp [apply, update_of_accepts haccepts, overture, hpush]
      rw [hlines]
      exact ⟨fun a hmem => absurd (isChart_group _ data _ _ hmem) (by simp [Line.isChart]), filterMap_group _ data _⟩
  | _ =>
    rw [c.lines_of_isTopology rfl]
    simp

theorem mentions_of_not_declares (h : c.declares op = false) :
    Line.mentions id ((c.apply op).lines.map Line.onWire) = [] := by
  rw [Line.mentions, (lines_of_not_declares h).2]
  rfl

/-- No text of the chart holds a line break, and no id of it or of its dimensions a quote. -/
structure Clean (c : Chart) : Prop where
  plain : c.Plain
  unquoted : c.Unquoted

instance (c : Chart) : Decidable c.Clean :=
  decidable_of_iff (c.Plain ∧ c.Unquoted) ⟨fun h => ⟨h.1, h.2⟩, fun h => ⟨h.plain, h.unquoted⟩⟩

theorem Clean.id_onWire (h : c.Clean) {d : Dimension} (hd : d ∈ c.dimensions) : d.onWire.id = d.id :=
  Line.bare_of_no_quote (h.unquoted.2 d hd)

theorem Clean.mentions (h : c.Clean) (id : String) {lines : List Line}
    (hlines : lines.filterMap Line.dimension? = c.dimensions.map Dimension.onWire) :
    Line.mentions id lines = (c.entries id).map Dimension.onWire := by
  rw [Line.mentions, hlines, List.filter_map, entries]
  congr 1
  exact List.filter_congr fun d hd => by rw [Function.comp_apply, h.id_onWire hd]

/-- Only a declaration mentions dimensions. -/
theorem Clean.mentions_apply (h : c.Clean) (op : Operation) (id : String) :
    Line.mentions id ((c.apply op).lines.map Line.onWire) =
      if c.declares op then (c.entries id).map Dimension.onWire else [] := by
  cases hdeclares : c.declares op with
  | true =>
    obtain ⟨a, rest, hlines, -, -, hlisted⟩ := lines_of_declares hdeclares
    rw [hlines, ← List.singleton_append, Line.mentions_append, h.mentions id hlisted]
    rfl
  | false => exact mentions_of_not_declares hdeclares

/-- Only dimensions that are not retired are set. -/
theorem Clean.set_apply (h : c.Clean) {n : Int} (hset : .set id n ∈ (c.apply op).lines.map Line.onWire) :
    ∃ d ∈ c.entries id, d.obsolete = false := by
  have hdeclaration : ∀ other : Chart, .set id n ∉ other.declaration.map Line.onWire := by
    intro other hmem
    obtain ⟨raw, hraw, hline⟩ := List.mem_map.mp hmem
    rcases mem_declaration hraw with rfl | rfl | rfl | ⟨d, -, rfl⟩ | ⟨v, -, m, rfl⟩ <;> cases hline
  cases op with
  | declare => exact absurd hset (hdeclaration c)
  | obsolete =>
    obtain ⟨raw, hraw, hline⟩ := List.mem_map.mp hset
    rw [mem_obsoletion hraw] at hline
    cases hline
  | update data sinceLast =>
    simp only [apply] at hset
    cases haccepts : c.accepts data with
    | false =>
      rw [update_of_not_accepts haccepts] at hset
      cases hset
    | true =>
      rw [update_of_accepts haccepts, List.map_append, List.mem_append] at hset
      rcases hset with hset | hset
      · unfold overture at hset
        split at hset
        · exact absurd hset (hdeclaration _)
        · cases hset
      · rw [group_eq, List.map_cons, List.map_append] at hset
        have hvalue : .set id n ∈ (c.known.values data).map Line.onWire := by
          simpa [Line.onWire] using hset
        obtain ⟨d, hd, hlive, hid⟩ := set_mem_values hvalue
        have hmem : d ∈ c.dimensions := by
          unfold known at hd
          split at hd
          · exact c.dimensions_revived ▸ (List.mem_filter.mp hd).1
          · exact c.dimensions_revived ▸ hd
        exact ⟨d, mem_entries.mpr ⟨hmem, (h.id_onWire hmem).symm.trans hid⟩, hlive⟩
  | _ =>
    rw [c.lines_of_isTopology rfl] at hset
    cases hset

theorem Clean.plain_apply (h : c.Clean) (op : Operation) : ∀ line ∈ (c.apply op).lines, line.Plain := by
  cases op with
  | declare => exact plain_declaration h.plain
  | obsolete => exact plain_obsoletion h.plain
  | update data sinceLast => exact plain_update h.plain data sinceLast
  | _ =>
    rw [c.lines_of_isTopology rfl]
    simp

theorem headed_apply (c : Chart) (op : Operation) : Line.Headed ((c.apply op).lines.map Line.onWire) := by
  cases op with
  | declare => exact c.within_declaration.headed
  | obsolete => exact c.within_obsoletion.headed
  | update data sinceLast => exact (c.within_update data sinceLast).headed
  | _ =>
    rw [c.lines_of_isTopology rfl]
    trivial

/-! ## Runs -/

/-- Every chart on the way of a run satisfies `P`. -/
def Along (P : Chart → Prop) (c : Chart) : List Operation → Prop
  | [] => P c
  | op :: rest => P c ∧ Along P (c.apply op).chart rest

instance Along.decidable {P : Chart → Prop} [DecidablePred P] (c : Chart) :
    (ops : List Operation) → Decidable (Along P c ops)
  | [] => inferInstanceAs (Decidable (P c))
  | op :: rest =>
    have := Along.decidable (P := P) (c.apply op).chart rest
    inferInstanceAs (Decidable (P c ∧ Along P (c.apply op).chart rest))

theorem Along.of_append {P : Chart → Prop} {before after : List Operation} (h : Along P c (before ++ after)) :
    Along P c before ∧ Along P (c.run before).chart after := by
  induction before generalizing c with
  | nil =>
    refine ⟨?_, h⟩
    cases after with
    | nil => exact h
    | cons op rest => exact h.1
  | cons op rest ih =>
    obtain ⟨hbefore, hafter⟩ := ih h.2
    exact ⟨⟨h.1, hbefore⟩, hafter⟩

theorem plain_run {ops : List Operation} (hclean : Along Clean c ops) : ∀ line ∈ (c.run ops).lines, line.Plain := by
  induction ops generalizing c with
  | nil => exact fun line hline => by cases hline
  | cons op rest ih =>
    intro line hline
    rcases List.mem_append.mp hline with hline | hline
    · exact hclean.1.plain_apply op line hline
    · exact ih hclean.2 line hline

theorem headed_run (c : Chart) (ops : List Operation) : Line.Headed ((c.run ops).lines.map Line.onWire) := by
  induction ops generalizing c with
  | nil => trivial
  | cons op rest ih =>
    rw [run, List.map_append]
    exact (c.headed_apply op).append (ih _)

/-- A dimension that is gone, and not added again, is not heard of. -/
theorem gone_run (h : c.entries id = []) {ops : List Operation} (hspares : ∀ op ∈ ops, op.spares id = true)
    (hclean : Along Clean c ops) :
    (∀ n, .set id n ∉ (c.run ops).lines.map Line.onWire) ∧
      Line.mentions id ((c.run ops).lines.map Line.onWire) = [] ∧ (c.run ops).chart.entries id = [] := by
  induction ops generalizing c with
  | nil => exact ⟨fun n hset => (by cases hset), rfl, h⟩
  | cons op rest ih =>
    obtain ⟨hsets, hmentions, hend⟩ := ih (gone_apply h (hspares op List.mem_cons_self))
      (fun other hother => hspares other (List.mem_cons_of_mem op hother)) hclean.2
    rw [run, List.map_append, Line.mentions_append]
    refine ⟨fun n hset => ?_, ?_, hend⟩
    · rcases List.mem_append.mp hset with hset | hset
      · obtain ⟨d, hd, -⟩ := hclean.1.set_apply hset
        rw [h] at hd
        cases hd
      · exact hsets n hset
    · rw [hclean.1.mentions_apply, h, hmentions, List.map_nil, ite_self]
      rfl

/-- What became of a retired dimension in a run with these lines, which led to this chart. -/
inductive Outcome (id : String) (lines : List Line) (c : Chart) : Prop
  /-- No declaration was sent, and the dimension still waits for one. -/
  | waiting (hnone : ∀ a, .chart a ∈ lines → a.obsolete = true) (hunheard : Line.mentions id lines = [])
      (hwaiting : c.Waiting id)
  /-- The first declaration took the dimension back. It was not heard of otherwise, and it is gone. -/
  | takenBack (before : List Line) (a : Announcement) (after : List Line) (d : Dimension)
      (hlines : lines = before ++ .chart a :: after) (hfirst : ∀ b, .chart b ∈ before → b.obsolete = true)
      (hlive : a.obsolete = false) (hlisted : (Line.listing after).filter (fun e => e.id = id) = [d])
      (hobsolete : d.obsolete = true) (honce : Line.mentions id lines = [d]) (hgone : c.contains id = false)

theorem Outcome.after {lines first : List Line} (h : Outcome id lines c)
    (hnone : ∀ a, .chart a ∈ first → a.obsolete = true) (hunheard : Line.mentions id first = []) :
    Outcome id (first ++ lines) c := by
  have hmentions : Line.mentions id (first ++ lines) = Line.mentions id lines := by
    rw [Line.mentions_append, hunheard, List.nil_append]
  cases h with
  | waiting hlater hrest hwaiting =>
    refine .waiting (fun a hmem => ?_) (hmentions.trans hrest) hwaiting
    exact (List.mem_append.mp hmem).elim (hnone a) (hlater a)
  | takenBack before a after d hlines hfirst hlive hlisted hobsolete honce hgone =>
    refine .takenBack (first ++ before) a after d ?_ (fun b hmem => ?_) hlive hlisted hobsolete (hmentions.trans honce)
      hgone
    · rw [hlines, List.append_assoc]
    · exact (List.mem_append.mp hmem).elim (hnone b) (hfirst b)

/-- A declaration takes the dimension back, and what comes after it does not mention it. -/
theorem Waiting.takenBack (h : c.Waiting id) (hclean : c.Clean) (hdeclares : c.declares op = true)
    {final : Chart} {lines : List Line} (hheaded : Line.Headed lines) (hunheard : Line.mentions id lines = [])
    (hgone : final.entries id = []) :
    Outcome id ((c.apply op).lines.map Line.onWire ++ lines) final := by
  obtain ⟨d, hd, hobsolete⟩ := h
  obtain ⟨a, rest, hlines, hlive, hchart, hlisted⟩ := lines_of_declares hdeclares
  have hlisting : (Line.listing (rest ++ lines)).filter (fun e => e.id = id) = [d.onWire] := by
    rw [Line.listing_append_of_headed rest hheaded, Line.listing_of_no_chart hchart]
    exact (hclean.mentions id hlisted).trans (by rw [hd]; rfl)
  refine .takenBack [] a (rest ++ lines) d.onWire ?_ (fun b hmem => by cases hmem) hlive hlisting hobsolete ?_ ?_
  · rw [hlines]
    rfl
  · rw [Line.mentions_append, hclean.mentions_apply, hdeclares, if_pos rfl, hunheard, hd]
    rfl
  · rw [← Bool.not_eq_true, contains_iff, not_not]
    exact hgone

/-- A retired dimension that is neither added again nor removed at once is not set any more, and the first
declaration takes it back. -/
theorem Waiting.run (h : c.Waiting id) {ops : List Operation} (hspares : ∀ op ∈ ops, op.spares id = true)
    (hclean : Along Clean c ops) :
    (∀ n, .set id n ∉ (c.run ops).lines.map Line.onWire) ∧
      Outcome id ((c.run ops).lines.map Line.onWire) (c.run ops).chart := by
  induction ops generalizing c with
  | nil => exact ⟨fun n hset => (by cases hset), .waiting (fun a hmem => by cases hmem) rfl h⟩
  | cons op rest ih =>
    have hrest := fun other hother => hspares other (List.mem_cons_of_mem op hother)
    have hunset : ∀ n, .set id n ∉ (c.apply op).lines.map Line.onWire := by
      intro n hset
      obtain ⟨d, hd, hobsolete⟩ := h
      obtain ⟨e, he, hlive⟩ := hclean.1.set_apply hset
      rw [hd, List.mem_singleton] at he
      rw [he, hobsolete] at hlive
      cases hlive
    rw [run, List.map_append]
    cases hdeclares : c.declares op with
    | true =>
      obtain ⟨hsets, hunheard, hgone⟩ := gone_run (h.declared hdeclares) hrest hclean.2
      refine ⟨fun n hset => (List.mem_append.mp hset).elim (hunset n) (hsets n), ?_⟩
      exact h.takenBack hclean.1 hdeclares (headed_run _ rest) hunheard hgone
    | false =>
      obtain ⟨hsets, houtcome⟩ := ih (h.apply (hspares op List.mem_cons_self) hdeclares) hrest hclean.2
      refine ⟨fun n hset => (List.mem_append.mp hset).elim (hunset n) (hsets n), ?_⟩
      exact houtcome.after (lines_of_not_declares hdeclares).1 (mentions_of_not_declares hdeclares)

/-! ## Dimensions that are added again -/

theorem not_declares_of_quiet (hquiet : ∀ a, .chart a ∈ (c.apply op).lines → a.obsolete = true) :
    c.declares op = false := by
  rw [← Bool.not_eq_true]
  intro hdeclares
  obtain ⟨a, rest, hlines, hlive, -⟩ := lines_of_declares hdeclares
  have hmem : Line.chart a ∈ (c.apply op).lines.map Line.onWire := hlines ▸ List.mem_cons_self
  obtain ⟨raw, hraw, hline⟩ := List.mem_map.mp hmem
  cases raw with
  | chart b =>
    cases hline
    exact absurd (hquiet b hraw) (by rw [show b.obsolete = false from hlive]; simp)
  | _ => cases hline

/-- As long as no declaration is sent, a retired dimension waits in its place. -/
theorem Waiting.run_quiet (h : c.Waiting id) {ops : List Operation} (hspares : ∀ op ∈ ops, op.spares id = true)
    (hquiet : ∀ a, .chart a ∈ (c.run ops).lines → a.obsolete = true) :
    (c.run ops).chart.Waiting id ∧ Line.mentions id ((c.run ops).lines.map Line.onWire) = [] ∧
      ((c.run ops).chart.ahead id).Sublist (c.ahead id) ∧
      ((∀ op ∈ ops, ∀ other, op.drops other = false) → (c.run ops).chart.ahead id = c.ahead id) := by
  induction ops generalizing c with
  | nil => exact ⟨h, rfl, List.Sublist.refl _, fun _ => rfl⟩
  | cons op rest ih =>
    have hop := hspares op List.mem_cons_self
    have hdeclares := not_declares_of_quiet fun a hmem => hquiet a (List.mem_append_left _ hmem)
    have hheld : c.entries id ≠ [] := by
      obtain ⟨d, hd, -⟩ := h
      simp [hd]
    obtain ⟨hsub, hsame⟩ := ahead_apply hheld hop hdeclares
    obtain ⟨hwaiting, hunheard, hsubs, hsames⟩ := ih (h.apply hop hdeclares)
      (fun other hother => hspares other (List.mem_cons_of_mem op hother))
      fun a hmem => hquiet a (List.mem_append_right _ hmem)
    refine ⟨hwaiting, ?_, hsubs.trans hsub, fun hdrops => ?_⟩
    · rw [Chart.run, List.map_append, Line.mentions_append, mentions_of_not_declares hdeclares]
      exact hunheard
    · rw [← hsame (hdrops op List.mem_cons_self)]
      exact hsames fun other hother => hdrops other (List.mem_cons_of_mem op hother)

/-- The only dimension of the id stands behind those that are ahead of it. -/
theorem exists_split {held : Dimension} (h : c.entries id = [held]) :
    ∃ before behind, c.dimensions = before ++ held :: behind ∧ held.id = id ∧ (∀ e ∈ before, e.id ≠ id) ∧
      (∀ e ∈ behind, e.id ≠ id) ∧ before.map (·.id) = c.ahead id := by
  obtain ⟨before, behind, hsplit, hfront, hheld, hback⟩ := List.filter_eq_cons_iff.mp h
  rw [List.filter_eq_nil_iff] at hback
  simp only [decide_eq_true_eq] at hfront hheld hback
  refine ⟨before, behind, hsplit, hheld, hfront, hback, ?_⟩
  have hall : ∀ x ∈ before.map (·.id), (x != id) = true := by
    intro x hx
    obtain ⟨e, he, rfl⟩ := List.mem_map.mp hx
    simpa using hfront e he
  rw [ahead, hsplit, List.map_append, List.takeWhile_append_of_pos hall, List.map_cons, List.takeWhile_cons]
  simp [hheld]

theorem map_replaced_of_ne (d : Dimension) {ds : List Dimension} (h : ∀ e ∈ ds, e.id ≠ id) :
    (ds.map fun e => if e.id = id then d else e) = ds :=
  (List.map_congr_left fun e he => if_neg (h e he)).trans (List.map_id ds)

theorem filter_of_ne {ds : List Dimension} (h : ∀ e ∈ ds, e.id ≠ id) :
    ds.filter (fun e => decide (e.id = id)) = [] :=
  List.filter_eq_nil_iff.mpr fun e he => by simpa using h e he

/-- A dimension that waits is replaced in its place by one of the same id that is added. -/
theorem Waiting.added (h : c.Waiting id) {d : Dimension} (hop : op.added? = some d) (hid : d.id = id) :
    (c.apply op).answer = .dimension d ∧ (c.apply op).chart.entries id = [d] ∧
      ∃ before held behind, c.dimensions = before ++ held :: behind ∧ held.id = id ∧
        (c.apply op).chart.dimensions = before ++ d :: behind ∧ before.map (·.id) = c.ahead id := by
  obtain ⟨held, hheld, hobsolete⟩ := h
  have hfound : c.dimension? d.id = some held := by
    rw [dimension?, ← List.head?_filter, hid]
    exact congrArg List.head? hheld
  have heffect : c.apply op = Effect.ofExcept c (dimensionAnswer d.id)
      (.ok ({ c with dimensions := c.dimensions.map fun e => if e.id = d.id then d else e } : Chart).refresh) := by
    rw [apply_of_added hop]
    simp only [Chart.apply, insertDimension, hfound, hobsolete, if_true]
  obtain ⟨before, behind, hsplit, hheldId, hfront, hback, hahead⟩ := exists_split hheld
  have hdimensions : (c.dimensions.map fun e => if e.id = d.id then d else e) = before ++ d :: behind := by
    rw [hsplit, hid, List.map_append, List.map_cons, map_replaced_of_ne d hfront, map_replaced_of_ne d hback,
      if_pos hheldId]
  have hentries : (before ++ d :: behind).filter (fun e => decide (e.id = id)) = [d] := by
    rw [List.filter_append, filter_of_ne hfront, List.filter_cons, filter_of_ne hback]
    simp [hid]
  have hnew : (before ++ d :: behind).find? (fun e => decide (e.id = d.id)) = some d := by
    rw [← List.head?_filter, hid, hentries]
    rfl
  rw [heffect]
  refine ⟨?_, ?_, before, held, behind, hsplit, hheldId, hdimensions, hahead⟩
  · simp only [Effect.ofExcept, dimensionAnswer, dimension?, refresh, hdimensions, hnew]
  · simp only [Effect.ofExcept, Chart.entries, refresh, hdimensions, hentries]

/-- Of a dimension that is not retired, no declaration says that it is obsolete. -/
theorem KeptLive.run (h : c.KeptLive id) {ops : List Operation} (hops : ∀ op ∈ ops, op.keepsLive id = true)
    (hclean : Along Clean c ops) :
    ∀ d ∈ Line.mentions id ((c.run ops).lines.map Line.onWire), d.obsolete = false := by
  induction ops generalizing c with
  | nil => exact fun d hd => by cases hd
  | cons op rest ih =>
    have hrest := ih (h.apply (hops op List.mem_cons_self))
      (fun other hother => hops other (List.mem_cons_of_mem op hother)) hclean.2
    intro d hd
    rw [run, List.map_append, Line.mentions_append, hclean.1.mentions_apply] at hd
    rcases List.mem_append.mp hd with hd | hd
    · split at hd
      · obtain ⟨e, he, rfl⟩ := List.mem_map.mp hd
        exact h e he
      · cases hd
    · exact hrest d hd

/-! ## Retired dimensions -/

theorem Distinct.entries (h : c.Distinct) (id : String) : c.entries id = [] ∨ ∃ d, c.entries id = [d] := by
  have hnodup : ((c.entries id).map (·.id)).Nodup := List.Nodup.sublist (List.filter_sublist.map _) h
  have hids : ∀ d ∈ c.entries id, d.id = id := fun d hd => (mem_entries.mp hd).2
  generalize c.entries id = ds at hnodup hids
  match ds with
  | [] => exact .inl rfl
  | [d] => exact .inr ⟨d, rfl⟩
  | d :: e :: rest =>
    have hsame : d.id = e.id := (hids d (by simp)).trans (hids e (by simp)).symm
    exact absurd hsame (by simp_all)

theorem waiting_of_retired (h : c.Distinct)
    (hretired : (c.apply (.removeDimension id true)).answer = .flag true) :
    (c.apply (.removeDimension id true)).chart.Waiting id ∧
      (c.apply (.removeDimension id true)).chart.ahead id = c.ahead id := by
  simp only [apply, if_true, retireDimension?, modifyDimension?] at hretired ⊢
  split at hretired
  · next hcontains =>
    rw [if_pos hcontains]
    have hids : ∀ e : Dimension, (if e.id = id then e.retired else e).id = e.id := by
      intro e
      split <;> rfl
    constructor
    · obtain ⟨d, hd⟩ := (h.entries id).resolve_left (contains_iff.mp hcontains)
      have hid : d.id = id := (mem_entries.mp (hd ▸ List.mem_singleton_self d)).2
      refine ⟨d.retired, ?_, rfl⟩
      simp only [Effect.ofOption, Option.getD_some, Chart.entries, refresh, List.filter_map, Function.comp_def, hids]
      rw [Chart.entries] at hd
      rw [hd, List.map_singleton, if_pos hid]
    · simp [Effect.ofOption, ahead, refresh, Function.comp_def, hids]
  · cases hretired

/-- A dimension that is retired is not set any more. As long as it is neither added again nor removed at once, it
waits; the first declaration, whatever was done before it, lists it once and as obsolete, and after that it is gone
and not mentioned again. If it is added again before that, it is live in its place, behind none but those that were
in front of it when it was retired, and no declaration takes it back unless it is retired anew. -/
theorem retired_dimension (start : Chart) (hstart : start.dimensions = []) (prior : List Operation) (id : String)
    (hretired : ((start.run prior).chart.apply (.removeDimension id true)).answer = .flag true) (reached : Chart)
    (hreached : reached = ((start.run prior).chart.apply (.removeDimension id true)).chart) :
    (∀ ops, (∀ op ∈ ops, op.spares id = true) → Along Clean reached ops →
      ∃ lines, Line.readLines? (Line.renderAll (reached.run ops).lines) = some lines ∧
        (∀ n, .set id n ∉ lines) ∧ Outcome id lines (reached.run ops).chart) ∧
    ∀ ops op d later, (∀ other ∈ ops, other.spares id = true) →
      (∀ a, .chart a ∈ (reached.run ops).lines → a.obsolete = true) → op.added? = some d → d.id = id →
      (∀ other ∈ op :: later, other.keepsLive id = true) → Along Clean reached (ops ++ op :: later) →
      ((reached.run ops).chart.apply op).answer = .dimension d ∧ d.obsolete = false ∧
      (∃ before held behind, (reached.run ops).chart.dimensions = before ++ held :: behind ∧ held.id = id ∧
        ((reached.run ops).chart.apply op).chart.dimensions = before ++ d :: behind ∧
        (before.map (·.id)).Sublist ((start.run prior).chart.ahead id) ∧
        ((∀ other ∈ ops, ∀ x, other.drops x = false) → before.map (·.id) = (start.run prior).chart.ahead id)) ∧
      ∃ lines, Line.readLines? (Line.renderAll (reached.run (ops ++ op :: later)).lines) = some lines ∧
        ∀ e ∈ Line.mentions id lines, e.obsolete = false := by
  have hdistinct : (start.run prior).chart.Distinct := Distinct.run (by simp [Distinct, hstart]) prior
  obtain ⟨hwaiting, hahead⟩ := waiting_of_retired hdistinct hretired
  rw [← hreached] at hwaiting hahead
  rw [← hahead]
  constructor
  · intro ops hspares hclean
    exact ⟨_, Line.readLines?_renderAll _ (plain_run hclean), hwaiting.run hspares hclean⟩
  · intro ops op d later hspares hquiet hadded hid hops hclean
    obtain ⟨hstill, hunheard, hsub, hsame⟩ := hwaiting.run_quiet hspares hquiet
    obtain ⟨hanswer, hentries, before, held, behind, hsplit, hheld, hdimensions, hfront⟩ := hstill.added hadded hid
    have hlive : d.obsolete = false := by
      have hop := hops op List.mem_cons_self
      simp [Operation.keepsLive, hadded, hid] at hop
      exact hop.1
    have hkept : ((reached.run ops).chart.apply op).chart.KeptLive id := by
      intro e he
      rw [hentries, List.mem_singleton] at he
      rwa [he]
    refine ⟨hanswer, hlive, ⟨before, held, behind, hsplit, hheld, hdimensions, hfront ▸ hsub, fun hdrops => ?_⟩, _,
      Line.readLines?_renderAll _ (plain_run hclean), fun e he => ?_⟩
    · rw [hfront, hsame hdrops]
    · have hsilent : ((reached.run ops).chart.apply op).lines = [] := lines_of_added hadded
      have hlater := hkept.run (fun other hother => hops other (List.mem_cons_of_mem op hother)) hclean.of_append.2.2
      rw [run_append, List.map_append, Line.mentions_append, hunheard, List.nil_append, Chart.run, hsilent] at he
      exact hlater e he

/-- A chart of packets, without dimensions. -/
def packets : Chart where
  kind := "job"
  id := "packets"

/-- Three dimensions, and a cycle with values for two of them. -/
def counting : List Operation :=
  [.insertDimension (.ofId "in"), .addDimension (.array [.string "out", .string "Sent"]),
    .insertDimension (.ofId "lost"), .update ⟨[("in", .integer 1), ("out", .integer 2)]⟩ 1]

/-- The chart is given up, a cycle that still has a value for the dimension revives it, and another one follows. -/
def revival : List Operation :=
  [.hideDimension "out" false, .obsolete, .update ⟨[("in", .integer 3), ("out", .integer 4)]⟩ 1,
    .update ⟨[("in", .integer 5), ("out", .integer 6)]⟩ 1]

/-- The dimension is taken back by the cycle that revives the chart. If it is added again instead, it is where it
was. -/
theorem retired_dimension_packets :
    ∃ reached, reached = ((packets.run counting).chart.apply (.removeDimension "out" true)).chart ∧
      (∃ lines d, Line.readLines? (Line.renderAll (reached.run revival).lines) = some lines ∧
        (∀ n, .set "out" n ∉ lines) ∧ Line.mentions "out" lines = [d] ∧ d.obsolete = true) ∧
      (reached.run [.hideDimension "in" true]).lines = [] ∧
      ∃ lines, Line.readLines? (Line.renderAll (reached.run
          (.hideDimension "in" true :: .insertDimension (.ofId "out") :: revival)).lines) = some lines ∧
        ∀ e ∈ Line.mentions "out" lines, e.obsolete = false := by
  have hretired : ((packets.run counting).chart.apply (.removeDimension "out" true)).answer = .flag true := rfl
  obtain ⟨htaken, hagain⟩ := retired_dimension packets rfl counting "out" hretired _ rfl
  have hsilent : (((packets.run counting).chart.apply (.removeDimension "out" true)).chart.run
      [.hideDimension "in" true]).lines = [] := by decide +kernel
  refine ⟨_, rfl, ?_, hsilent, ?_⟩
  · obtain ⟨lines, hread, hunset, houtcome⟩ := htaken revival (by decide) (by decide +kernel)
    cases houtcome with
    | waiting hnone hunheard hwaiting =>
      obtain ⟨d, hd, -⟩ := hwaiting
      exact absurd (hd ▸ List.cons_ne_nil d []) (by decide +kernel)
    | takenBack before a after d hlines hfirst hlive hlisted hobsolete honce hgone =>
      exact ⟨lines, d, hread, hunset, honce, hobsolete⟩
  · obtain ⟨-, -, -, hlines⟩ := hagain [.hideDimension "in" true] (.insertDimension (.ofId "out")) (.ofId "out")
      revival (by decide) (fun a hmem => by rw [hsilent] at hmem; cases hmem) rfl rfl (by decide) (by decide +kernel)
    exact hlines

end Chart

end ChartStream
