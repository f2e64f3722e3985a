import ChartStream.Proofs.ChartView

/-!
# The lines of a chart

What the lines of a chart hold: they name no other chart (`within_update`), their texts are the texts of the
chart (`plain_update`), and a declaration lists each dimension once (`listsOnce_update`).
-/

namespace ChartStream

set_option autoImplicit false

namespace Line

/-! ## Listings -/

/-- No chart of the lines is declared with two dimensions of one id. -/
def ListsOnce (lines : List Line) : Prop :=
  ∀ before a after, lines = before ++ .chart a :: after → ((listing after).map (·.id)).Nodup

theorem listing_of_headed {lines : List Line} (h : Headed lines) : listing lines = [] := by
  induction lines with
  | nil => rfl
  | cons line rest ih =>
    cases line with
    | chart a => rfl
    | dimension d => exact h.elim
    | _ => exact ih h

theorem listing_append_of_headed (first : List Line) {second : List Line} (h : Headed second) :
    listing (first ++ second) = listing first := by
  rcases no_chart_or_chart first with hno | hchart
  · rw [listing_append_of_no_chart hno, listing_of_headed h, List.append_nil]
  · exact listing_append_of_chart hchart second

theorem listsOnce_of_no_chart {lines : List Line} (h : ∀ a, .chart a ∉ lines) : ListsOnce lines := by
  intro before a after hlines
  exact absurd (hlines ▸ List.mem_append_right before List.mem_cons_self) (h a)

theorem listsOnce_nil : ListsOnce [] :=
  listsOnce_of_no_chart fun _ h => by cases h

theorem ListsOnce.append {first second : List Line} (h1 : ListsOnce first) (h2 : ListsOnce second)
    (hheaded : Headed second) : ListsOnce (first ++ second) := by
  intro before a after hlines
  rw [List.append_eq_append_iff] at hlines
  rcases hlines with ⟨mid, rfl, hsecond⟩ | ⟨mid, hfirst, hsecond⟩
  · exact h2 mid a after hsecond
  · cases mid with
    | nil => exact h2 [] a after hsecond.symm
    | cons line mid =>
      rw [List.cons_append, List.cons.injEq] at hsecond
      obtain ⟨rfl, rfl⟩ := hsecond
      rw [listing_append_of_headed mid hheaded]
      exact h1 before a mid hfirst

theorem bare_append (s t : String) : bare (s ++ t) = bare s ++ bare t := by
  rw [bare, unquoted, String.toList_append, List.filter_append, String.ofList_append]
  rfl

theorem bare_of_no_quote {s : String} (h : '\'' ∉ s.toList) : bare s = s := by
  have hkept : unquoted s.toList = s.toList := by
    rw [unquoted, List.filter_eq_self]
    intro c hc
    exact bne_iff_ne.mpr fun hquote => h (hquote ▸ hc)
  rw [bare, hkept, String.ofList_toList]

/-! ## Line breaks -/

theorem plain_label_iff (job : String) : (Line.label job).Plain ↔ '\n' ∉ job.toList := by
  simp [Plain, parts, Field.Plain]

theorem plain_variable_iff (id : String) (value : Int) : (Line.variable id value).Plain ↔ '\n' ∉ id.toList := by
  simp [Plain, parts, Field.Plain]

theorem plain_set_iff (id : String) (value : Int) : (Line.set id value).Plain ↔ '\n' ∉ id.toList := by
  simp [Plain, parts, Field.Plain]

theorem plain_groupStart_iff (fullId : String) (sinceLast : Nat) :
    (Line.groupStart fullId sinceLast).Plain ↔ '\n' ∉ fullId.toList := by
  simp [Plain, parts, Field.Plain]

end Line

namespace Chart

/-! ## The chart that lines name -/

theorem within_declaration (c : Chart) : Line.Within [c.wireId] (c.declaration.map Line.onWire) := by
  refine ⟨trivial, fun line hl id hid => ?_⟩
  obtain ⟨raw, hraw, rfl⟩ := List.mem_map.mp hl
  rcases mem_declaration hraw with rfl | rfl | rfl | ⟨d, -, rfl⟩ | ⟨v, -, n, rfl⟩
  · cases hid
    exact List.mem_singleton_self c.wireId
  all_goals cases hid

theorem within_overture (c : Chart) : Line.Within [c.wireId] (c.overture.map Line.onWire) := by
  unfold overture
  split
  · exact c.wireId_revived ▸ c.revived.within_declaration
  · exact Line.within_nil _

theorem within_group (c : Chart) (data : Samples) (sinceLast : Nat) :
    Line.Within [c.wireId] ((c.group data sinceLast).map Line.onWire) := by
  rw [group_eq, List.map_cons, List.map_append]
  have hvalues := fun line hl => inert_of_isValue (c.isValue_values data line hl)
  refine ⟨Line.headed_of_no_dimension fun d hd => ?_, fun line hl id hid => ?_⟩
  · simp only [Line.onWire, List.map_cons, List.map_nil, List.mem_cons, List.mem_append,
      reduceCtorEq, false_or, List.not_mem_nil, or_false] at hd
    cases (hvalues _ hd).2
  · simp only [Line.onWire, List.map_cons, List.map_nil, List.mem_cons, List.mem_append,
      List.not_mem_nil, or_false] at hl
    rcases hl with rfl | hl | rfl
    · cases hid
      exact List.mem_singleton_self c.wireId
    · rw [(hvalues line hl).1] at hid
      cases hid
    · cases hid

theorem within_update (c : Chart) (data : Samples) (sinceLast : Nat) :
    Line.Within [c.wireId] ((c.update data sinceLast).lines.map Line.onWire) := by
  cases h : c.accepts data with
  | true =>
    rw [update_of_accepts h, List.map_append]
    have hgroup := c.known.within_group data (if c.known.state.isUpdated then sinceLast else 0)
    rw [wireId_known] at hgroup
    exact c.within_overture.append hgroup
  | false =>
    rw [update_of_not_accepts h]
    exact Line.within_nil _

theorem mem_obsoletion {c : Chart} {line : Line} (h : line ∈ c.obsoletion) :
    line = c.announcement true := by
  unfold obsoletion at h
  split at h
  · cases h
  · split at h
    · exact List.mem_singleton.mp h
    · cases h

theorem within_obsoletion (c : Chart) : Line.Within [c.wireId] (c.obsoletion.map Line.onWire) := by
  refine ⟨Line.headed_of_no_dimension fun d hd => ?_, fun line hl id hid => ?_⟩
  · obtain ⟨raw, hraw, hd⟩ := List.mem_map.mp hd
    rw [mem_obsoletion hraw] at hd
    cases hd
  · obtain ⟨raw, hraw, rfl⟩ := List.mem_map.mp hl
    rw [mem_obsoletion hraw] at hid
    cases hid
    exact List.mem_singleton_self c.wireId

theorem no_group_obsoletion (c : Chart) (id : String) (n : Nat) :
    .groupStart id n ∉ c.obsoletion.map Line.onWire := by
  intro h
  obtain ⟨raw, hraw, hgroup⟩ := List.mem_map.mp h
  rw [mem_obsoletion hraw] at hgroup
  cases hgroup

/-! ## The texts that lines hold -/

/-- The texts of a chart. -/
def texts (c : Chart) : List String :=
  [c.kind, c.id, c.name, c.title, c.units, c.family, c.context, c.plugin, c.module, c.jobLabel]
    ++ c.dimensions.flatMap (fun d => [d.id, d.name]) ++ c.vars.map (·.id)

/-- No text of the chart holds a line break. -/
def Plain (c : Chart) : Prop :=
  ∀ s ∈ c.texts, '\n' ∉ s.toList

instance (c : Chart) : Decidable c.Plain :=
  inferInstanceAs (Decidable (∀ s ∈ c.texts, '\n' ∉ s.toList))

theorem Plain.dimension {c : Chart} (h : c.Plain) {d : Dimension} (hd : d ∈ c.dimensions) :
    '\n' ∉ d.id.toList ∧ '\n' ∉ d.name.toList := by
  have hmem : ∀ s ∈ [d.id, d.name], s ∈ c.texts := fun s hs =>
    List.mem_append_left _ (List.mem_append_right _ (List.mem_flatMap.mpr ⟨d, hd, hs⟩))
  exact ⟨h _ (hmem _ (by simp)), h _ (hmem _ (by simp))⟩

theorem Plain.variable {c : Chart} (h : c.Plain) {v : Variable} (hv : v ∈ c.vars) : '\n' ∉ v.id.toList :=
  h _ (List.mem_append_right _ (List.mem_map_of_mem hv))

theorem Plain.fullId {c : Chart} (h : c.Plain) : '\n' ∉ c.fullId.toList := by
  have hkind := h c.kind (by simp [texts])
  have hid := h c.id (by simp [texts])
  simpa [Chart.fullId, hkind] using hid

theorem lineBreak_not_mem_flags (hidden obsolete : Bool) : '\n' ∉ (Line.flags hidden obsolete).toList := by
  cases hidden <;> cases obsolete <;> decide

theorem plain_announcement {c : Chart} (h : c.Plain) (obsolete : Bool) : (c.announcement obsolete).Plain := by
  have htexts : [c.name, c.title, c.units, c.family, c.context, c.plugin, c.module] ⊆ c.texts := by
    simp [texts]
  have hplain := fun s hs => h s (htexts hs)
  have hstyle : '\n' ∉ c.style.name.toList := by cases c.style <;> decide
  have hflags := lineBreak_not_mem_flags c.hidden obsolete
  simp only [List.mem_cons, List.not_mem_nil, or_false, forall_eq_or_imp, forall_eq] at hplain
  obtain ⟨hname, htitle, hunits, hfamily, hcontext, hplugin, hmodule⟩ := hplain
  simp [announcement, Line.Plain, Line.parts, Line.Field.Plain, h.fullId, hname, htitle, hunits, hfamily,
    hcontext, hplugin, hmodule, hstyle, hflags]

theorem plain_dimensionLine {d : Dimension} (hid : '\n' ∉ d.id.toList) (hname : '\n' ∉ d.name.toList) :
    (Line.dimension d).Plain := by
  have halgorithm : '\n' ∉ d.algorithm.name.toList := by cases d.algorithm <;> decide
  have hflags := lineBreak_not_mem_flags d.hidden d.obsolete
  simp [Line.Plain, Line.parts, Line.Field.Plain, hid, hname, halgorithm, hflags]

theorem plain_declaration {c : Chart} (h : c.Plain) : ∀ line ∈ c.declaration, line.Plain := by
  intro line hl
  rcases mem_declaration hl with rfl | rfl | rfl | ⟨d, hd, rfl⟩ | ⟨v, hv, n, rfl⟩
  · exact plain_announcement h false
  · have hlabel := h c.jobLabel (by simp [texts])
    simp [Line.Plain, Line.parts, Line.Field.Plain, hlabel]
  · simp [Line.Plain, Line.parts, Line.Field.Plain]
  · exact plain_dimensionLine (h.dimension hd).1 (h.dimension hd).2
  · simp [Line.Plain, Line.parts, Line.Field.Plain, h.variable hv]

theorem plain_obsoletion {c : Chart} (h : c.Plain) : ∀ line ∈ c.obsoletion, line.Plain := by
  intro line hl
  rw [mem_obsoletion hl]
  exact plain_announcement h true

theorem plain_group {c : Chart} (h : c.Plain) (data : Samples) (sinceLast : Nat) :
    ∀ line ∈ c.group data sinceLast, line.Plain := by
  intro line hl
  simp only [group_eq, values, List.mem_cons, List.mem_append, List.mem_filterMap,
    List.not_mem_nil, or_false] at hl
  rcases hl with rfl | (⟨d, hd, hset⟩ | ⟨v, hv, hvalue⟩) | rfl
  · simp [Line.Plain, Line.parts, Line.Field.Plain, h.fullId]
  · obtain ⟨n, -, rfl⟩ := Option.map_eq_some_iff.mp hset
    have hid := (h.dimension (List.mem_filter.mp hd).1).1
    simp [Dimension.setLine, Line.Plain, Line.parts, Line.Field.Plain, hid]
  · obtain ⟨n, -, rfl⟩ := Option.map_eq_some_iff.mp hvalue
    simp [Line.Plain, Line.parts, Line.Field.Plain, h.variable hv]
  · simp [Line.Plain, Line.parts, Line.Field.Plain]

theorem Plain.revived {c : Chart} (h : c.Plain) : c.revived.Plain := by
  unfold Chart.revived
  split
  · exact h
  · exact h

/-- A chart with fewer dimensions has fewer texts. -/
theorem Plain.declared {c : Chart} (h : c.Plain) : c.declared.Plain := by
  intro s hs
  simp only [texts, Chart.declared, List.mem_append, List.mem_flatMap, List.mem_filter] at hs
  rcases hs with (hs | ⟨d, hd, hs⟩) | hs
  · exact h s (List.mem_append_left _ (List.mem_append_left _ hs))
  · exact h s (List.mem_append_left _ (List.mem_append_right _ (List.mem_flatMap.mpr ⟨d, hd.1, hs⟩)))
  · exact h s (List.mem_append_right _ hs)

theorem Plain.known {c : Chart} (h : c.Plain) : c.known.Plain := by
  unfold Chart.known
  split
  · exact h.revived.declared
  · exact h.revived

theorem Plain.update {c : Chart} (h : c.Plain) (data : Samples) (sinceLast : Nat) :
    (c.update data sinceLast).chart.Plain := by
  cases haccepts : c.accepts data with
  | true =>
    rw [update_of_accepts haccepts]
    exact h.known
  | false =>
    rw [update_of_not_accepts haccepts]
    exact h

theorem plain_update {c : Chart} (h : c.Plain) (data : Samples) (sinceLast : Nat) :
    ∀ line ∈ (c.update data sinceLast).lines, line.Plain := by
  cases haccepts : c.accepts data with
  | true =>
    rw [update_of_accepts haccepts]
    intro line hl
    rcases List.mem_append.mp hl with hl | hl
    · exact plain_declaration h.revived line (mem_overture hl)
    · exact plain_group h.known data _ line hl
  | false =>
    rw [update_of_not_accepts haccepts]
    exact fun _ h => by cases h

/-! ## The dimensions that declarations list -/

/-- The ids of the chart and of its dimensions hold no quote. -/
def Unquoted (c : Chart) : Prop :=
  '\'' ∉ c.id.toList ∧ ∀ d ∈ c.dimensions, '\'' ∉ d.id.toList

instance (c : Chart) : Decidable c.Unquoted :=
  inferInstanceAs (Decidable ('\'' ∉ c.id.toList ∧ ∀ d ∈ c.dimensions, '\'' ∉ d.id.toList))

theorem Unquoted.nodup {c : Chart} (h : c.Unquoted) (hdistinct : c.Distinct) :
    ((c.dimensions.map Dimension.onWire).map (·.id)).Nodup := by
  have hids : (c.dimensions.map Dimension.onWire).map (·.id) = c.dimensions.map (·.id) := by
    rw [List.map_map]
    exact List.map_congr_left fun d hd => Line.bare_of_no_quote (h.2 d hd)
  rwa [hids]

theorem listing_dimensions (ds : List Dimension) (vars : List Variable) (value : Variable → Option Int) :
    Line.listing (ds.map .dimension
      ++ (vars.filterMap fun v => (value v).map (.variable v.id)).map Line.onWire) = ds := by
  have hinert := inert_vars vars value
  induction ds with
  | nil =>
    refine Line.listing_of_headed (Line.headed_of_no_dimension fun d hd => ?_)
    cases (hinert _ hd).2
  | cons d ds ih => exact congrArg (d :: ·) ih

theorem listsOnce_declaration {c : Chart} (h : c.Unquoted) (hdistinct : c.Distinct) :
    Line.ListsOnce (c.declaration.map Line.onWire) := by
  intro before a after hlines
  rw [onWire_declaration] at hlines
  cases before with
  | nil =>
    rw [List.nil_append, List.cons.injEq] at hlines
    have hlisting := listing_dimensions (c.dimensions.map Dimension.onWire) c.vars fun v => v.value
    rw [← hlines.2]
    change ((Line.listing (_ ++ _)).map (·.id)).Nodup
    rw [hlisting]
    exact h.nodup hdistinct
  | cons line before =>
    -- There is no second chart in a declaration.
    have hmem : Line.chart a ∈ before ++ .chart a :: after := by simp
    rw [List.cons_append, List.cons.injEq] at hlines
    rw [← hlines.2] at hmem
    simp only [List.mem_cons, List.mem_append, List.mem_map, reduceCtorEq, and_false, exists_false,
      false_or] at hmem
    obtain ⟨raw, hraw, hchart⟩ := hmem
    obtain ⟨v, -, hv⟩ := List.mem_filterMap.mp hraw
    obtain ⟨n, -, rfl⟩ := Option.map_eq_some_iff.mp hv
    cases hchart

theorem Unquoted.revived {c : Chart} (h : c.Unquoted) : c.revived.Unquoted := by
  unfold Chart.revived
  split
  · exact h
  · exact h

theorem Distinct.revived {c : Chart} (h : c.Distinct) : c.revived.Distinct := by
  unfold Chart.revived
  split
  · exact h
  · exact h

theorem listsOnce_overture {c : Chart} (h : c.Unquoted) (hdistinct : c.Distinct) :
    Line.ListsOnce (c.overture.map Line.onWire) := by
  unfold overture
  split
  · exact listsOnce_declaration h.revived hdistinct.revived
  · exact Line.listsOnce_nil

theorem listsOnce_update {c : Chart} (h : c.Unquoted) (hdistinct : c.Distinct) (data : Samples)
    (sinceLast : Nat) : Line.ListsOnce ((c.update data sinceLast).lines.map Line.onWire) := by
  cases haccepts : c.accepts data with
  | true =>
    rw [update_of_accepts haccepts, List.map_append]
    refine (listsOnce_overture h hdistinct).append ?_ (c.known.within_group data _).headed
    refine Line.listsOnce_of_no_chart fun a ha => ?_
    rw [group_eq, List.map_cons, List.map_append, List.mem_cons, List.mem_append] at ha
    rcases ha with ha | ha | ha
    · cases ha
    · cases c.known.isValue_values data _ ha
    · cases List.mem_singleton.mp ha
  | false =>
    rw [update_of_not_accepts haccepts]
    exact Line.listsOnce_nil

theorem listsOnce_obsoletion (c : Chart) : Line.ListsOnce (c.obsoletion.map Line.onWire) := by
  intro before a after hlines
  unfold obsoletion at hlines
  split at hlines
  · simp at hlines
  · split at hlines
    · have hafter : after = [] := by
        rw [List.map_singleton, eq_comm, List.append_eq_singleton_iff] at hlines
        rcases hlines with ⟨-, hone⟩ | ⟨-, hnone⟩
        · rw [List.cons.injEq] at hone
          exact hone.2
        · cases hnone
      rw [hafter]
      exact List.nodup_nil
    · simp at hlines

/-! ## What a cycle leaves as it was -/

theorem Distinct.declared {c : Chart} (h : c.Distinct) : c.declared.Distinct :=
  List.Nodup.sublist (List.filter_sublist.map _) h

theorem Distinct.known {c : Chart} (h : c.Distinct) : c.known.Distinct := by
  unfold Chart.known
  split
  · exact h.revived.declared
  · exact h.revived

theorem Distinct.update {c : Chart} (h : c.Distinct) (data : Samples) (sinceLast : Nat) :
    (c.update data sinceLast).chart.Distinct := by
  cases haccepts : c.accepts data with
  | true =>
    rw [update_of_accepts haccepts]
    exact h.known
  | false =>
    rw [update_of_not_accepts haccepts]
    exact h

theorem Distinct.obsolete {c : Chart} (h : c.Distinct) : c.obsolete.Distinct := by
  unfold Chart.obsolete
  split
  · exact h
  · exact h

theorem header_update (c : Chart) (data : Samples) (sinceLast : Nat) :
    (c.update data sinceLast).chart.toChartHeader = c.toChartHeader := by
  cases haccepts : c.accepts data with
  | true =>
    rw [update_of_accepts haccepts]
    exact c.header_known
  | false =>
    rw [update_of_not_accepts haccepts]

theorem header_obsolete (c : Chart) : c.obsolete.toChartHeader = c.toChartHeader := by
  unfold obsolete
  split <;> rfl

end Chart

end ChartStream
