import ChartStream.Proofs.CatalogStream

/-!
# What comes of a layout

A catalog accepts a layout exactly if each entry that the order names is sound and its id is new, and then it is
extended by the charts of these entries. Otherwise the charts before the first entry that fails are there, and of
that entry what came before the place where it is refused (`create_outcome`).
-/

namespace ChartStream

set_option autoImplicit false

/-! ## The first of its kind -/

theorem eraseDupsBy_loop_append {α : Type} (r : α → α → Bool) (xs ys found : List α) :
    List.eraseDupsBy.loop r (xs ++ ys) found =
      List.eraseDupsBy.loop r ys (List.eraseDupsBy.loop r xs found).reverse := by
  induction xs generalizing found with
  | nil => simp [List.eraseDupsBy.loop]
  | cons x rest ih =>
    rw [List.cons_append, List.eraseDupsBy.loop, List.eraseDupsBy.loop]
    split <;> exact ih _

theorem eraseDupsBy_concat {α : Type} (r : α → α → Bool) (xs : List α) (x : α) :
    (xs ++ [x]).eraseDupsBy r =
      if (xs.eraseDupsBy r).any (r x) then xs.eraseDupsBy r else xs.eraseDupsBy r ++ [x] := by
  rw [List.eraseDupsBy, List.eraseDupsBy, eraseDupsBy_loop_append, List.eraseDupsBy.loop, List.any_reverse]
  cases (List.eraseDupsBy.loop r xs []).any (r x) <;> simp [List.eraseDupsBy.loop]

/-! ## Ids of parameter lists -/

namespace Parameters

/-- The id that a parameter list begins with. -/
def idOf? : Json → Option String
  | .array (first :: _) => if textOf first = "" then none else some (textOf first)
  | _ => none

/-- Why a value is refused as the parameter list of a dimension or a variable. -/
inductive Refuses (item : Item) : Json → DeclarationError → Prop
  | notAList {value : Json} (h : ∀ slots, value ≠ .array slots) : Refuses item value (.notAList item value.kind)
  | noSlot : Refuses item (.array []) (.tooShort item 1 0)
  | noId {first : Json} {rest : List Json} (h : textOf first = "") :
      Refuses item (.array (first :: rest)) (.emptyId item 0)

variable {item : Item} {params : Json}

theorem Refuses.idOf? {error : DeclarationError} (h : Refuses item params error) : idOf? params = none := by
  cases h with
  | notAList h =>
    cases params with
    | array slots => exact absurd rfl (h slots)
    | _ => rfl
  | noSlot => rfl
  | noId h => exact if_pos h

/-- What is declared by a list with an id in its first slot is refused for the lack of one, and for nothing
else. -/
theorem declared_cases {α : Type} (item : Item) (params : Json) (declare : Parameters → String → α) :
    (∃ p id, (do let p ← read item 1 params; let id ← p.id item 0; return declare p id) = .ok (declare p id) ∧
        Parameters.idOf? params = some id) ∨
      ∃ e, (do let p ← read item 1 params; let id ← p.id item 0; return declare p id) = .error e ∧
        Refuses item params e := by
  cases params with
  | array slots =>
    cases slots with
    | nil => exact .inr ⟨_, rfl, .noSlot⟩
    | cons first rest =>
      by_cases hempty : textOf first = ""
      · refine .inr ⟨_, ?_, .noId hempty⟩
        simp [read, id, text, hempty, bind, Except.bind]
      · refine .inl ⟨⟨first :: rest⟩, textOf first, ?_, if_neg hempty⟩
        simp [read, id, text, hempty, bind, Except.bind, pure, Except.pure]
  | _ => exact .inr ⟨_, rfl, .notAList fun slots h => by cases h⟩

theorem id_of_string {p : Parameters} {item : Item} {slot : Nat} {s : String}
    (h : p.slots[slot]? = some (.string s)) :
    p.id item slot = if s = "" then .error (.emptyId item slot) else .ok s := by
  simp [id, text, h, textOf]

end Parameters

open Parameters

theorem Dimension.ofParameters_cases (params : Json) :
    (∃ d, ofParameters params = .ok d ∧ idOf? params = some d.id) ∨
      ∃ e, ofParameters params = .error e ∧ Refuses .dimension params e := by
  refine (declared_cases .dimension params _).imp_left ?_
  rintro ⟨p, id, hdeclared, hid⟩
  exact ⟨_, hdeclared, hid⟩

theorem Variable.ofParameters_cases (params : Json) :
    (∃ v, ofParameters params = .ok v ∧ idOf? params = some v.id) ∨
      ∃ e, ofParameters params = .error e ∧ Refuses .variable params e := by
  refine (declared_cases .variable params _).imp_left ?_
  rintro ⟨p, id, hdeclared, hid⟩
  exact ⟨_, hdeclared, hid⟩

/-! ## The chart of an entry -/

/-- The entries that the order names, with their ids. -/
def Layout.due (layout : Layout) : List (String × Entry) :=
  layout.order.filterMap fun id => (layout.entry? id).map (id, ·)

/-- A chart can be made of the entry: there are options enough, each list begins with an id, and no two lines
begin with the same one. -/
structure Layout.Entry.Sound (entry : Entry) : Prop where
  options : 5 ≤ entry.options.length
  lines : ∀ params ∈ entry.lines, (idOf? params).isSome
  apart : (entry.lines.filterMap idOf?).Nodup
  vars : ∀ params ∈ entry.vars, (idOf? params).isSome

namespace Catalog

/-- The chart that an entry declares in a catalog. Of the variables with one id the first counts. -/
def chartOf (c : Catalog) (priority : Nat) (id : String) (entry : Layout.Entry) : Chart :=
  let option := Parameters.text ⟨entry.options⟩
  { kind := c.jobName
    id := id
    name := option 0
    title := option 1
    units := option 2
    family := option 3
    context := option 4
    style := if (option 5).isEmpty then .line else (ChartStyle.ofName? (option 5)).getD .absolute
    hidden := option 6 = "hidden"
    priority := priority
    updateEvery := c.updateEvery
    plugin := c.plugin
    module := c.module
    jobLabel := c.jobLabel
    dimensions := entry.lines.filterMap fun params => (Dimension.ofParameters params).toOption
    vars := (entry.vars.filterMap fun params => (Variable.ofParameters params).toOption).eraseDupsBy
      fun v held => held.id = v.id }

/-- The catalog with the charts of entries at its end. -/
def extended (c : Catalog) (entries : List (String × Layout.Entry)) : Catalog :=
  { c with
    charts := c.charts ++ entries.mapIdx fun i e => c.chartOf (min (c.nextPriority + i) lastPriority) e.1 e.2
    nextPriority := min (c.nextPriority + entries.length) lastPriority }

/-- The entries can be added: the job has a name, and the ids are new and different. -/
def Accepts (c : Catalog) (entries : List (String × Layout.Entry)) : Prop :=
  entries = [] ∨ c.jobName ≠ "" ∧ (∀ e ∈ entries, e.1 ≠ "" ∧ c.contains e.1 = false ∧ e.2.Sound) ∧
    (entries.map (·.1)).Nodup

/-- Why a catalog refuses an entry, and how much of it was added before; nothing if there is no chart for it. -/
inductive Fails (c : Catalog) (id : String) (entry : Layout.Entry) : Option Layout.Entry → DeclarationError → Prop
  | tooShort (h : entry.options.length < 5) : Fails c id entry none (.tooShort .chart 6 (entry.options.length + 1))
  | noJobName (hlength : 5 ≤ entry.options.length) (h : c.jobName = "") : Fails c id entry none (.emptyId .chart 0)
  | noId (hlength : 5 ≤ entry.options.length) (hname : c.jobName ≠ "") (h : id = "") :
      Fails c id entry none (.emptyId .chart 1)
  | duplicate (hlength : 5 ≤ entry.options.length) (hname : c.jobName ≠ "") (hid : id ≠ "")
      (h : c.contains id = true) : Fails c id entry none (.duplicate .chart id)
  | badLine {before after : List Json} {params : Json} {error : DeclarationError}
      (hbefore : c.Accepts [(id, { entry with lines := before, vars := [] })])
      (hlines : entry.lines = before ++ params :: after) (h : Refuses .dimension params error) :
      Fails c id entry (some { entry with lines := before, vars := [] }) error
  | repeatedLine {before after : List Json} {params : Json} {dimension : String}
      (hbefore : c.Accepts [(id, { entry with lines := before, vars := [] })])
      (hlines : entry.lines = before ++ params :: after) (hid : idOf? params = some dimension)
      (h : dimension ∈ before.filterMap idOf?) :
      Fails c id entry (some { entry with lines := before, vars := [] }) (.duplicate .dimension dimension)
  | badVariable {before after : List Json} {params : Json} {error : DeclarationError}
      (hbefore : c.Accepts [(id, { entry with vars := before })])
      (hvars : entry.vars = before ++ params :: after) (h : Refuses .variable params error) :
      Fails c id entry (some { entry with vars := before }) error

variable {c : Catalog} {id : String} {entry : Layout.Entry}

theorem accepts_singleton :
    c.Accepts [(id, entry)] ↔ c.jobName ≠ "" ∧ id ≠ "" ∧ c.contains id = false ∧ entry.Sound := by
  simp [Accepts]

theorem Fails.not_accepts {part : Option Layout.Entry} {error : DeclarationError}
    (h : c.Fails id entry part error) : ¬ c.Accepts [(id, entry)] := by
  rw [accepts_singleton]
  rintro ⟨hname, hid, hnew, hsound⟩
  cases h with
  | tooShort h => exact absurd hsound.options (by omega)
  | noJobName _ h => exact hname h
  | noId _ _ h => exact hid h
  | duplicate _ _ _ h => rw [hnew] at h; cases h
  | badLine _ hlines h =>
    have hsome := hsound.lines _ (hlines ▸ List.mem_append_right _ List.mem_cons_self)
    rw [h.idOf?] at hsome
    cases hsome
  | repeatedLine _ hlines hread h =>
    have hapart := hsound.apart
    rw [hlines, List.filterMap_append, List.filterMap_cons_some hread] at hapart
    exact (List.nodup_append.mp hapart).2.2 _ h _ List.mem_cons_self rfl
  | badVariable _ hvars h =>
    have hsome := hsound.vars _ (hvars ▸ List.mem_append_right _ List.mem_cons_self)
    rw [h.idOf?] at hsome
    cases hsome

/-! ### The lines and the variables of an entry -/

theorem map_id_toOption (params : Json) :
    (Dimension.ofParameters params).toOption.map (·.id) = idOf? params := by
  rcases Dimension.ofParameters_cases params with ⟨d, hd, hid⟩ | ⟨e, he, hrefused⟩
  · rw [hd, hid]
    rfl
  · rw [he, hrefused.idOf?]
    rfl

theorem ids_chartOf (c : Catalog) (priority : Nat) (id : String) (entry : Layout.Entry) :
    (c.chartOf priority id entry).dimensions.map (·.id) = entry.lines.filterMap idOf? := by
  rw [chartOf, List.map_filterMap]
  exact List.filterMap_congr fun params _ => map_id_toOption params

theorem live_chartOf (c : Catalog) (priority : Nat) (id : String) (entry : Layout.Entry) :
    ∀ d ∈ (c.chartOf priority id entry).dimensions, d.obsolete = false := by
  intro d hd
  obtain ⟨params, -, hparams⟩ := List.mem_filterMap.mp hd
  cases hdeclared : Dimension.ofParameters params with
  | error e =>
    rw [hdeclared] at hparams
    cases hparams
  | ok declared =>
    rw [hdeclared] at hparams
    cases hparams
    unfold Dimension.ofParameters at hdeclared
    obtain ⟨p, -, hdeclared⟩ := ok_of_bind hdeclared
    obtain ⟨read, -, hdeclared⟩ := ok_of_bind hdeclared
    cases hdeclared
    rfl

section Filling

variable (c : Catalog) (priority : Nat) (id : String) (entry : Layout.Entry) {params : Json}

theorem addDimension_new {d : Dimension} (hd : Dimension.ofParameters params = .ok d)
    (hnew : d.id ∉ entry.lines.filterMap idOf?) :
    (c.chartOf priority id entry).addDimension params =
      .ok (c.chartOf priority id { entry with lines := entry.lines ++ [params] }) := by
  have hnone : (c.chartOf priority id entry).dimension? d.id = none := by
    rw [← ids_chartOf c priority id entry] at hnew
    refine List.find?_eq_none.mpr fun held hheld hsame => hnew (List.mem_map.mpr ⟨held, hheld, ?_⟩)
    simpa using hsame
  have hdimensions : (c.chartOf priority id { entry with lines := entry.lines ++ [params] }).dimensions =
      (c.chartOf priority id entry).dimensions ++ [d] := by
    simp [chartOf, hd, Except.toOption]
  rw [Chart.addDimension, hd]
  change (c.chartOf priority id entry).insertDimension d = _
  rw [Chart.insertDimension, hnone, ← hdimensions]
  rfl

theorem addDimension_repeated {d : Dimension} (hd : Dimension.ofParameters params = .ok d)
    (hheld : d.id ∈ entry.lines.filterMap idOf?) :
    (c.chartOf priority id entry).addDimension params = .error (.duplicate .dimension d.id) := by
  rw [← ids_chartOf c priority id entry] at hheld
  obtain ⟨other, hother, hid⟩ := List.mem_map.mp hheld
  have hsome : ((c.chartOf priority id entry).dimension? d.id).isSome :=
    List.find?_isSome.mpr ⟨other, hother, by simpa using hid⟩
  obtain ⟨held, hfound⟩ := Option.isSome_iff_exists.mp hsome
  have hlive := c.live_chartOf priority id entry held (List.mem_of_find?_eq_some hfound)
  rw [Chart.addDimension, hd]
  change (c.chartOf priority id entry).insertDimension d = _
  simp [Chart.insertDimension, hfound, hlive]

theorem addVariable_read {v : Variable} (hv : Variable.ofParameters params = .ok v) :
    (c.chartOf priority id entry).addVariable params =
      .ok (c.chartOf priority id { entry with vars := entry.vars ++ [params] }) := by
  have hread : [params].filterMap (fun params => (Variable.ofParameters params).toOption) = [v] := by
    simp [hv, Except.toOption]
  have hvars : (c.chartOf priority id { entry with vars := entry.vars ++ [params] }).vars =
      if (c.chartOf priority id entry).vars.any fun held => held.id = v.id then (c.chartOf priority id entry).vars
      else (c.chartOf priority id entry).vars ++ [v] := by
    simp only [chartOf, List.filterMap_append, hread, eraseDupsBy_concat]
    rfl
  have hadded : (c.chartOf priority id entry).addVariable params =
      .ok { c.chartOf priority id entry with
        vars := (c.chartOf priority id { entry with vars := entry.vars ++ [params] }).vars } := by
    rw [Chart.addVariable, hv, hvars]
    change Except.ok _ = Except.ok _
    congr 1
    split <;> rfl
  exact hadded

/-- The lines that are added one after the other, up to the first one that is refused. -/
theorem addDimensions_cases (before rest : List Json)
    (hsound : ({ entry with lines := before, vars := [] } : Layout.Entry).Sound) :
    (({ entry with lines := before ++ rest, vars := [] } : Layout.Entry).Sound ∧
      addDimensions (c.chartOf priority id { entry with lines := before, vars := [] }) rest =
        (c.chartOf priority id { entry with lines := before ++ rest, vars := [] }, none)) ∨
    ∃ done params after error, rest = done ++ params :: after ∧
      ({ entry with lines := before ++ done, vars := [] } : Layout.Entry).Sound ∧
      (Refuses .dimension params error ∨ ∃ dimension, idOf? params = some dimension ∧
        dimension ∈ (before ++ done).filterMap idOf? ∧ error = .duplicate .dimension dimension) ∧
      addDimensions (c.chartOf priority id { entry with lines := before, vars := [] }) rest =
        (c.chartOf priority id { entry with lines := before ++ done, vars := [] }, some error) := by
  induction rest generalizing before with
  | nil =>
    rw [List.append_nil]
    exact .inl ⟨hsound, rfl⟩
  | cons params rest ih =>
    rcases Dimension.ofParameters_cases params with ⟨d, hd, hid⟩ | ⟨e, he, hrefused⟩
    · by_cases hheld : d.id ∈ before.filterMap idOf?
      · refine .inr ⟨[], params, rest, .duplicate .dimension d.id, rfl, ?_, .inr ⟨d.id, hid, ?_, rfl⟩, ?_⟩
        · rwa [List.append_nil]
        · rwa [List.append_nil]
        · rw [List.append_nil, addDimensions, addDimension_repeated c priority id _ hd hheld]
      · have hnext : ({ entry with lines := before ++ [params], vars := [] } : Layout.Entry).Sound := by
          refine ⟨hsound.options, fun other hother => ?_, ?_, hsound.vars⟩
          · rcases List.mem_append.mp hother with hother | hother
            · exact hsound.lines other hother
            · rw [List.mem_singleton.mp hother, hid]
              rfl
          · rw [List.filterMap_append, List.filterMap_cons_some hid]
            exact List.nodup_append.mpr ⟨hsound.apart, List.nodup_singleton _, by
              rintro a ha b hb rfl
              exact hheld (List.mem_singleton.mp hb ▸ ha)⟩
        have hadd := addDimension_new c priority id { entry with lines := before, vars := [] } hd hheld
        rw [addDimensions, hadd]
        simp only
        rcases ih _ hnext with ⟨hall, hfilled⟩ | ⟨done, bad, after, error, hrest, hdone, hwhy, hfilled⟩
        · refine .inl ⟨?_, ?_⟩
          · rwa [List.append_assoc] at hall
          · rw [hfilled, List.append_assoc]
            rfl
        · rw [List.append_assoc] at hdone hwhy hfilled
          refine .inr ⟨params :: done, bad, after, error, by rw [hrest]; rfl, hdone, hwhy, hfilled⟩
    · refine .inr ⟨[], params, rest, e, rfl, ?_, .inl hrefused, ?_⟩
      · rwa [List.append_nil]
      · rw [List.append_nil, addDimensions, Chart.addDimension, he]
        rfl

/-- The variables that are added one after the other, up to the first one that is refused. -/
theorem addVariables_cases (before rest : List Json)
    (hsound : ({ entry with vars := before } : Layout.Entry).Sound) :
    (({ entry with vars := before ++ rest } : Layout.Entry).Sound ∧
      addVariables (c.chartOf priority id { entry with vars := before }) rest =
        (c.chartOf priority id { entry with vars := before ++ rest }, none)) ∨
    ∃ done params after error, rest = done ++ params :: after ∧
      ({ entry with vars := before ++ done } : Layout.Entry).Sound ∧ Refuses .variable params error ∧
      addVariables (c.chartOf priority id { entry with vars := before }) rest =
        (c.chartOf priority id { entry with vars := before ++ done }, some error) := by
  induction rest generalizing before with
  | nil =>
    rw [List.append_nil]
    exact .inl ⟨hsound, rfl⟩
  | cons params rest ih =>
    rcases Variable.ofParameters_cases params with ⟨v, hv, hid⟩ | ⟨e, he, hrefused⟩
    · have hnext : ({ entry with vars := before ++ [params] } : Layout.Entry).Sound := by
        refine ⟨hsound.options, hsound.lines, hsound.apart, fun other hother => ?_⟩
        rcases List.mem_append.mp hother with hother | hother
        · exact hsound.vars other hother
        · rw [List.mem_singleton.mp hother, hid]
          rfl
      rw [addVariables, addVariable_read c priority id _ hv]
      simp only
      rcases ih _ hnext with ⟨hall, hfilled⟩ | ⟨done, bad, after, error, hrest, hdone, hwhy, hfilled⟩
      · refine .inl ⟨?_, ?_⟩
        · rwa [List.append_assoc] at hall
        · rw [hfilled, List.append_assoc]
          rfl
      · rw [List.append_assoc] at hdone hfilled
        exact .inr ⟨params :: done, bad, after, error, by rw [hrest]; rfl, hdone, hwhy, hfilled⟩
    · refine .inr ⟨[], params, rest, e, rfl, ?_, hrefused, ?_⟩
      · rwa [List.append_nil]
      · rw [List.append_nil, addVariables, Chart.addVariable, he]
        rfl

end Filling

/-! ### One entry -/

theorem build_options (c : Catalog) (id : String) (options : List Json) :
    c.build (.array (.string id :: options)) =
      if options.length < 5 then .error (.tooShort .chart 6 (options.length + 1))
      else if c.jobName = "" then .error (.emptyId .chart 0)
      else if id = "" then .error (.emptyId .chart 1)
      else .ok (c.chartOf 0 id { options := options }) := by
  let slots := .string c.jobName :: .string id :: options
  have hname : Parameters.id ⟨slots⟩ .chart 0 =
      if c.jobName = "" then .error (.emptyId .chart 0) else .ok c.jobName := id_of_string rfl
  have hid : Parameters.id ⟨slots⟩ .chart 1 = if id = "" then .error (.emptyId .chart 1) else .ok id :=
    id_of_string rfl
  by_cases hlength : options.length < 5
  · have hshort : Parameters.read .chart 6 (.array (.string id :: options)) =
        .error (.tooShort .chart 6 (options.length + 1)) := if_pos (Nat.succ_lt_succ hlength)
    rw [build, hshort, if_pos hlength]
    rfl
  · have hread : Parameters.read .chart 6 (.array (.string id :: options)) = .ok ⟨.string id :: options⟩ :=
      if_neg fun h => hlength (Nat.lt_of_succ_lt_succ h)
    have hslots : Parameters.read .chart 7 (.array slots) = .ok ⟨slots⟩ :=
      if_neg fun h => hlength (Nat.lt_of_succ_lt_succ (Nat.lt_of_succ_lt_succ h))
    rw [build, hread, if_neg hlength]
    simp only [bind, Except.bind, Chart.ofParameters]
    rw [hslots]
    simp only [hname, hid]
    by_cases hnoname : c.jobName = ""
    · rw [if_pos hnoname, if_pos hnoname]
    · by_cases hnoid : id = ""
      · rw [if_neg hnoname, if_neg hnoname, if_pos hnoid, if_pos hnoid]
      · rw [if_neg hnoname, if_neg hnoname, if_neg hnoid, if_neg hnoid]
        rfl

/-- The chart of the options alone is added, or the entry fails without one. -/
theorem addChart_options (c : Catalog) (id : String) (entry : Layout.Entry) :
    (∃ error, c.Fails id entry none error ∧
        c.addChart (.array (.string id :: entry.options)) = .error error) ∨
      (5 ≤ entry.options.length ∧ c.jobName ≠ "" ∧ id ≠ "" ∧ c.contains id = false) ∧
        c.addChart (.array (.string id :: entry.options)) =
          .ok (c.push (c.chartOf 0 id { options := entry.options }),
            c.chartOf c.nextPriority id { options := entry.options }) := by
  rw [addChart, build_options]
  by_cases hshort : entry.options.length < 5
  · exact .inl ⟨_, .tooShort hshort, by rw [if_pos hshort]; rfl⟩
  have hlength : 5 ≤ entry.options.length := Nat.le_of_not_lt hshort
  rw [if_neg hshort]
  by_cases hname : c.jobName = ""
  · exact .inl ⟨_, .noJobName hlength hname, by rw [if_pos hname]; rfl⟩
  rw [if_neg hname]
  by_cases hid : id = ""
  · exact .inl ⟨_, .noId hlength hname hid, by rw [if_pos hid]; rfl⟩
  rw [if_neg hid]
  cases hcontains : c.contains id with
  | true => exact .inl ⟨_, .duplicate hlength hname hid hcontains, if_pos hcontains⟩
  | false =>
    refine .inr ⟨⟨hlength, hname, hid, rfl⟩, if_neg ?_⟩
    rw [chartOf, hcontains]
    decide

/-- What fills a chart of options alone: all of a sound entry, else what comes before the first refusal. -/
theorem fill_cases {c : Catalog} {id : String} {entry : Layout.Entry} (hlength : 5 ≤ entry.options.length)
    (hname : c.jobName ≠ "") (hid : id ≠ "") (hnew : c.contains id = false) (priority : Nat) :
    (c.Accepts [(id, entry)] ∧ fill (c.chartOf priority id { options := entry.options }) entry =
        (c.chartOf priority id entry, none)) ∨
      ∃ part error, c.Fails id entry (some part) error ∧
        fill (c.chartOf priority id { options := entry.options }) entry =
          (c.chartOf priority id part, some error) := by
  have haccepts {part : Layout.Entry} (h : part.Sound) : c.Accepts [(id, part)] :=
    accepts_singleton.mpr ⟨hname, hid, hnew, h⟩
  have hstart : ({ entry with lines := [], vars := [] } : Layout.Entry).Sound :=
    ⟨hlength, by simp, List.nodup_nil, by simp⟩
  rcases addDimensions_cases c priority id entry [] entry.lines hstart with
    ⟨hlines, hadded⟩ | ⟨before, params, after, error, hsplit, hbefore, hwhy, hadded⟩
  · rcases addVariables_cases c priority id entry [] entry.vars hlines with
      ⟨hvars, hfilled⟩ | ⟨before, params, after, error, hsplit, hbefore, hwhy, hfilled⟩
    · refine .inl ⟨haccepts hvars, ?_⟩
      rw [fill, hadded]
      exact hfilled
    · refine .inr ⟨_, error, .badVariable (haccepts hbefore) hsplit hwhy, ?_⟩
      rw [fill, hadded]
      exact hfilled
  · refine .inr ⟨{ entry with lines := before, vars := [] }, error, ?_, ?_⟩
    · rcases hwhy with hrefused | ⟨dimension, hread, hheld, rfl⟩
      · exact .badLine (haccepts hbefore) hsplit hrefused
      · exact .repeatedLine (haccepts hbefore) hsplit hread hheld
    · rw [fill, hadded]
      rfl

/-! ### Entries in order -/

section Entries

variable {c : Catalog} (h : c.nextPriority ≤ lastPriority)

include h

theorem extended_nil : c.extended [] = c := by
  simp [extended, h]

theorem extended_singleton (id : String) (entry : Layout.Entry) (priority : Nat) :
    c.extended [(id, entry)] = c.push (c.chartOf priority id entry) := by
  simp [extended, push, h, chartOf]

theorem createChart_outcome (id : String) (entry : Layout.Entry) :
    (c.Accepts [(id, entry)] ∧ c.createChart id entry = (c.extended [(id, entry)], none)) ∨
      ∃ part error, c.Fails id entry part error ∧
        c.createChart id entry = (c.extended (part.toList.map (id, ·)), some error) := by
  rcases c.addChart_options id entry with ⟨error, hfails, hadd⟩ | ⟨⟨hlength, hname, hid, hcontains⟩, hadd⟩
  · refine .inr ⟨none, error, hfails, ?_⟩
    rw [createChart, hadd, Option.toList_none, List.map_nil, extended_nil h]
  · have hput (part : Layout.Entry) :
        (c.push (c.chartOf 0 id { options := entry.options })).put (c.chartOf c.nextPriority id part) =
          c.extended [(id, part)] := by
      have hnew : ∀ held ∈ c.charts, held.id ≠ (c.chartOf 0 id { options := entry.options }).id := by
        simpa [contains, get?, chartOf] using hcontains
      have hid : (c.chartOf c.nextPriority id part).id = (c.chartOf 0 id { options := entry.options }).id := rfl
      have hpriority : (c.chartOf c.nextPriority id part).priority = c.nextPriority := rfl
      rw [put_push hnew hid hpriority, extended_singleton h]
    rcases fill_cases hlength hname hid hcontains c.nextPriority with
      ⟨haccepts, hfill⟩ | ⟨part, error, hfails, hfill⟩
    · refine .inl ⟨haccepts, ?_⟩
      simp only [createChart, hadd, hfill, hput]
    · refine .inr ⟨some part, error, hfails, ?_⟩
      simp only [createChart, hadd, hfill, hput]
      rfl

end Entries

theorem extended_cons (c : Catalog) (e : String × Layout.Entry) (rest : List (String × Layout.Entry)) :
    c.extended (e :: rest) = (c.extended [e]).extended rest := by
  have hpriority (i : Nat) : min (min (c.nextPriority + 1) lastPriority + i) lastPriority =
      min (c.nextPriority + (i + 1)) lastPriority := by omega
  simp [extended, chartOf, hpriority]

theorem contains_extended_singleton (c : Catalog) (e : String × Layout.Entry) (id : String) :
    (c.extended [e]).contains id = false ↔ c.contains id = false ∧ e.1 ≠ id := by
  simp [contains, get?, extended, chartOf]

theorem accepts_cons (c : Catalog) (e : String × Layout.Entry) (rest : List (String × Layout.Entry)) :
    c.Accepts (e :: rest) ↔ c.Accepts [e] ∧ (c.extended [e]).Accepts rest := by
  have hname : (c.extended [e]).jobName = c.jobName := rfl
  simp only [Accepts, contains_extended_singleton, hname, List.cons_ne_nil, false_or, List.forall_mem_cons,
    List.map_cons, List.nodup_cons, List.map_nil, List.not_mem_nil, List.nodup_nil]
  constructor
  · rintro ⟨hjob, ⟨hfirst, hrest⟩, hfresh, hdistinct⟩
    refine ⟨⟨hjob, ⟨hfirst, by simp⟩, by simp⟩, .inr ⟨hjob, fun other hother => ?_, hdistinct⟩⟩
    obtain ⟨hid, hnew, hsound⟩ := hrest other hother
    exact ⟨hid, ⟨hnew, fun heq => hfresh (List.mem_map.mpr ⟨other, hother, heq.symm⟩)⟩, hsound⟩
  · rintro ⟨⟨hjob, ⟨hfirst, -⟩, -⟩, rfl | ⟨-, hrest, hdistinct⟩⟩
    · exact ⟨hjob, ⟨hfirst, by simp⟩, by simp, List.nodup_nil⟩
    · refine ⟨hjob, ⟨hfirst, fun other hother => ?_⟩, fun hheld => ?_, hdistinct⟩
      · obtain ⟨hid, ⟨hnew, -⟩, hsound⟩ := hrest other hother
        exact ⟨hid, hnew, hsound⟩
      · obtain ⟨other, hother, heq⟩ := List.mem_map.mp hheld
        exact (hrest other hother).2.1.2 heq.symm

theorem nextPriority_extended (c : Catalog) (entries : List (String × Layout.Entry)) :
    (c.extended entries).nextPriority ≤ lastPriority :=
  Nat.min_le_right _ _

/-- What came of entries that were to be added in order. -/
def Outcome (c : Catalog) (entries : List (String × Layout.Entry)) (result : Catalog × Option DeclarationError) :
    Prop :=
  c.Accepts entries ∧ result = (c.extended entries, none) ∨
    ∃ before id entry after part error, entries = before ++ (id, entry) :: after ∧ c.Accepts before ∧
      (c.extended before).Fails id entry part error ∧
      result = (c.extended (before ++ part.toList.map (id, ·)), some error)

theorem createAll_outcome {c : Catalog} (h : c.nextPriority ≤ lastPriority) (layout : Layout)
    (order : List String) :
    c.Outcome (order.filterMap fun id => (layout.entry? id).map (id, ·)) (c.createAll layout order) := by
  induction order generalizing c with
  | nil => exact .inl ⟨.inl rfl, by rw [List.filterMap_nil, extended_nil h]; rfl⟩
  | cons id rest ih =>
    cases hentry : layout.entry? id with
    | none =>
      rw [List.filterMap_cons_none (by rw [hentry]; rfl), createAll, hentry]
      exact ih h
    | some entry =>
      rw [List.filterMap_cons_some (by rw [hentry]; rfl), createAll, hentry]
      rcases createChart_outcome h id entry with ⟨haccepts, hcreate⟩ | ⟨part, error, hfails, hcreate⟩
      · -- The other entries are added to the catalog that has the chart of this one.
        simp only [hcreate]
        rcases ih (c.nextPriority_extended [(id, entry)]) with
          ⟨hrest, hresult⟩ | ⟨before, other, bad, after, part, error, hsplit, hbefore, hfails, hresult⟩
        · refine .inl ⟨(c.accepts_cons _ _).mpr ⟨haccepts, hrest⟩, ?_⟩
          rw [hresult, ← extended_cons]
        · rw [← extended_cons] at hfails hresult
          refine .inr ⟨(id, entry) :: before, other, bad, after, part, error, by rw [hsplit]; rfl,
            (c.accepts_cons _ _).mpr ⟨haccepts, hbefore⟩, hfails, hresult⟩
      · refine .inr ⟨[], id, entry, _, part, error, rfl, .inl rfl, ?_, ?_⟩
        · rwa [extended_nil h]
        · simp only [hcreate]
          rfl

/-- An accepted entry is accepted in its turn. -/
theorem Accepts.in_turn {c : Catalog} (h : c.nextPriority ≤ lastPriority)
    {before after : List (String × Layout.Entry)} {e : String × Layout.Entry}
    (haccepts : c.Accepts (before ++ e :: after)) : (c.extended before).Accepts [e] := by
  induction before generalizing c with
  | nil =>
    rw [extended_nil h]
    exact ((c.accepts_cons e after).mp haccepts).1
  | cons first rest ih =>
    rw [extended_cons]
    exact ih (c.nextPriority_extended [first]) ((c.accepts_cons first _).mp haccepts).2

/-- A layout is created without an error exactly if its entries are acceptable, and each of them is a chart then,
with priorities in sequence. Else it is created up to the first entry that fails: that one has no chart, or one with
the lines and then the variables before the refused one. -/
theorem create_outcome (c : Catalog) (h : c.nextPriority ≤ lastPriority) (layout : Layout) :
    ((c.create layout).2 = none ↔ c.Accepts layout.due) ∧
      ((c.create layout).2 = none → (c.create layout).1 = c.extended layout.due) ∧
      ∀ error, (c.create layout).2 = some error →
        ∃ before id entry after part, layout.due = before ++ (id, entry) :: after ∧ c.Accepts before ∧
          (c.extended before).Fails id entry part error ∧
          (c.create layout).1 = c.extended (before ++ part.toList.map (id, ·)) := by
  have houtcome : c.Outcome layout.due (c.create layout) := createAll_outcome h layout layout.order
  rcases houtcome with
    ⟨haccepts, hresult⟩ | ⟨before, id, entry, after, part, error, hsplit, hbefore, hfails, hresult⟩
  · rw [hresult]
    exact ⟨iff_of_true rfl haccepts, fun _ => rfl, fun error herror => by cases herror⟩
  · have hrefused : ¬ c.Accepts layout.due := by
      rw [hsplit]
      exact fun haccepts => hfails.not_accepts (haccepts.in_turn h)
    rw [hresult]
    refine ⟨iff_of_false (Option.some_ne_none error) hrefused, nofun, fun _ heq => ?_⟩
    cases heq
    exact ⟨before, id, entry, after, part, hsplit, hbefore, hfails, rfl⟩

/-- The first chart takes the last priority but one, an id without an entry is passed over, and of the second chart
the line that repeats an id is refused. -/
theorem create_outcome_repeated_line :
    let c : Catalog := { Catalog.ofJob "web" with nextPriority := 4294967294 }
    let options : List Json := [.null, .string "Title", .string "ms", .null, .null]
    let first : Layout.Entry := { options := options, lines := [.array [.string "in"]] }
    let second : Layout.Entry :=
      { options := options, lines := [.array [.string "in"], .array [.string "out"], .array [.string "in"]] }
    let layout : Layout := { order := ["a", "gone", "b"], definitions := [("a", first), ("b", second)] }
    c.nextPriority ≤ lastPriority ∧ (c.create layout).2 = some (.duplicate .dimension "in") ∧
      ¬ c.Accepts layout.due ∧
      ∃ before id entry after part, layout.due = before ++ (id, entry) :: after ∧ c.Accepts before ∧
        (c.extended before).Fails id entry part (.duplicate .dimension "in") ∧
        (c.create layout).1 = c.extended (before ++ part.toList.map (id, ·)) := by
  intro c options first second layout
  have hpriority : c.nextPriority ≤ lastPriority := by decide
  have herror : (c.create layout).2 = some (.duplicate .dimension "in") := by decide +kernel
  obtain ⟨haccepts, -, hfails⟩ := create_outcome c hpriority layout
  refine ⟨hpriority, herror, fun h => ?_, hfails _ herror⟩
  rw [haccepts.mpr h] at herror
  cases herror

end Catalog

end ChartStream
