import ChartStream.Proofs.VariableValues

/-!
# What is read of samples

A chart looks samples up under the ids of its dimensions in use and of its variables, and nowhere else, and it sees
whether there is a value and which integer it stands for. Samples that agree on this are the same to it. Main
definitions: `Chart.idsRead`, `Samples.AgreeOn`, `Catalog.ReadAlike`. Main result: `Catalog.only_read_samples_count`.
-/

namespace ChartStream

set_option autoImplicit false

/-! ## Texts of integers -/

namespace Text

theorem trim_of_no_blank {cs : List Char} (h : ∀ c ∈ cs, isBlank c = false) : trim cs = cs := by
  have hkeep : ∀ ds : List Char, (∀ c ∈ ds, isBlank c = false) → ds.dropWhile isBlank = ds := by
    intro ds hds
    cases ds with
    | nil => rfl
    | cons c rest => exact List.dropWhile_cons_of_neg (by simp [hds c List.mem_cons_self])
  have hreverse : ∀ c ∈ cs.reverse, isBlank c = false := fun c hc => h c (List.mem_reverse.mp hc)
  rw [trim, hkeep cs h, hkeep cs.reverse hreverse, List.reverse_reverse]

theorem isBlank_of_isDigit {c : Char} (h : c.isDigit = true) : isBlank c = false := by
  have hrange : '0'.toNat ≤ c.toNat ∧ c.toNat ≤ '9'.toNat := by
    simpa [Char.isDigit, UInt32.le_iff_toNat_le] using h
  have hbounds : 48 ≤ c.toNat ∧ c.toNat ≤ 57 := hrange
  simp only [isBlank, blankRanges, List.any_cons, List.any_nil, Bool.or_false, Bool.or_eq_false_iff,
    Bool.and_eq_false_iff, decide_eq_false_iff_not]
  omega

theorem isBlank_of_mem_repr {n : Int} {c : Char} (h : c ∈ n.repr.toList) : isBlank c = false := by
  have hnatural : ∀ m : Nat, c ∈ m.repr.toList → isBlank c = false := by
    intro m hm
    rw [Nat.toList_repr] at hm
    exact isBlank_of_isDigit (Nat.isDigit_of_mem_toDigits (by decide) (by decide) hm)
  rw [Int.repr_eq_if] at h
  split at h
  · exact hnatural _ h
  · rw [String.toList_append, List.mem_append] at h
    rcases h with h | h
    · cases List.mem_singleton.mp h
      decide
    · exact hnatural _ h

end Text

/-! ## Samples -/

namespace Samples

/-- For each of the ids, both samples have a value or none, and these stand for the same integer if for any. -/
def AgreeOn (ids : List String) (data other : Samples) : Prop :=
  ∀ id ∈ ids, other.contains id = data.contains id ∧ other.integer? id = data.integer? id

instance (ids : List String) (data other : Samples) : Decidable (AgreeOn ids data other) :=
  inferInstanceAs (Decidable (∀ id ∈ ids, _ ∧ _))

variable {ids : List String} {data other : Samples}

theorem AgreeOn.subset (h : AgreeOn ids data other) {fewer : List String} (hsubset : fewer ⊆ ids) :
    AgreeOn fewer data other :=
  fun id hid => h id (hsubset hid)

/-- The decimal text of an integer stands for it, if it fits a signed word. -/
theorem integerOf?_text (n : Int) : integerOf? (.string (toString n)) = integerOf? (.integer n) := by
  have htrim : Text.trim (toString n).toList = n.repr.toList := by
    rw [Int.toString_eq_repr]
    exact Text.trim_of_no_blank fun _ => Text.isBlank_of_mem_repr
  simp only [integerOf?, htrim, Text.integer?_repr]

theorem lookup_cons (id held : String) (old : Json) (rest : List (String × Json)) :
    ((held, old) :: rest).lookup id = if id = held then some old else rest.lookup id := by
  rw [List.lookup_cons]
  by_cases hid : id = held
  · simp [hid]
  · simp [hid, beq_eq_false_iff_ne.mpr hid]

theorem lookup_setField (name id : String) (value : Json) (fields : List (String × Json)) :
    (Json.setField name value fields).lookup id = if id = name then some value else fields.lookup id := by
  induction fields with
  | nil => rw [Json.setField, lookup_cons]
  | cons field rest ih =>
    obtain ⟨held, old⟩ := field
    unfold Json.setField
    split
    · next hname =>
      rw [lookup_cons, lookup_cons, ← hname]
      split <;> rfl
    · next hname =>
      split
      · rw [lookup_cons]
      · rw [lookup_cons, lookup_cons, ih]
        split
        · next hid => rw [if_neg (hid ▸ Ne.symm hname)]
        · rfl

theorem get?_insert (data : Samples) (id name : String) (value : Json) :
    (data.insert name value).get? id = if id = name then some value else data.get? id :=
  lookup_setField name id value data.entries

/-- Two values that stand for the same integer, or both for none, are the same to every reader. -/
theorem agreeOn_insert (data : Samples) (name : String) {value instead : Json}
    (h : integerOf? instead = integerOf? value) (ids : List String) :
    AgreeOn ids (data.insert name value) (data.insert name instead) := by
  intro id _
  simp only [contains, integer?, get?_insert]
  split
  · exact ⟨rfl, h⟩
  · exact ⟨rfl, rfl⟩

/-- Nobody sees a value under an id that is not read. -/
theorem agreeOn_insert_of_not_mem (data : Samples) {name : String} (h : name ∉ ids) (value : Json) :
    AgreeOn ids data (data.insert name value) := by
  intro id hid
  have hother : id ≠ name := fun heq => h (heq ▸ hid)
  simp only [contains, integer?, get?_insert, if_neg hother, and_self]

end Samples

/-! ## Charts -/

namespace Chart

/-- The ids under which a chart looks samples up. -/
def idsRead (c : Chart) : List String :=
  c.idsInUse ++ c.vars.map (·.id)

variable {c : Chart} {data other : Samples}

theorem idsRead_known (c : Chart) : c.known.idsRead = c.idsRead := by
  have hinUse : c.known.idsInUse = c.idsInUse := by
    unfold known
    rw [idsInUse, idsInUse, ← c.dimensions_revived]
    split
    · simp [declared]
    · rfl
  rw [idsRead, idsRead, hinUse, vars_known]

theorem mem_idsRead_of_dimension {d : Dimension} (hd : d ∈ c.dimensions) (huse : d.obsolete = false) :
    d.id ∈ c.idsRead :=
  List.mem_append_left _ (List.mem_map_of_mem (List.mem_filter.mpr ⟨hd, by simp [huse]⟩))

theorem mem_idsRead_of_variable {v : Variable} (hv : v ∈ c.vars) : v.id ∈ c.idsRead :=
  List.mem_append_right _ (List.mem_map_of_mem hv)

theorem accepts_congr (h : data.AgreeOn c.idsRead other) : c.accepts other = c.accepts data := by
  rw [Bool.eq_iff_iff, accepts_iff, accepts_iff]
  refine or_congr (exists_congr fun d => and_congr_right fun hd => and_congr_right fun huse => ?_)
    (exists_congr fun v => and_congr_right fun hv => ?_)
  · rw [(h d.id (mem_idsRead_of_dimension hd huse)).1]
  · rw [(h v.id (mem_idsRead_of_variable hv)).1]

theorem values_congr (h : data.AgreeOn c.idsRead other) : c.values other = c.values data := by
  have hdimension : ∀ d ∈ c.dimensions.filter fun d => !d.obsolete, d.sample? other = d.sample? data := by
    intro d hd
    obtain ⟨hd, huse⟩ := List.mem_filter.mp hd
    exact (h d.id (mem_idsRead_of_dimension hd (by simpa using huse))).2
  have hvariable : ∀ v ∈ c.vars, v.sample? other = v.sample? data :=
    fun v hv => (h v.id (mem_idsRead_of_variable hv)).2
  rw [values, values, List.filterMap_congr fun d hd => congrArg (Option.map d.setLine) (hdimension d hd),
    List.filterMap_congr fun v hv => congrArg (Option.map (Line.variable v.id)) (hvariable v hv)]

/-- An update depends on the samples only by what it reads of them. -/
theorem update_congr (h : data.AgreeOn c.idsRead other) (sinceLast : Nat) :
    c.update other sinceLast = c.update data sinceLast := by
  -- A declaration may come before the values, and leaves the ids that are read as they are.
  have hknown : data.AgreeOn c.known.idsRead other := c.idsRead_known ▸ h
  cases haccepts : c.accepts data with
  | true =>
    have hother : c.accepts other = true := (accepts_congr h).trans haccepts
    rw [update_of_accepts haccepts, update_of_accepts hother, group_eq, group_eq, values_congr hknown]
  | false =>
    have hother : c.accepts other = false := (accepts_congr h).trans haccepts
    rw [update_of_not_accepts haccepts, update_of_not_accepts hother]

/-- Samples never bring a dimension into being. -/
theorem dimensions_update_sublist (c : Chart) (data : Samples) (sinceLast : Nat) :
    (c.update data sinceLast).chart.dimensions.Sublist c.dimensions := by
  cases haccepts : c.accepts data with
  | true =>
    rw [update_of_accepts haccepts, ← c.dimensions_revived]
    change c.known.dimensions.Sublist _
    unfold known
    split
    · exact List.filter_sublist
    · exact List.Sublist.refl _
  | false => rw [update_of_not_accepts haccepts]

end Chart

/-! ## Catalogs -/

namespace Catalog

/-- The ids under which samples are looked up for the charts of a catalog. -/
def idsRead (c : Catalog) : List String :=
  c.charts.flatMap Chart.idsRead

variable {c : Catalog} {data other : Samples}

theorem step_congr {chart : Chart} (h : data.AgreeOn chart.idsRead other) (sinceLast cleanup : Nat) :
    step other sinceLast cleanup chart = step data sinceLast cleanup chart := by
  simp only [step, Chart.accepts_congr h, Chart.update_congr h]

theorem update_congr (h : data.AgreeOn c.idsRead other) (sinceLast cleanup : Nat) :
    c.update other sinceLast cleanup = c.update data sinceLast cleanup := by
  have hsteps : c.charts.map (step other sinceLast cleanup) = c.charts.map (step data sinceLast cleanup) := by
    refine List.map_congr_left fun chart hchart => step_congr (h.subset fun id hid => ?_) sinceLast cleanup
    exact List.mem_flatMap.mpr ⟨chart, hchart, hid⟩
  rw [update, update, hsteps]

theorem dimensions_step_sublist (data : Samples) (sinceLast cleanup : Nat) (chart : Chart) :
    (step data sinceLast cleanup chart).chart.dimensions.Sublist chart.dimensions := by
  have hupdate := chart.dimensions_update_sublist data sinceLast
  rcases step_cases data sinceLast cleanup chart with hstep | hstep | hstep <;> rw [hstep]
  · exact hupdate
  · unfold Chart.obsolete
    split <;> exact hupdate

/-- The operations are the same, but that their samples may differ in what the charts do not read at this moment. -/
inductive Operation.ReadsAlike (c : Catalog) : Operation → Operation → Prop
  | same (op : Operation) : ReadsAlike c op op
  | update {data other : Samples} (sinceLast cleanup : Nat) (h : data.AgreeOn c.idsRead other) :
      ReadsAlike c (.update data sinceLast cleanup) (.update other sinceLast cleanup)
  | updateChart (id : String) {data other : Samples} (sinceLast : Nat)
      (h : ∀ chart ∈ c.get? id, data.AgreeOn chart.idsRead other) :
      ReadsAlike c (.onChart id (.update data sinceLast)) (.onChart id (.update other sinceLast))

/-- Two runs of the same operations, where corresponding samples agree on all that is read in the first run. -/
inductive ReadAlike : Catalog → List Operation → List Operation → Prop
  | nil (c : Catalog) : ReadAlike c [] []
  | cons {c : Catalog} {op other : Operation} {rest others : List Operation} (hop : op.ReadsAlike c other)
      (hrest : ReadAlike (c.apply op).catalog rest others) : ReadAlike c (op :: rest) (other :: others)

/-- What the operations of a run do, one after the other. -/
def effects (c : Catalog) : List Operation → List Effect
  | [] => []
  | op :: rest => c.apply op :: (c.apply op).catalog.effects rest

theorem apply_congr {op other : Operation} (h : op.ReadsAlike c other) : c.apply other = c.apply op := by
  cases h with
  | same => rfl
  | update sinceLast cleanup h => simp only [apply, update_congr h]
  | updateChart id sinceLast h =>
    cases hget : c.get? id with
    | none => simp only [apply, hget]
    | some chart => simp only [apply, hget, Chart.apply, Chart.update_congr (h chart hget)]

theorem ReadAlike.effects {ops others : List Operation} (h : c.ReadAlike ops others) :
    c.effects others = c.effects ops := by
  induction h with
  | nil => rfl
  | cons hop _ ih => rw [Catalog.effects, Catalog.effects, apply_congr hop, ih]

theorem ReadAlike.run {ops others : List Operation} (h : c.ReadAlike ops others) : c.run others = c.run ops := by
  induction h with
  | nil => rfl
  | cons hop _ ih => rw [Catalog.run, Catalog.run, apply_congr hop, ih]

/-- Of samples, only that counts what is read of them: two runs of the same operations do the same at every step, with
the same answers, lines and charts, if corresponding samples agree for every id of a dimension in use or a variable
at that moment. So a value under another id is without effect, no samples make a dimension, an integer can be given
as its decimal text, and one value that stands for no integer in the place of another one. -/
theorem only_read_samples_count (c : Catalog) :
    (∀ ops others, c.ReadAlike ops others → c.effects others = c.effects ops ∧ c.run others = c.run ops) ∧
    (∀ (data : Samples) (id : String) (value : Json), id ∉ c.idsRead → ∀ sinceLast cleanup,
      c.update (data.insert id value) sinceLast cleanup = c.update data sinceLast cleanup) ∧
    (∀ (data : Samples) (sinceLast cleanup : Nat), List.Forall₂
      (fun before after : Chart => after.fullId = before.fullId ∧ after.dimensions.Sublist before.dimensions)
      c.charts (c.update data sinceLast cleanup).catalog.charts) ∧
    (∀ (data : Samples) (id : String) (n : Int) (sinceLast cleanup : Nat),
      c.update (data.insert id (.string (toString n))) sinceLast cleanup =
        c.update (data.insert id (.integer n)) sinceLast cleanup) ∧
    ∀ (data : Samples) (id : String) (value instead : Json),
      Samples.integerOf? value = none → Samples.integerOf? instead = none → ∀ sinceLast cleanup,
        c.update (data.insert id instead) sinceLast cleanup = c.update (data.insert id value) sinceLast cleanup := by
  refine ⟨fun ops others h => ⟨h.effects, h.run⟩, fun data id value hid sinceLast cleanup => ?_,
    fun data sinceLast cleanup => ?_, fun data id n sinceLast cleanup => ?_,
    fun data id value instead hvalue hinstead sinceLast cleanup => ?_⟩
  · exact update_congr (data.agreeOn_insert_of_not_mem hid value) sinceLast cleanup
  · rw [charts_update, List.forall₂_map_right_iff, List.forall₂_same]
    intro chart _
    exact ⟨Chart.fullId_of_header (header_step data sinceLast cleanup chart),
      dimensions_step_sublist data sinceLast cleanup chart⟩
  · exact update_congr (data.agreeOn_insert id (Samples.integerOf?_text n) c.idsRead) sinceLast cleanup
  · have hreading : Samples.integerOf? instead = Samples.integerOf? value := hinstead.trans hvalue.symm
    exact update_congr (data.agreeOn_insert id hreading c.idsRead) sinceLast cleanup

/-- A chart gets values, loses a dimension and gets values again, the last time on its own. -/
def gauges (second third : Samples) : List Operation :=
  [.addChart (.array [.string "net", .null, .string "Traffic", .string "kb", .string "net", .string "net.traffic"]),
    .onChart "net" (.insertDimension (.ofId "in")),
    .onChart "net" (.insertDimension (.ofId "out")),
    .onChart "net" (.addVariable (.array [.string "limit"])),
    .update ⟨[("in", .integer 3), ("out", .integer 4)]⟩ 0 0,
    .onChart "net" (.removeDimension "out" true),
    .update second 1 0,
    .onChart "net" (.update third 1)]

/-- An integer as text, another value without a meaning, a value for the dimension that was taken back and one for
nothing at all; then the last two once more, in a cycle of their own. -/
theorem only_read_samples_count_gauges :
    let second : Samples := ⟨[("in", .integer 5), ("limit", .null)]⟩
    let instead : Samples := ⟨[("in", .string " +5"), ("limit", .string "n/a"), ("out", .integer 9), ("up", .bool true)]⟩
    let third : Samples := ⟨[("limit", .integer (-7))]⟩
    let last : Samples := ⟨[("limit", .string "-7"), ("out", .integer 1)]⟩
    let reached := ((ofJob "job").run (gauges second third)).catalog
    (ofJob "job").ReadAlike (gauges second third) (gauges instead last) ∧
      (ofJob "job").effects (gauges instead last) = (ofJob "job").effects (gauges second third) ∧
      ((ofJob "job").run (gauges instead last)).lines.filter Line.isValue =
        [.set "in" 3, .set "out" 4, .set "in" 5, .variable "limit" (-7)] ∧
      reached.update (second.insert "out" (.integer 9)) 1 0 = reached.update second 1 0 ∧
      reached.update (second.insert "limit" (.string "n/a")) 1 0 = reached.update (second.insert "limit" .null) 1 0 := by
  intro second instead third last reached
  have halike : (ofJob "job").ReadAlike (gauges second third) (gauges instead last) := by
    refine .cons (.same _) (.cons (.same _) (.cons (.same _) (.cons (.same _) (.cons (.same _) (.cons (.same _)
      (.cons (.update 1 0 ?_) (.cons (.updateChart "net" 1 ?_) (.nil _))))))))
    · decide +kernel
    · decide +kernel
  obtain ⟨hruns, -, -, -, -⟩ := only_read_samples_count (ofJob "job")
  obtain ⟨-, hunread, -, -, hunreadable⟩ := only_read_samples_count reached
  obtain ⟨heffects, hrun⟩ := hruns _ _ halike
  have hgone : "out" ∉ reached.idsRead := by decide +kernel
  refine ⟨halike, heffects, ?_, hunread second "out" (.integer 9) hgone 1 0,
    hunreadable second "limit" .null (.string "n/a") rfl (by decide +kernel) 1 0⟩
  rw [hrun]
  decide +kernel

end Catalog

end ChartStream
