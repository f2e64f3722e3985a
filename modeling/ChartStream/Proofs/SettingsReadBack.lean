import ChartStream.Config.Decode
import ChartStream.Config.Encode
import ChartStream.Proofs.DurationText

/-!
# Written settings read back

The settings that are written as JSON are read back as they were. An object holds its fields sorted by name, so they
come back in another order than they were written in; each of them sets its own part of the settings, whatever the
others did. Main statement: `settings_read_back`.
-/

namespace ChartStream

set_option autoImplicit false

open Config Document

/-! ## Fields in any order -/

namespace Json

theorem setField_perm {name : String} {value : Json} {sorted : List (String × Json)}
    (hnew : ∀ f ∈ sorted, f.1 ≠ name) : (setField name value sorted).Perm ((name, value) :: sorted) := by
  induction sorted with
  | nil => rfl
  | cons f rest ih =>
    obtain ⟨hf, hrest⟩ := List.forall_mem_cons.mp hnew
    rw [setField, if_neg (Ne.symm hf)]
    split
    · rfl
    · exact ((ih hrest).cons f).trans (List.Perm.swap _ _ _)

/-- The object of fields with distinct names holds these fields. -/
theorem ofFields_perm {fields : List (String × Json)} (h : (fields.map (·.1)).Nodup) :
    ∃ sorted, ofFields fields = .object sorted ∧ sorted.Perm fields := by
  have hgrown : ∀ sorted : List (String × Json), ((sorted ++ fields).map (·.1)).Nodup →
      (fields.foldl (fun sorted f => setField f.1 f.2 sorted) sorted).Perm (sorted ++ fields) := by
    clear h
    induction fields with
    | nil => intro sorted _; rw [List.append_nil]; rfl
    | cons f rest ih =>
      intro sorted h
      have hnew : ∀ g ∈ sorted, g.1 ≠ f.1 := by
        intro g hg heq
        rw [List.map_append, List.nodup_append] at h
        exact h.2.2 _ (List.mem_map_of_mem hg) _ (List.mem_map_of_mem List.mem_cons_self) heq
      have hset : (setField f.1 f.2 sorted ++ rest).Perm (sorted ++ f :: rest) :=
        ((setField_perm hnew).append_right rest).trans List.perm_middle.symm
      exact (ih _ ((hset.map _).nodup_iff.mpr h)).trans hset
  exact ⟨_, rfl, hgrown [] h⟩

end Json

namespace Document

variable {σ : Type}

theorem text_string (s : String) : text (Json.string s) = pure s := rfl

theorem flag_bool (b : Bool) : flag (Json.bool b) = pure b := rfl

/-- Fields with distinct names are read one after the other. `after` is what comes of a state by some fields. -/
theorem readFields_named {known : List String} {take takeOther : String → Json → σ → Reading σ}
    {after : List (String × Json) → σ → σ} (hnil : ∀ s, after [] s = s)
    (hcons : ∀ f rest s, after (f :: rest) s = after rest (after [f] s)) {fields : List (String × Json)}
    (hknown : ∀ f ∈ fields, f.1 ∈ known → ∀ s, take f.1 f.2 s = pure (after [f] s))
    (hother : ∀ f ∈ fields, f.1 ∉ known → ∀ s, takeOther f.1 f.2 s = pure (after [f] s)) {seen : List String}
    (hdistinct : (fields.map (·.1)).Nodup) (hseen : ∀ f ∈ fields, f.1 ∉ seen) (s : σ) :
    readFields known take takeOther seen s (Json.namedFields fields) = pure (after fields s) := by
  induction fields generalizing seen s with
  | nil => rw [hnil]; rfl
  | cons f rest ih =>
    obtain ⟨hfknown, hknown⟩ := List.forall_mem_cons.mp hknown
    obtain ⟨hfother, hother⟩ := List.forall_mem_cons.mp hother
    obtain ⟨hfseen, hseen⟩ := List.forall_mem_cons.mp hseen
    obtain ⟨hfrest, hdistinct⟩ := List.nodup_cons.mp hdistinct
    rw [hcons, Json.namedFields, List.map_cons, readFields, text_string, pure_bind, ← Json.namedFields]
    by_cases hf : f.1 ∈ known
    -- The name joins those seen, and none of the fields that follow has it.
    · have hnext : ∀ g ∈ rest, g.1 ∉ f.1 :: seen := by
        intro g hg hmem
        obtain heq | hmem := List.mem_cons.mp hmem
        · exact hfrest (List.mem_map.mpr ⟨g, hg, heq⟩)
        · exact hseen g hg hmem
      rw [hfknown hf, pure_bind, ih hknown hother hdistinct hnext]
      simp [hf, hfseen]
    · rw [hfother hf, pure_bind, ih hknown hother hdistinct hseen]
      simp [hf]

/-- A record whose fields are all there, in whatever order, is read by all of them. -/
theorem readRecord_named {take : String → Json → σ → Reading σ} {after : List (String × Json) → σ → σ}
    (hnil : ∀ s, after [] s = s) (hcons : ∀ f rest s, after (f :: rest) s = after rest (after [f] s))
    {declared : List (String × Json)} (hread : ∀ f ∈ declared, ∀ s, take f.1 f.2 s = pure (after [f] s))
    (hdistinct : (declared.map (·.1)).Nodup) {fields : List (String × Json)} (h : fields.Perm declared) (s : σ) :
    readRecord (declared.map (·.1)) take s (Json.namedFields fields) = pure (after fields s) :=
  readFields_named hnil hcons (fun f hf _ => hread f (h.mem_iff.mp hf))
    (fun _ hf hunknown => absurd (List.mem_map_of_mem (h.mem_iff.mp hf)) hunknown)
    ((h.map _).nodup_iff.mpr hdistinct) (fun _ _ => List.not_mem_nil) s

/-- What is read of an object are its fields, in some order. -/
theorem fields_ofFields {declared : List (String × Json)} (h : (declared.map (·.1)).Nodup) (names : List String) :
    ∃ fields : List (String × Json), fields.Perm declared ∧
      Document.fields names (Json.ofFields declared) = pure (Json.namedFields fields) ∧
      Document.entries (Json.ofFields declared) = pure (Json.namedFields fields) := by
  obtain ⟨sorted, hsorted, hperm⟩ := Json.ofFields_perm h
  rw [hsorted]
  exact ⟨sorted, hperm, rfl, rfl⟩

/-- A written duration is read as that duration. -/
theorem duration_toText (d : Duration) : duration (Json.string d.toText) = pure d := by
  rw [duration, text_string, pure_bind, Duration.read_toText]

theorem unsigned_integer {width n : Nat} (h : n < Nat.pow 2 width) :
    unsigned width (Json.integer n) = pure n := by
  have hword : Text.inUnsigned width n = true := decide_eq_true h
  show Reading.ofOption (if Text.inUnsigned width n then some n else none) = pure n
  rw [if_pos hword, Reading.ofOption_some]

end Document

/-- What one part of a state is after some fields is what it is after the first one and then after the others. -/
theorem ite_mem_cons {β : Type} (part name : String) (names : List String) (set kept : β) :
    (if part ∈ name :: names then set else kept) =
      if part ∈ names then set else if part ∈ [name] then set else kept := by
  by_cases hnames : part ∈ names
  · rw [if_pos hnames, if_pos (List.mem_cons_of_mem _ hnames)]
  · simp [hnames]

/-! ## The settings of a job -/

namespace JobConfig

/-- The settings `s` with those of `c` in the given fields. -/
def after (c : JobConfig) (fields : List (String × Json)) (s : JobConfig) : JobConfig :=
  let names := fields.map (·.1)
  { name := if "name" ∈ names then c.name else s.name
    updateEvery := if "update_every" ∈ names then c.updateEvery else s.updateEvery
    penalty := if "penalty" ∈ names then c.penalty else s.penalty
    maxPenalty := if "max_penalty" ∈ names then c.maxPenalty else s.maxPenalty
    chartCleanup := if "chart_cleanup" ∈ names then c.chartCleanup else s.chartCleanup
    priority := if "priority" ∈ names then c.priority else s.priority
    timeout := if "timeout" ∈ names then c.timeout else s.timeout }

theorem after_cons (c : JobConfig) (f : String × Json) (rest : List (String × Json)) (s : JobConfig) :
    c.after (f :: rest) s = c.after rest (c.after [f] s) := by
  simp only [after, List.map_cons, List.map_nil, ite_mem_cons _ f.1 (rest.map (·.1))]

theorem after_all (c : JobConfig) {fields : List (String × Json)} (h : fields.Perm c.toFields) (s : JobConfig) :
    c.after fields s = c := by
  have hnames (name : String) : name ∈ fields.map (·.1) ↔ name ∈ fieldNames := (h.map _).mem_iff
  simp only [after, hnames, fieldNames, List.mem_cons, true_or, or_true, if_true]

theorem nodup_toFields (c : JobConfig) : (c.toFields.map (·.1)).Nodup := by
  have hnames : fieldNames.Nodup := by decide
  exact hnames

theorem readField_toFields (c : JobConfig) :
    ∀ f ∈ c.toFields, ∀ s, readField f.1 f.2 s = pure (c.after [f] s) := by
  simp only [toFields, List.forall_mem_cons, List.not_mem_nil, false_imp_iff, implies_true, and_true]
  refine ⟨fun s => ?_, fun s => ?_, fun s => ?_, fun s => ?_, fun s => ?_, fun s => ?_, fun s => ?_⟩
  · simp [readField, after, text_string]
  · simp [readField, after, unsigned_integer c.updateEvery.toNat_lt]
  · simp [readField, after, flag_bool]
  · simp [readField, after, duration_toText]
  · simp [readField, after, unsigned_integer c.chartCleanup.toNat_lt]
  · simp [readField, after, unsigned_integer c.priority.toNat_lt]
  · simp [readField, after, duration_toText]

/-- The fields of some settings, in whatever order, are read as these settings. -/
theorem ofFields_toFields (c : JobConfig) {fields : List (String × Json)} (h : fields.Perm c.toFields) :
    ofFields (Json.namedFields fields) = pure c := by
  have hread := readRecord_named (fun _ => rfl) c.after_cons c.readField_toFields c.nodup_toFields h {}
  rw [c.after_all h] at hread
  exact hread

theorem ofDocument_toJson (c : JobConfig) : ofDocument c.toJson = pure c := by
  obtain ⟨fields, hperm, hfields, -⟩ := fields_ofFields c.nodup_toFields fieldNames
  rw [ofDocument, toJson, hfields, pure_bind, c.ofFields_toFields hperm]

end JobConfig

/-! ## The settings of a port check -/

namespace PortcheckConfig

/-- The fields that only port checks have. -/
def ownFields (c : PortcheckConfig) : List (String × Json) :=
  [("host", .string c.host), ("port", .integer c.port.toNat), ("connect_timeout", .string c.connectTimeout.toText)]

/-- What is read so far after some fields of the settings `c`. -/
def after (c : PortcheckConfig) (fields : List (String × Json)) (s : Fields) : Fields :=
  let names := fields.map (·.1)
  { host := if "host" ∈ names then some c.host else s.host
    port := if "port" ∈ names then some c.port else s.port
    connectTimeout := if "connect_timeout" ∈ names then c.connectTimeout else s.connectTimeout
    shared := (Json.namedFields (fields.filter (·.1 ∉ ownNames))).reverse ++ s.shared }

theorem after_cons (c : PortcheckConfig) (f : String × Json) (rest : List (String × Json)) (s : Fields) :
    c.after (f :: rest) s = c.after rest (c.after [f] s) := by
  have hshared : (Json.namedFields ((f :: rest).filter (·.1 ∉ ownNames))).reverse ++ s.shared =
      (Json.namedFields (rest.filter (·.1 ∉ ownNames))).reverse ++
        ((Json.namedFields ([f].filter (·.1 ∉ ownNames))).reverse ++ s.shared) := by
    rw [← List.append_assoc, ← List.reverse_append, Json.namedFields, Json.namedFields, Json.namedFields,
      ← List.map_append, ← List.filter_append, List.singleton_append]
  rw [after, hshared]
  simp only [after, List.map_cons, List.map_nil, ite_mem_cons _ f.1 (rest.map (·.1))]

theorem readOwn_ownFields (c : PortcheckConfig) :
    ∀ f ∈ c.ownFields, ∀ s, Fields.readOwn f.1 f.2 s = pure (c.after [f] s) := by
  simp only [ownFields, List.forall_mem_cons, List.not_mem_nil, false_imp_iff, implies_true, and_true]
  refine ⟨fun s => ?_, fun s => ?_, fun s => ?_⟩
  · simp [Fields.readOwn, after, ownNames, Json.namedFields, text_string]
  · simp [Fields.readOwn, after, ownNames, Json.namedFields, unsigned_integer c.port.toNat_lt]
  · simp [Fields.readOwn, after, ownNames, Json.namedFields, duration_toText]

theorem keepShared_eq (c : PortcheckConfig) {f : String × Json} (h : f.1 ∉ ownNames) (s : Fields) :
    Fields.keepShared f.1 f.2 s = pure (c.after [f] s) := by
  obtain ⟨hhost, hport, htimeout⟩ : ¬ "host" = f.1 ∧ ¬ "port" = f.1 ∧ ¬ "connect_timeout" = f.1 := by
    simpa [ownNames, eq_comm] using h
  have hcontent : Document.content f.2 = pure f.2 := rfl
  rw [Fields.keepShared, hcontent, pure_bind]
  simp [after, hhost, hport, htimeout, h, Json.namedFields]

/-- The fields of the settings of a port check. -/
def toFields (c : PortcheckConfig) : List (String × Json) :=
  c.job.toFields ++ c.ownFields

theorem nodup_toFields (c : PortcheckConfig) : (c.toFields.map (·.1)).Nodup := by
  have hnames : (JobConfig.fieldNames ++ ownNames).Nodup := by decide
  rw [toFields, List.map_append]
  exact hnames

theorem unowned_of_job (c : PortcheckConfig) {f : String × Json} (h : f ∈ c.job.toFields) : f.1 ∉ ownNames := by
  have hapart : ∀ name ∈ JobConfig.fieldNames, name ∉ ownNames := by decide
  exact hapart f.1 (List.mem_map_of_mem h)

theorem owned_of_own (c : PortcheckConfig) {f : String × Json} (h : f ∈ c.ownFields) : f.1 ∈ ownNames :=
  List.mem_map_of_mem h

theorem filter_toFields (c : PortcheckConfig) : c.toFields.filter (·.1 ∉ ownNames) = c.job.toFields := by
  have hjob : c.job.toFields.filter (·.1 ∉ ownNames) = c.job.toFields :=
    List.filter_eq_self.mpr fun f hf => decide_eq_true (c.unowned_of_job hf)
  have hown : c.ownFields.filter (·.1 ∉ ownNames) = [] :=
    List.filter_eq_nil_iff.mpr fun f hf => by simpa using c.owned_of_own hf
  rw [toFields, List.filter_append, hjob, hown, List.append_nil]

/-- After all fields the own settings are read, and those of the job are kept as they stood. -/
theorem after_all (c : PortcheckConfig) {fields : List (String × Json)} (h : fields.Perm c.toFields) :
    c.after fields {} =
      { host := some c.host
        port := some c.port
        connectTimeout := c.connectTimeout
        shared := (Json.namedFields (fields.filter (·.1 ∉ ownNames))).reverse } := by
  have hnames (name : String) : name ∈ fields.map (·.1) ↔ name ∈ JobConfig.fieldNames ++ ownNames :=
    (h.map _).mem_iff
  simp only [after, hnames, ownNames, List.mem_append, List.mem_cons, true_or, or_true, if_true, List.append_nil]

theorem ofDocument_toJson (c : PortcheckConfig) : ofDocument c.toJson = pure c := by
  obtain ⟨fields, hperm, -, hentries⟩ := fields_ofFields c.nodup_toFields []
  have hread : readFields ownNames Fields.readOwn Fields.keepShared [] {} (Json.namedFields fields) =
      pure (c.after fields {}) := by
    refine readFields_named (fun _ => rfl) c.after_cons (fun f hf hown => ?_) (fun f _ hother => c.keepShared_eq hother)
      ((hperm.map _).nodup_iff.mpr c.nodup_toFields) (fun _ _ => List.not_mem_nil) {}
    obtain hjob | hf := List.mem_append.mp (hperm.mem_iff.mp hf)
    · exact absurd hown (c.unowned_of_job hjob)
    · exact c.readOwn_ownFields f hf
  have hjob : (fields.filter (·.1 ∉ ownNames)).Perm c.job.toFields := c.filter_toFields ▸ hperm.filter _
  have hjson : c.toJson = Json.ofFields c.toFields := rfl
  rw [ofDocument, hjson, hentries, pure_bind, hread, pure_bind, c.after_all hperm]
  simp only [Reading.ofOption_some, pure_bind, List.reverse_reverse, c.job.ofFields_toFields hjob]

end PortcheckConfig

/-! ## The jobs by collector and the settings of the plugin -/

namespace CollectorsConfig

/-- The fields of the jobs by collector. -/
def toFields (c : CollectorsConfig) : List (String × Json) :=
  [("portcheck", .array (c.portcheck.map PortcheckConfig.toJson))]

theorem nodup_toFields (c : CollectorsConfig) : (c.toFields.map (·.1)).Nodup :=
  List.nodup_singleton _

theorem mapM_ofDocument (checks : List PortcheckConfig) :
    (checks.map PortcheckConfig.toJson).mapM PortcheckConfig.ofDocument = pure checks := by
  induction checks with
  | nil => rfl
  | cons check rest ih =>
    rw [List.map_cons, List.mapM_cons, check.ofDocument_toJson, pure_bind, ih, pure_bind]

theorem readField_jobs (c s : CollectorsConfig) :
    readField "portcheck" (Json.array (c.portcheck.map PortcheckConfig.toJson)) s = pure c := by
  have hitems (values : List Json) : Document.items (.array values) = pure values := rfl
  simp only [readField, hitems, pure_bind, mapM_ofDocument]

theorem ofDocument_toJson (c : CollectorsConfig) : ofDocument c.toJson = pure c := by
  obtain ⟨fields, hperm, hfields, -⟩ := fields_ofFields c.nodup_toFields fieldNames
  have hjson : c.toJson = Json.ofFields c.toFields := rfl
  rw [ofDocument, hjson, hfields, pure_bind, List.perm_singleton.mp hperm]
  simp [readRecord, Json.namedFields, readFields, text_string, fieldNames, c.readField_jobs]

end CollectorsConfig

namespace PluginConfig

/-- The fields of the settings of the plugin. -/
def toFields (c : PluginConfig) : List (String × Json) :=
  [("internal_monitoring", .bool c.internalMonitoring),
    ("channel_capacity", .integer c.channelCapacity.toNat),
    ("collectors", c.collectors.toJson),
    ("collector_path", match c.collectorPath with
      | some path => .string path
      | none => .null)]

theorem nodup_toFields (c : PluginConfig) : (c.toFields.map (·.1)).Nodup := by
  have hnames : fieldNames.Nodup := by decide
  exact hnames

/-- The settings `s` with those of `c` in the given fields. -/
def after (c : PluginConfig) (fields : List (String × Json)) (s : PluginConfig) : PluginConfig :=
  let names := fields.map (·.1)
  { internalMonitoring := if "internal_monitoring" ∈ names then c.internalMonitoring else s.internalMonitoring
    channelCapacity := if "channel_capacity" ∈ names then c.channelCapacity else s.channelCapacity
    collectors := if "collectors" ∈ names then c.collectors else s.collectors
    collectorPath := if "collector_path" ∈ names then c.collectorPath else s.collectorPath }

theorem after_cons (c : PluginConfig) (f : String × Json) (rest : List (String × Json)) (s : PluginConfig) :
    c.after (f :: rest) s = c.after rest (c.after [f] s) := by
  simp only [after, List.map_cons, List.map_nil, ite_mem_cons _ f.1 (rest.map (·.1))]

theorem after_all (c : PluginConfig) {fields : List (String × Json)} (h : fields.Perm c.toFields) (s : PluginConfig) :
    c.after fields s = c := by
  have hnames (name : String) : name ∈ fields.map (·.1) ↔ name ∈ fieldNames := (h.map _).mem_iff
  simp only [after, hnames, fieldNames, List.mem_cons, true_or, or_true, if_true]

theorem optionalText_path (path : Option String) :
    optionalText (match path with
      | some path => Json.string path
      | none => .null) = pure path := by
  cases path <;> rfl

theorem readField_toFields (c : PluginConfig) :
    ∀ f ∈ c.toFields, ∀ s, readField f.1 f.2 s = pure (c.after [f] s) := by
  simp only [toFields, List.forall_mem_cons, List.not_mem_nil, false_imp_iff, implies_true, and_true]
  refine ⟨fun s => ?_, fun s => ?_, fun s => ?_, fun s => ?_⟩
  · simp [readField, after, flag_bool]
  · simp [readField, after, unsigned_integer c.channelCapacity.toNat_lt]
  · simp [readField, after, c.collectors.ofDocument_toJson]
  · simp [readField, after, optionalText_path]

theorem ofDocument_toJson (c : PluginConfig) : ofDocument c.toJson = pure c := by
  obtain ⟨fields, hperm, hfields, -⟩ := fields_ofFields c.nodup_toFields fieldNames
  have hjson : c.toJson = Json.ofFields c.toFields := rfl
  have hread := readRecord_named (fun _ => rfl) c.after_cons c.readField_toFields c.nodup_toFields hperm {}
  rw [c.after_all hperm] at hread
  rw [ofDocument, hjson, hfields, pure_bind]
  exact hread

end PluginConfig

/-! ## Reading back -/

/-- Settings that are written are read back as they were: those of the plugin, of the jobs by collector, of a port
check with those of its job beside them, and of a job, however many references may be followed. So is every duration,
from zero to the longest one. -/
theorem settings_read_back :
    (∀ (c : PluginConfig) (references : Nat), (PluginConfig.ofDocument c.toJson).result references = .ok c) ∧
    (∀ (c : CollectorsConfig) (references : Nat),
      (CollectorsConfig.ofDocument c.toJson).result references = .ok c) ∧
    (∀ (c : PortcheckConfig) (references : Nat), (PortcheckConfig.ofDocument c.toJson).result references = .ok c) ∧
    (∀ (c : JobConfig) (references : Nat), (JobConfig.ofDocument c.toJson).result references = .ok c) ∧
    ∀ d : Duration, Duration.read d.toText = .ok d := by
  refine ⟨fun c references => ?_, fun c references => ?_, fun c references => ?_, fun c references => ?_,
    Duration.read_toText⟩
  · rw [c.ofDocument_toJson]
    rfl
  · rw [c.ofDocument_toJson]
    rfl
  · rw [c.ofDocument_toJson]
    rfl
  · rw [c.ofDocument_toJson]
    rfl

end ChartStream
