import ChartStream.Config.Plugin
import Mathlib.Data.List.Nodup

/-!
# What the check of settings accepts

The jobs of a configuration are checked one after the other, with the names seen so far. What is accepted does not
depend on their order, and what is refused is refused for the first fault of the first job that has one. Main
definitions: `PortcheckConfig.InRange`, `PortcheckConfig.faults`, `CollectorsConfig.Acceptable`,
`CollectorsConfig.FirstFault`. Main result: `settings_check`.
-/

namespace ChartStream

set_option autoImplicit false

/-! ## Refusing for the first of several faults -/

namespace Config

/-- Refuses for the first of the faults, if there is one. -/
def refuse : List Fault → Except Fault Unit
  | [] => .ok ()
  | fault :: _ => .error fault

/-- A test and what comes after it: the fault of the test stands before the later ones. -/
theorem refuse_test (bad : Prop) [Decidable bad] (fault : Fault) (later : List Fault) :
    refuse ((if bad then [fault] else []) ++ later) = if bad then .error fault else refuse later := by
  split <;> rfl

theorem refuse_eq_error_iff {faults : List Fault} {fault : Fault} :
    refuse faults = .error fault ↔ faults.head? = some fault := by
  cases faults with
  | nil => simp only [refuse, List.head?_nil, reduceCtorEq]
  | cons first rest => simp only [refuse, Except.error.injEq, List.head?_cons, Option.some.injEq]

end Config

/-! ## One job -/

namespace PortcheckConfig

open Config (refuse)

/-- The settings of one job are in range, whatever its name. -/
structure InRange (c : PortcheckConfig) : Prop where
  interval : 1 ≤ c.job.updateEvery
  timeout : 0 < c.job.timeout.nanos
  host : ∃ ch ∈ c.host.toList, Text.isBlank ch = false
  port : c.port ≠ 0

/-- What is wrong with the settings of one job, in the order in which it is looked for. -/
def rangeFaults (c : PortcheckConfig) : List Config.Fault :=
  (if c.job.updateEvery < 1 then [.zeroInterval c.job.name] else []) ++
  ((if c.job.timeout.nanos = 0 then [.zeroTimeout c.job.name] else []) ++
  ((if Text.isAllBlank c.host = true then [.emptyHost c.job.name] else []) ++
  (if c.port = 0 then [.zeroPort c.job.name] else [])))

/-- What is wrong with one job after jobs with the names `earlier`: its name comes before its settings. -/
def faults (earlier : List String) (c : PortcheckConfig) : List Config.Fault :=
  (if c.job.name = "" then [.emptyName] else []) ++
  ((if c.job.name ∈ earlier then [.duplicateName c.job.name] else []) ++ c.rangeFaults)

theorem interval_lt_one {c : PortcheckConfig} : c.job.updateEvery < 1 ↔ c.job.updateEvery = 0 := by
  rw [UInt64.lt_iff_toNat_lt, ← UInt64.toNat_inj]
  exact Nat.lt_one_iff

theorem rangeFaults_eq_nil_iff {c : PortcheckConfig} : c.rangeFaults = [] ↔ c.InRange := by
  have hhost : ¬ Text.isAllBlank c.host = true ↔ ∃ ch ∈ c.host.toList, Text.isBlank ch = false := by
    simp only [Text.isAllBlank, List.all_eq_true, not_forall, Bool.not_eq_true, exists_prop]
  simp only [rangeFaults, List.append_eq_nil_iff, ite_eq_right_iff, List.cons_ne_nil, imp_false, hhost,
    UInt64.not_lt, ← ne_eq, ← Nat.pos_iff_ne_zero]
  exact ⟨fun ⟨hi, ht, hh, hp⟩ => ⟨hi, ht, hh, hp⟩, fun h => ⟨h.interval, h.timeout, h.host, h.port⟩⟩

theorem faults_eq_nil_iff {earlier : List String} {c : PortcheckConfig} :
    c.faults earlier = [] ↔ c.job.name ≠ "" ∧ c.job.name ∉ earlier ∧ c.InRange := by
  simp only [faults, List.append_eq_nil_iff, ite_eq_right_iff, List.cons_ne_nil, imp_false, ne_eq,
    rangeFaults_eq_nil_iff]

theorem faults_congr {earlier seen : List String} (c : PortcheckConfig)
    (h : ∀ name, name ∈ earlier ↔ name ∈ seen) : c.faults earlier = c.faults seen := by
  simp only [faults, h]

/-- The check of one job refuses for the first fault of its settings. -/
theorem validate_eq (c : PortcheckConfig) : c.validate = refuse c.rangeFaults := by
  have hport : refuse (if c.port = 0 then [.zeroPort c.job.name] else []) =
      if c.port = 0 then .error (.zeroPort c.job.name) else .ok () := by
    split <;> rfl
  simp only [rangeFaults, Config.refuse_test, interval_lt_one, hport, validate, JobConfig.validate]
  by_cases hinterval : c.job.updateEvery = 0
  · rw [if_pos hinterval, if_pos hinterval]
    rfl
  by_cases htimeout : c.job.timeout.nanos = 0
  · rw [if_neg hinterval, if_neg hinterval, if_pos htimeout, if_pos htimeout]
    rfl
  · rw [if_neg hinterval, if_neg hinterval, if_neg htimeout, if_neg htimeout]
    rfl

end PortcheckConfig

/-! ## All jobs -/

namespace CollectorsConfig

open Config (refuse)

/-- Every job has a name of its own and settings in range. -/
structure Acceptable (c : CollectorsConfig) : Prop where
  named : ∀ check ∈ c.portcheck, check.job.name ≠ ""
  distinct : (c.portcheck.map (·.job.name)).Nodup
  inRange : ∀ check ∈ c.portcheck, check.InRange

/-- The jobs before some job are acceptable, and `fault` is the first thing wrong with that job. -/
def FirstFault (c : CollectorsConfig) (fault : Config.Fault) : Prop :=
  ∃ before check after, c.portcheck = before ++ check :: after ∧ (⟨before⟩ : CollectorsConfig).Acceptable ∧
    (check.faults (before.map (·.job.name))).head? = some fault

/-- The next job is refused for its first fault, and without a fault its name joins those seen. -/
theorem validateFrom_cons (seen : List String) (check : PortcheckConfig) (rest : List PortcheckConfig) :
    validateFrom seen (check :: rest) =
      refuse (check.faults seen) >>= fun _ => validateFrom (check.job.name :: seen) rest := by
  rw [validateFrom, PortcheckConfig.faults, Config.refuse_test, Config.refuse_test, ← PortcheckConfig.validate_eq]
  simp only [String.isEmpty_iff, List.contains_iff_mem]
  by_cases hname : check.job.name = ""
  · rw [if_pos hname, if_pos hname]
    rfl
  by_cases hseen : check.job.name ∈ seen
  · rw [if_neg hname, if_neg hname, if_pos hseen, if_pos hseen]
    rfl
  · rw [if_neg hname, if_neg hname, if_neg hseen, if_neg hseen]

theorem validateFrom_cons_of_faultless {seen : List String} {check : PortcheckConfig}
    (h : check.faults seen = []) (rest : List PortcheckConfig) :
    validateFrom seen (check :: rest) = validateFrom (check.job.name :: seen) rest := by
  rw [validateFrom_cons, h]
  rfl

theorem validateFrom_cons_of_fault {seen : List String} {check : PortcheckConfig} {fault : Config.Fault}
    (h : (check.faults seen).head? = some fault) (rest : List PortcheckConfig) :
    validateFrom seen (check :: rest) = .error fault := by
  rw [validateFrom_cons, Config.refuse_eq_error_iff.mpr h]
  rfl

theorem acceptable_nil : (⟨[]⟩ : CollectorsConfig).Acceptable :=
  ⟨by simp, List.nodup_nil, by simp⟩

theorem acceptable_cons_iff {check : PortcheckConfig} {rest : List PortcheckConfig} :
    (⟨check :: rest⟩ : CollectorsConfig).Acceptable ↔
      check.job.name ≠ "" ∧ check.InRange ∧ (∀ other ∈ rest, other.job.name ≠ check.job.name) ∧
        (⟨rest⟩ : CollectorsConfig).Acceptable := by
  have hnew : check.job.name ∉ rest.map (·.job.name) ↔ ∀ other ∈ rest, other.job.name ≠ check.job.name := by
    simp only [List.mem_map, not_exists, not_and, ne_eq]
  constructor
  · rintro ⟨hnamed, hdistinct, hrange⟩
    obtain ⟨hfresh, hdistinct⟩ := List.nodup_cons.mp hdistinct
    obtain ⟨hname, hnamed⟩ := List.forall_mem_cons.mp hnamed
    obtain ⟨hown, hrange⟩ := List.forall_mem_cons.mp hrange
    exact ⟨hname, hown, hnew.mp hfresh, hnamed, hdistinct, hrange⟩
  · rintro ⟨hname, hown, hfresh, hrest⟩
    exact ⟨List.forall_mem_cons.mpr ⟨hname, hrest.named⟩, List.nodup_cons.mpr ⟨hnew.mpr hfresh, hrest.distinct⟩,
      List.forall_mem_cons.mpr ⟨hown, hrest.inRange⟩⟩

/-- After names seen, jobs are accepted exactly if they are acceptable and none of their names was seen. -/
theorem validateFrom_eq_ok_iff {seen : List String} {checks : List PortcheckConfig} :
    validateFrom seen checks = .ok () ↔
      (⟨checks⟩ : CollectorsConfig).Acceptable ∧ ∀ check ∈ checks, check.job.name ∉ seen := by
  induction checks generalizing seen with
  | nil => exact ⟨fun _ => ⟨acceptable_nil, by simp⟩, fun _ => rfl⟩
  | cons check rest ih =>
    rw [acceptable_cons_iff, List.forall_mem_cons]
    cases hfirst : (check.faults seen).head? with
    | none =>
      have hnone := List.head?_eq_none_iff.mp hfirst
      obtain ⟨hname, hseen, hrange⟩ := PortcheckConfig.faults_eq_nil_iff.mp hnone
      rw [validateFrom_cons_of_faultless hnone, ih]
      simp only [List.mem_cons, not_or]
      exact ⟨fun ⟨hrest, hnew⟩ => ⟨⟨hname, hrange, fun other hother => (hnew other hother).1, hrest⟩, hseen,
          fun other hother => (hnew other hother).2⟩,
        fun ⟨⟨_, _, hfresh, hrest⟩, _, hnew⟩ => ⟨hrest, fun other hother => ⟨hfresh other hother, hnew other hother⟩⟩⟩
    | some fault =>
      rw [validateFrom_cons_of_fault hfirst]
      refine ⟨nofun, fun ⟨⟨hname, hrange, _, _⟩, hseen, _⟩ => ?_⟩
      rw [PortcheckConfig.faults_eq_nil_iff.mpr ⟨hname, hseen, hrange⟩] at hfirst
      cases hfirst

/-- After names seen, jobs are refused for the first fault of a job before which all are accepted. -/
theorem validateFrom_eq_error_iff {seen : List String} {checks : List PortcheckConfig} {fault : Config.Fault} :
    validateFrom seen checks = .error fault ↔
      ∃ before check after, checks = before ++ check :: after ∧ validateFrom seen before = .ok () ∧
        (check.faults (before.map (·.job.name) ++ seen)).head? = some fault := by
  induction checks generalizing seen with
  | nil => exact ⟨nofun, fun ⟨before, check, after, h, _⟩ => by simp at h⟩
  | cons first rest ih =>
    constructor
    · intro h
      cases hfirst : (first.faults seen).head? with
      | some own =>
        rw [validateFrom_cons_of_fault hfirst, Except.error.injEq] at h
        exact ⟨[], first, rest, rfl, rfl, h ▸ hfirst⟩
      | none =>
        have hnone := List.head?_eq_none_iff.mp hfirst
        rw [validateFrom_cons_of_faultless hnone] at h
        obtain ⟨before, check, after, rfl, hbefore, hfault⟩ := ih.mp h
        refine ⟨first :: before, check, after, rfl, ?_, ?_⟩
        · rw [validateFrom_cons_of_faultless hnone, hbefore]
        · rw [check.faults_congr fun name => ?_, hfault]
          simp only [List.map_cons, List.cons_append, List.mem_cons, List.mem_append]
          exact or_left_comm
    · rintro ⟨before, check, after, hsplit, hbefore, hfault⟩
      cases before with
      | nil =>
        obtain ⟨rfl, rfl⟩ := List.cons.inj hsplit
        exact validateFrom_cons_of_fault hfault _
      | cons own before =>
        obtain ⟨rfl, rfl⟩ := List.cons.inj hsplit
        -- The first of the jobs before is accepted, so it has no fault.
        have hnone : first.faults seen = [] := by
          cases hown : (first.faults seen).head? with
          | none => exact List.head?_eq_none_iff.mp hown
          | some own => rw [validateFrom_cons_of_fault hown] at hbefore; cases hbefore
        rw [validateFrom_cons_of_faultless hnone] at hbefore ⊢
        refine ih.mpr ⟨before, check, after, rfl, hbefore, ?_⟩
        rw [← hfault]
        rw [check.faults_congr fun name => ?_]
        simp only [List.map_cons, List.cons_append, List.mem_cons, List.mem_append]
        exact or_left_comm.symm

theorem validate_eq_ok_iff {c : CollectorsConfig} : c.validate = .ok () ↔ c.Acceptable := by
  rw [validate, validateFrom_eq_ok_iff]
  simp only [List.not_mem_nil, not_false_eq_true, implies_true, and_true]

theorem validate_eq_error_iff {c : CollectorsConfig} {fault : Config.Fault} :
    c.validate = .error fault ↔ c.FirstFault fault := by
  have hbefore (before : List PortcheckConfig) :
      validateFrom [] before = .ok () ↔ (⟨before⟩ : CollectorsConfig).Acceptable :=
    validate_eq_ok_iff (c := ⟨before⟩)
  rw [validate, validateFrom_eq_error_iff]
  simp only [FirstFault, hbefore, List.append_nil]

/-! ## Merging -/

/-- Jobs are acceptable or not in whatever order they stand. -/
theorem acceptable_perm {a b : CollectorsConfig} (h : a.portcheck.Perm b.portcheck) (ha : a.Acceptable) :
    b.Acceptable where
  named check hcheck := ha.named check (h.mem_iff.mpr hcheck)
  distinct := (h.map _).nodup_iff.mp ha.distinct
  inRange check hcheck := ha.inRange check (h.mem_iff.mpr hcheck)

theorem acceptable_sublist {a b : CollectorsConfig} (h : a.portcheck.Sublist b.portcheck) (hb : b.Acceptable) :
    a.Acceptable where
  named check hcheck := hb.named check (h.subset hcheck)
  distinct := (h.map _).nodup hb.distinct
  inRange check hcheck := hb.inRange check (h.subset hcheck)

theorem acceptable_merge_comm {a b : CollectorsConfig} :
    (a.merge b).Acceptable ↔ (b.merge a).Acceptable :=
  ⟨acceptable_perm List.perm_append_comm, acceptable_perm List.perm_append_comm⟩

/-! ## Raising the intervals -/

/-- The jobs with every interval at one second. -/
def withoutIntervals (c : CollectorsConfig) : CollectorsConfig :=
  ⟨c.portcheck.map fun check => { check with job := { check.job with updateEvery := 1 } }⟩

/-- The intervals of the jobs. -/
def intervals (c : CollectorsConfig) : List UInt64 :=
  c.portcheck.map (·.job.updateEvery)

theorem withoutIntervals_applyFloor (c : CollectorsConfig) (floor : UInt64) :
    (c.applyFloor floor).withoutIntervals = c.withoutIntervals := by
  simp only [withoutIntervals, applyFloor, List.map_map]
  rfl

theorem intervals_applyFloor (c : CollectorsConfig) (floor : UInt64) :
    (c.applyFloor floor).intervals = c.intervals.map fun interval => max interval floor := by
  simp only [intervals, applyFloor, List.map_map]
  rfl

theorem acceptable_applyFloor {c : CollectorsConfig} (floor : UInt64) (h : c.Acceptable) :
    (c.applyFloor floor).Acceptable := by
  have hnames : (c.applyFloor floor).portcheck.map (·.job.name) = c.portcheck.map (·.job.name) := by
    simp only [applyFloor, List.map_map]
    rfl
  refine ⟨fun check hcheck => ?_, hnames ▸ h.distinct, fun check hcheck => ?_⟩
  · obtain ⟨old, hold, rfl⟩ := List.mem_map.mp hcheck
    exact h.named old hold
  · obtain ⟨old, hold, rfl⟩ := List.mem_map.mp hcheck
    obtain ⟨hinterval, htimeout, hhost, hport⟩ := h.inRange old hold
    refine ⟨?_, htimeout, hhost, hport⟩
    show 1 ≤ max old.job.updateEvery floor
    rw [UInt64.le_iff_toNat_le] at hinterval ⊢
    rw [UInt64.toNat_max]
    exact Nat.le_trans hinterval (Nat.le_max_left _ _)

theorem applyFloor_merge (a b : CollectorsConfig) (floor : UInt64) :
    (a.merge b).applyFloor floor = (a.applyFloor floor).merge (b.applyFloor floor) := by
  simp only [applyFloor, merge, List.map_append]

/-- Raising to one floor and then to another is raising to the higher one. -/
theorem max_floors (interval f g : UInt64) : max (max interval f) g = max interval (max f g) := by
  rw [← UInt64.toNat_inj]
  simp only [UInt64.toNat_max, Nat.max_assoc]

theorem applyFloor_applyFloor (c : CollectorsConfig) (f g : UInt64) :
    (c.applyFloor f).applyFloor g = c.applyFloor (max f g) := by
  simp only [applyFloor, List.map_map, CollectorsConfig.mk.injEq]
  refine List.map_congr_left fun check _ => ?_
  simp only [Function.comp, PortcheckConfig.applyFloor, JobConfig.applyFloor, max_floors]

end CollectorsConfig

/-! ## The whole configuration -/

namespace PluginConfig

/-- The queue has room, and the jobs are acceptable. -/
structure Acceptable (p : PluginConfig) : Prop where
  capacity : 1 ≤ p.channelCapacity
  collectors : p.collectors.Acceptable

theorem capacity_pos {p : PluginConfig} : 1 ≤ p.channelCapacity ↔ p.channelCapacity ≠ 0 := by
  rw [UInt64.le_iff_toNat_le, ne_eq, ← UInt64.toNat_inj]
  exact Nat.one_le_iff_ne_zero

theorem validate_eq_ok_iff {p : PluginConfig} : p.validate = .ok () ↔ p.Acceptable := by
  rw [validate]
  split
  · next hzero => exact ⟨nofun, fun h => absurd hzero (capacity_pos.mp h.capacity)⟩
  · next hroom =>
    rw [CollectorsConfig.validate_eq_ok_iff]
    exact ⟨fun h => ⟨capacity_pos.mpr hroom, h⟩, fun h => h.collectors⟩

theorem validate_eq_error_iff {p : PluginConfig} {fault : Config.Fault} :
    p.validate = .error fault ↔
      (p.channelCapacity = 0 ∧ fault = .zeroCapacity) ∨ (1 ≤ p.channelCapacity ∧ p.collectors.FirstFault fault) := by
  rw [validate, capacity_pos, ← CollectorsConfig.validate_eq_error_iff]
  split
  · next hzero => simp only [hzero, Except.error.injEq, eq_comm, true_and, ne_eq, not_true, false_and, or_false]
  · next hroom => simp only [hroom, false_and, ne_eq, not_false_eq_true, true_and, false_or]

end PluginConfig

/-- Settings are accepted exactly if the queue has room and every job has a name of its own and settings in range, in
whatever order the jobs stand. With room in the queue they are refused for the first fault of the first job that has
one. Jobs merged are accepted in either order or in neither, and only if both parts are. A floor under the intervals
keeps what is accepted, changes nothing else, goes through a merge, and is followed by a second floor as by the
higher of the two. -/
theorem settings_check (p : PluginConfig) (a b : CollectorsConfig) (f g : UInt64) :
    (p.validate = .ok () ↔ p.Acceptable) ∧
    (∀ fault, p.validate = .error fault ↔
      (p.channelCapacity = 0 ∧ fault = .zeroCapacity) ∨ (1 ≤ p.channelCapacity ∧ p.collectors.FirstFault fault)) ∧
    ((a.merge b).validate = .ok () ↔ (b.merge a).validate = .ok ()) ∧
    ((a.merge b).validate = .ok () → a.validate = .ok () ∧ b.validate = .ok ()) ∧
    (a.validate = .ok () → (a.applyFloor f).validate = .ok ()) ∧
    (p.validate = .ok () → (p.applyFloor f).validate = .ok ()) ∧
    ((a.applyFloor f).withoutIntervals = a.withoutIntervals ∧
      (a.applyFloor f).intervals = a.intervals.map fun interval => max interval f) ∧
    p.applyFloor f = { p with collectors := p.collectors.applyFloor f } ∧
    (a.merge b).applyFloor f = (a.applyFloor f).merge (b.applyFloor f) ∧
    (a.applyFloor f).applyFloor g = a.applyFloor (max f g) := by
  have hjobs (c : CollectorsConfig) : c.validate = .ok () ↔ c.Acceptable := CollectorsConfig.validate_eq_ok_iff
  have hplugin (p : PluginConfig) : p.validate = .ok () ↔ p.Acceptable := PluginConfig.validate_eq_ok_iff
  refine ⟨hplugin p, fun fault => PluginConfig.validate_eq_error_iff, ?_, fun h => ?_, fun h => ?_, fun h => ?_, ?_,
    rfl, CollectorsConfig.applyFloor_merge a b f, CollectorsConfig.applyFloor_applyFloor a f g⟩
  · rw [hjobs, hjobs, CollectorsConfig.acceptable_merge_comm]
  · have hmerged := (hjobs _).mp h
    exact ⟨(hjobs a).mpr (CollectorsConfig.acceptable_sublist (List.sublist_append_left _ _) hmerged),
      (hjobs b).mpr (CollectorsConfig.acceptable_sublist (List.sublist_append_right _ _) hmerged)⟩
  · exact (hjobs _).mpr (CollectorsConfig.acceptable_applyFloor f ((hjobs a).mp h))
  · have haccepted := (hplugin p).mp h
    exact (hplugin _).mpr ⟨haccepted.capacity, CollectorsConfig.acceptable_applyFloor f haccepted.collectors⟩
  · exact ⟨CollectorsConfig.withoutIntervals_applyFloor a f, CollectorsConfig.intervals_applyFloor a f⟩

/-- One job that checks a web server. -/
def webJob : CollectorsConfig :=
  ⟨[{ job := { name := "web" }, host := "localhost", port := 80 }]⟩

/-- One job that checks a mail server. -/
def mailJob : CollectorsConfig :=
  ⟨[{ job := { name := "mail" }, host := "localhost", port := 25 }]⟩

theorem settings_check_web_and_mail :
    (webJob.merge mailJob).validate = .ok () ∧ (mailJob.merge webJob).validate = .ok () ∧
      webJob.validate = .ok () ∧ mailJob.validate = .ok () ∧
      ((webJob.merge mailJob).applyFloor 10).validate = .ok () ∧
      (({ collectors := webJob.merge mailJob } : PluginConfig).applyFloor 10).validate = .ok () := by
  have haccepted : (webJob.merge mailJob).validate = .ok () := rfl
  have hplugin : ({ collectors := webJob.merge mailJob } : PluginConfig).validate = .ok () := rfl
  obtain ⟨-, -, horder, hparts, -, hraised, -⟩ :=
    settings_check { collectors := webJob.merge mailJob } webJob mailJob 10 30
  obtain ⟨-, -, -, -, hjobs, -⟩ := settings_check {} (webJob.merge mailJob) {} 10 30
  obtain ⟨hweb, hmail⟩ := hparts haccepted
  exact ⟨haccepted, horder.mp haccepted, hweb, hmail, hjobs haccepted, hraised hplugin⟩

end ChartStream
