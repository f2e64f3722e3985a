import ChartStream.Proofs.PreliminaryCheck
import ChartStream.Proofs.RegistryAccount

/-!
# Spawning a job

A spawn checks a job, creates its charts and only then takes the lock and starts it. Which candidates get through is
settled by the first call of the collector and the charts that it leaves (`Registry.Fit`, `Registry.Refused`). Among
other callers a spawn that fails leaves no trace, and no block is taken of a job that has not got through. Main
result: `Registry.spawn_all_or_nothing`.
-/

namespace ChartStream

set_option autoImplicit false

/-! ## What a check makes of its call -/

theorem Call.not_cancelled (limit : Duration) (answer : Except CollectorError (Option Samples)) (p : Progress)
    (actions : List Action) : (runActions limit false answer p actions).ending ≠ .cancelled := by
  induction actions generalizing p with
  | nil => nofun
  | cons action rest ih =>
    cases action with
    | change operation =>
      unfold runActions
      dsimp only
      split
      · nofun
      · exact ih _
    | signal signal => exact ih _
    | hang => nofun
    | wait millis =>
      unfold runActions
      dsimp only
      split
      · exact ih p
      · split
        · nofun
        · exact ih _

/-- The call ended without samples, and not with an error that ends a job. -/
inductive Call.Ending.Barren : Call.Ending → Prop
  | none : Barren (.answered (.ok none))
  | empty (data : Samples) (h : data.isEmpty = true) : Barren (.answered (.ok (some data)))
  | failed (e : CollectorError) (h : e.isFatal = false) : Barren (.answered (.error e))
  | timedOut : Barren .timedOut

/-- A call that the job did not cut brings samples, fails for good or is barren. -/
theorem Call.Ending.cases {ending : Ending} (h : ending ≠ .cancelled) :
    (∃ data, ending = .answered (.ok (some data)) ∧ data.isEmpty = false) ∨
      (∃ e, ending = .answered (.error e) ∧ e.isFatal = true) ∨ ending.Barren := by
  cases ending with
  | cancelled => exact absurd rfl h
  | timedOut => exact .inr (.inr .timedOut)
  | answered answer =>
    cases answer with
    | error e =>
      cases hfatal : e.isFatal with
      | true => exact .inr (.inl ⟨e, rfl, hfatal⟩)
      | false => exact .inr (.inr (.failed e hfatal))
    | ok brought =>
      cases brought with
      | none => exact .inr (.inr .none)
      | some data =>
        cases hdata : data.isEmpty with
        | true => exact .inr (.inr (.empty data hdata))
        | false => exact .inl ⟨data, rfl, hdata⟩

namespace Job

variable (job : Job)

theorem verdict_of_data {data : Samples} (h : data.isEmpty = false) :
    job.verdict (.answered (.ok (some data))) = .ok () := by
  simp [verdict, samplesOf, h]

theorem verdict_of_fatal {e : CollectorError} (h : e.isFatal = true) :
    job.verdict (.answered (.error e)) = .error e := by
  simp [verdict, samplesOf, h]

theorem verdict_of_barren {ending : Call.Ending} (h : ending.Barren) : job.verdict ending = .error job.noData := by
  cases h with
  | none => rfl
  | empty data hempty => simp [verdict, samplesOf, hempty]
  | failed e hfatal => simp [verdict, samplesOf, hfatal]
  | timedOut => rfl

end Job

namespace Registry

/-! ## Who gets through -/

/-- The job of a candidate before its first call. -/
def jobOf (r : Registry) (c : Candidate) : Job :=
  Job.ofCollector r.plugin r.monitored c.module c.job c.config

/-- What the first call of a candidate comes to. -/
def firstCall (r : Registry) (c : Candidate) : Call.Outcome :=
  (Script.next c.script).1.run c.config.timeout false (r.jobOf c).catalog

/-- The job of a candidate after its check and the creation of its charts. -/
def ready (r : Registry) (c : Candidate) : Job :=
  (((r.jobOf c).afterCall (r.firstCall c)).create c.layout).1

/-- The first call brings samples in time, and the charts that it leaves accept the layout. -/
structure Fit (r : Registry) (c : Candidate) : Prop where
  samples : ∃ data, (r.firstCall c).ending = .answered (.ok (some data)) ∧ data.isEmpty = false
  within : Call.within c.config.timeout (r.firstCall c).elapsed = true
  charts : ((r.firstCall c).catalog.create c.layout).2 = none

/-- Why a candidate does not get through. -/
inductive Refused (r : Registry) (c : Candidate) : CollectorError → Prop
  | fatal (e : CollectorError) (hfatal : e.isFatal = true) (h : (r.firstCall c).ending = .answered (.error e)) :
      Refused r c e
  | barren (h : (r.firstCall c).ending.Barren) :
      Refused r c (.checkFailed ("job '" ++ Job.fullName c.module c.job ++ "' returned no data"))
  | charts (data : Samples) (h : (r.firstCall c).ending = .answered (.ok (some data))) (hdata : data.isEmpty = false)
      (error : DeclarationError) (hcharts : ((r.firstCall c).catalog.create c.layout).2 = some error) :
      Refused r c (.declaration error)

variable {r : Registry} {c : Candidate}

/-- The check comes first, then the charts. -/
theorem prepare_bind (r : Registry) (c : Candidate) :
    let checked := (r.jobOf c).check (Script.next c.script).1
    let made := checked.1.create c.layout
    r.prepare c = do
      checked.2
      made.2
      return (made.1, (Script.next c.script).2) := by
  intro checked made
  have hchecked : (Job.ofCollector r.plugin r.monitored c.module c.job c.config).check (Script.next c.script).1 =
      (checked.1, checked.2) := rfl
  have hmade : checked.1.create c.layout = (made.1, made.2) := rfl
  unfold prepare
  dsimp only
  rw [hchecked]
  cases checked.2 with
  | error e => rfl
  | ok _ =>
    dsimp only
    rw [hmade]
    cases made.2 <;> rfl

theorem prepare_eq (r : Registry) (c : Candidate) :
    r.prepare c = do
      (r.jobOf c).verdict (r.firstCall c).ending
      Job.created ((r.firstCall c).catalog.create c.layout).2
      return (r.ready c, (Script.next c.script).2) := by
  have hcreate : ((r.jobOf c).afterCall (r.firstCall c)).create c.layout =
      (r.ready c, Job.created ((r.firstCall c).catalog.create c.layout).2) := by
    rw [ready, Job.create_eq]
    rfl
  rw [prepare_bind, Job.check_eq]
  change (do
    (r.jobOf c).verdict (r.firstCall c).ending
    (((r.jobOf c).afterCall (r.firstCall c)).create c.layout).2
    return ((((r.jobOf c).afterCall (r.firstCall c)).create c.layout).1, (Script.next c.script).2)) = _
  rw [hcreate]

theorem prepare_of_fit (h : r.Fit c) : r.prepare c = .ok (r.ready c, (Script.next c.script).2) := by
  obtain ⟨data, hending, hdata⟩ := h.samples
  rw [prepare_eq, hending, Job.verdict_of_data _ hdata, h.charts]
  rfl

theorem prepare_of_refused {e : CollectorError} (h : r.Refused c e) : r.prepare c = .error e := by
  cases h with
  | fatal e hfatal hending =>
    rw [prepare_eq, hending, Job.verdict_of_fatal _ hfatal]
    rfl
  | barren hbarren =>
    rw [prepare_eq, Job.verdict_of_barren _ hbarren]
    rfl
  | charts data hending hdata error hcharts =>
    rw [prepare_eq, hending, Job.verdict_of_data _ hdata, hcharts]
    rfl

theorem fit_or_refused (r : Registry) (c : Candidate) : r.Fit c ∨ ∃ e, r.Refused c e := by
  have hending : (r.firstCall c).ending ≠ .cancelled := Call.not_cancelled _ _ _ _
  rcases Call.Ending.cases hending with ⟨data, hending, hdata⟩ | ⟨e, hending, hfatal⟩ | hbarren
  · cases hcharts : ((r.firstCall c).catalog.create c.layout).2 with
    | none => exact .inl ⟨⟨data, hending, hdata⟩, Call.within_run _ _ _ _, hcharts⟩
    | some error => exact .inr ⟨_, .charts data hending hdata error hcharts⟩
  · exact .inr ⟨e, .fatal e hfatal hending⟩
  · exact .inr ⟨_, .barren hbarren⟩

theorem prepare_ok_iff {prepared : Job × Script} :
    r.prepare c = .ok prepared ↔ r.Fit c ∧ prepared = (r.ready c, (Script.next c.script).2) := by
  constructor
  · intro h
    rcases r.fit_or_refused c with hfit | ⟨e, hrefused⟩
    · exact ⟨hfit, Except.ok.inj (h.symm.trans (prepare_of_fit hfit))⟩
    · cases h.symm.trans (prepare_of_refused hrefused)
  · rintro ⟨hfit, rfl⟩
    exact prepare_of_fit hfit

theorem prepare_error_iff {e : CollectorError} : r.prepare c = .error e ↔ r.Refused c e := by
  constructor
  · intro h
    rcases r.fit_or_refused c with hfit | ⟨other, hrefused⟩
    · cases h.symm.trans (prepare_of_fit hfit)
    · exact Except.error.inj (h.symm.trans (prepare_of_refused hrefused)) ▸ hrefused
  · exact prepare_of_refused

/-- Of the registry only the name of the plugin matters, and whether jobs are monitored. -/
theorem prepare_congr {other : Registry} (hplugin : other.plugin = r.plugin)
    (hmonitored : other.monitored = r.monitored) (c : Candidate) : other.prepare c = r.prepare c := by
  rw [prepare, prepare, hplugin, hmonitored]

/-- What comes of a candidate. -/
structure Decided (r : Registry) (c : Candidate) : Prop where
  through : (∃ later id, r.spawn c = .ok (later, id)) ↔ r.Fit c
  refused : ∀ e, r.spawn c = .error e ↔ r.Refused c e
  /-- The job that is registered has the charts that the check left and those of the layout. -/
  registered : r.Fit c → r.spawn c = .ok (r.register (r.ready c) (Script.next c.script).2, r.nextId) ∧
    (r.ready c).catalog = ((r.firstCall c).catalog.create c.layout).1
  /-- The chart of the run time is a chart that took its one dimension. -/
  runtime : ({ (r.jobOf c).ownChart with dimensions := [] } : Chart).insertDimension
      { id := "run_time", name := "run time" } = .ok (r.jobOf c).ownChart ∧
    (r.Fit c → (r.ready c).runtimeChart = if r.monitored then some (r.jobOf c).ownChart else none)

theorem spawn_eq (r : Registry) (c : Candidate) :
    r.spawn c = (r.prepare c).map fun prepared => (r.register prepared.1 prepared.2, r.nextId) := by
  rw [spawn]
  cases r.prepare c <;> rfl

theorem decided (r : Registry) (c : Candidate) : r.Decided c := by
  have hfit (h : r.Fit c) : r.spawn c = .ok (r.register (r.ready c) (Script.next c.script).2, r.nextId) := by
    rw [spawn_eq, prepare_of_fit h]
    rfl
  have hrefused {e : CollectorError} (h : r.Refused c e) : r.spawn c = .error e := by
    rw [spawn_eq, prepare_of_refused h]
    rfl
  have hready : r.ready c = _ := congrArg Prod.fst (((r.jobOf c).afterCall (r.firstCall c)).create_eq c.layout)
  refine ⟨⟨fun ⟨later, id, hok⟩ => ?_, fun h => ⟨_, _, hfit h⟩⟩, fun e => ⟨fun herror => ?_, hrefused⟩,
    fun h => ⟨hfit h, by rw [hready]; rfl⟩, rfl, fun h => ?_⟩
  · rcases r.fit_or_refused c with h | ⟨e, h⟩
    · exact h
    · cases hok.symm.trans (hrefused h)
  · rcases r.fit_or_refused c with h | ⟨other, h⟩
    · cases herror.symm.trans (hfit h)
    · exact Except.error.inj (herror.symm.trans (hrefused h)) ▸ h
  · have hcharts : (((r.jobOf c).afterCall (r.firstCall c)).catalog.create c.layout).2 = none := h.charts
    rw [hready, hcharts]
    rfl

/-! ## Spawns among other calls -/

/-- How far a spawn has got. -/
inductive Launch where
  | idle
  /-- The first call of the collector is waited for. -/
  | checking (c : Candidate)
  /-- The charts are still to be created. -/
  | checked (c : Candidate) (job : Job)
  /-- The lock is waited for. -/
  | created (c : Candidate) (job : Job)
  /-- The spawn holds the lock. -/
  | registering (c : Candidate) (job : Job)
  | spawned (c : Candidate) (id : Nat)
  | failed (c : Candidate) (error : CollectorError)

/-- The spawn has had the lock. -/
def Launch.isThrough : Launch → Bool
  | .registering _ _ => true
  | .spawned _ _ => true
  | _ => false

/-- What a spawn does before it asks for the lock. -/
inductive Launch.Goes (r : Registry) : Launch → Launch → Prop
  | call (c : Candidate) : Goes r .idle (.checking c)
  | pass (c : Candidate) (job : Job) (hcheck : (r.jobOf c).check (Script.next c.script).1 = (job, .ok ())) :
      Goes r (.checking c) (.checked c job)
  | reject (c : Candidate) (job : Job) (e : CollectorError)
      (hcheck : (r.jobOf c).check (Script.next c.script).1 = (job, .error e)) : Goes r (.checking c) (.failed c e)
  | create (c : Candidate) (job made : Job) (hcreate : job.create c.layout = (made, .ok ())) :
      Goes r (.checked c job) (.created c made)
  | refuse (c : Candidate) (job made : Job) (e : CollectorError) (hcreate : job.create c.layout = (made, .error e)) :
      Goes r (.checked c job) (.failed c e)

/-- A system with the spawns that were called, each one under a number of its own. -/
structure Callers where
  system : System
  launches : Nat → Launch := fun _ => .idle

namespace Callers

/-- Before the first call. -/
def start (plugin : String) (monitored : Bool) : Callers :=
  { system := .start plugin monitored }

/-- A spawn gets on, and the system with it. -/
def put (s : Callers) (i : Nat) (launch : Launch) (system : System) : Callers :=
  { system := system, launches := Function.update s.launches i launch }

/-- One step. Up to the lock a spawn has to do with its own job alone, and other calls go on meanwhile. -/
inductive Step (s : Callers) : Callers → Prop
  | aside (i : Nat) (launch : Launch) (h : Launch.Goes s.system.registry (s.launches i) launch) :
      Step s (s.put i launch s.system)
  | lock (i : Nat) (c : Candidate) (job : Job) (h : s.launches i = .created c job) (hfree : s.system.spawning = none) :
      Step s (s.put i (.registering c job)
        { s.system with spawning := some { job := job, script := (Script.next c.script).2 } })
  | enroll (i : Nat) (c : Candidate) (job : Job) (p : Spawning) (h : s.launches i = .registering c job)
      (hp : s.system.spawning = some p) (hstage : p.stage = .started) :
      Step s (s.put i (.spawned c s.system.registry.nextId) (s.system.enroll p))
  /-- Anything that does not take the lock or give it back. -/
  | other (system : System) (hstep : System.Step s.system system)
      (hlock : system.spawning.isSome = s.system.spawning.isSome) : Step s { s with system := system }

/-- Any number of steps. -/
def Steps : Callers → Callers → Prop :=
  Relation.ReflTransGen Step

end Callers

/-! ### What other calls keep -/

/-- The job of the spawn that holds the lock. -/
def System.lockedJob? (s : System) : Option Job :=
  s.spawning.map (·.job)

/-- The jobs of the tasks. -/
def System.jobs (s : System) : List Job :=
  s.tasks.map (·.job)

/-- A step that neither takes the lock nor gives it back enters no job, and starts at most the one of the spawn that
holds the lock. -/
structure System.Kept (s s' : System) : Prop where
  plugin : s'.registry.plugin = s.registry.plugin
  monitored : s'.registry.monitored = s.registry.monitored
  nextId : s'.registry.nextId = s.registry.nextId
  locked : s'.lockedJob? = s.lockedJob?
  jobs : s'.jobs = s.jobs ∨ s.spawnAt .counted = true ∧ ∃ job, s.lockedJob? = some job ∧ s'.jobs = s.jobs ++ [job]

theorem System.jobs_set {s : System} {id : Nat} {t changed : Task} (ht : s.tasks[id]? = some t)
    (hjob : changed.job = t.job) : (s.tasks.set id changed).map (·.job) = s.jobs := by
  obtain ⟨hlt, rfl⟩ := List.getElem?_eq_some_iff.mp ht
  rw [List.map_set, hjob, jobs]
  refine List.ext_getElem (by simp) fun i _ _ => ?_
  rw [List.getElem_set]
  split
  · next heq => simp [heq]
  · rfl

theorem System.kept_of_step {s s' : System} (hstep : Step s s') (hlock : s'.spawning.isSome = s.spawning.isSome) :
    s.Kept s' := by
  cases hstep with
  | lock c job script hfree =>
    rw [hfree] at hlock
    cases hlock
  | enroll p hp =>
    rw [hp] at hlock
    cases hlock
  | countIn p hp hstage => exact ⟨rfl, rfl, rfl, by rw [lockedJob?, lockedJob?, hp]; rfl, .inl rfl⟩
  | begin p script hp hstage =>
    refine ⟨rfl, rfl, rfl, by rw [lockedJob?, lockedJob?, hp]; rfl, .inr ⟨?_, p.job, ?_, List.map_append⟩⟩
    · rw [spawnAt_of_some hp, hstage]
      rfl
    · rw [lockedJob?, hp]
      rfl
  | work id t run blocks ht => exact ⟨rfl, rfl, rfl, rfl, .inl (jobs_set ht rfl)⟩
  | record id t exit left hfree ht => exact ⟨rfl, rfl, rfl, rfl, .inl (jobs_set ht rfl)⟩
  | countOut id t ht => exact ⟨rfl, rfl, rfl, rfl, .inl (jobs_set ht rfl)⟩
  | stop id t hid ht => exact ⟨rfl, rfl, rfl, rfl, .inl (jobs_set ht rfl)⟩
  | _ => exact ⟨rfl, rfl, rfl, rfl, .inl rfl⟩

/-! ### How far spawns have got -/

/-- What the stage of a spawn says about its candidate is so. -/
def Launch.Holds (base : Registry) (s : System) : Launch → Prop
  | .checked c job => (base.jobOf c).check (Script.next c.script).1 = (job, .ok ())
  | .created c job => base.prepare c = .ok (job, (Script.next c.script).2)
  | .registering c job => base.prepare c = .ok (job, (Script.next c.script).2) ∧ s.lockedJob? = some job
  | .spawned c id => base.Fit c ∧ s.jobs[id]? = some (base.ready c) ∧ id < s.registry.nextId
  | .failed c e => base.Refused c e
  | _ => True

namespace Callers

variable {base : Registry} {s s' : Callers}

/-- The spawns are as far as their stages say. One of them holds the lock if it is held, and each task runs the job of
one that has had it. -/
structure Sound (base : Registry) (s : Callers) : Prop where
  system : s.system.Sound
  plugin : s.system.registry.plugin = base.plugin
  monitored : s.system.registry.monitored = base.monitored
  launches : ∀ i, (s.launches i).Holds base s.system
  locked : ∀ job, s.system.lockedJob? = some job → ∃ i c, s.launches i = .registering c job
  alone : ∀ i j c d job other, s.launches i = .registering c job → s.launches j = .registering d other → i = j
  jobs : ∀ id job, s.system.jobs[id]? = some job → ∃ i c, base.Fit c ∧ job = base.ready c ∧
    (s.launches i = .spawned c id ∨ s.launches i = .registering c job ∧ id = s.system.registry.nextId)

theorem Sound.holds (h : s.Sound base) {i : Nat} {launch : Launch} (hi : s.launches i = launch) :
    launch.Holds base s.system :=
  hi ▸ h.launches i

theorem Sound.jobOf (h : s.Sound base) (c : Candidate) : s.system.registry.jobOf c = base.jobOf c := by
  rw [Registry.jobOf, Registry.jobOf, h.plugin, h.monitored]

/-- Of the registry only the jobs count that it makes of candidates. -/
theorem goes_congr {r other : Registry} (hjob : ∀ c, other.jobOf c = r.jobOf c) {launch later : Launch}
    (h : launch.Goes r later) : launch.Goes other later := by
  cases h with
  | call c => exact .call c
  | pass c job hcheck => exact .pass c job ((hjob c).symm ▸ hcheck)
  | reject c job e hcheck => exact .reject c job e ((hjob c).symm ▸ hcheck)
  | create c job made hcreate => exact .create c job made hcreate
  | refuse c job made e hcreate => exact .refuse c job made e hcreate

theorem Sound.prepare (h : s.Sound base) (c : Candidate) : s.system.registry.prepare c = base.prepare c :=
  prepare_congr h.plugin h.monitored c

theorem launches_put (s : Callers) (i j : Nat) (launch : Launch) (system : System) :
    (s.put i launch system).launches j = if j = i then launch else s.launches j :=
  Function.update_apply s.launches i launch j

theorem launches_put_self (s : Callers) (i : Nat) (launch : Launch) (system : System) :
    (s.put i launch system).launches i = launch := by
  rw [launches_put, if_pos rfl]

theorem launches_put_of_ne (s : Callers) {i j : Nat} (h : j ≠ i) (launch : Launch) (system : System) :
    (s.put i launch system).launches j = s.launches j := by
  rw [launches_put, if_neg h]

/-- A system that is kept leaves the stages true. -/
theorem holds_of_kept {system system' : System} (hkept : system.Kept system') {launch : Launch}
    (h : launch.Holds base system) : launch.Holds base system' := by
  cases launch with
  | registering c job => exact ⟨h.1, hkept.locked.trans h.2⟩
  | spawned c id =>
    obtain ⟨hfit, hjob, hid⟩ := h
    refine ⟨hfit, ?_, hkept.nextId ▸ hid⟩
    rcases hkept.jobs with hjobs | ⟨-, job, -, hjobs⟩
    · rw [hjobs]
      exact hjob
    · rw [hjobs, List.getElem?_append_left (List.getElem?_eq_some_iff.mp hjob).1]
      exact hjob
  | _ => exact h

/-- A spawn that has had the lock is not the one that gets on without it. -/
theorem launches_put_aside {i j : Nat} {launch : Launch} (hold : (s.launches i).isThrough = false)
    (hnew : launch.isThrough = false) (system : System) {through : Launch} (hthrough : through.isThrough = true) :
    (s.put i launch system).launches j = through ↔ s.launches j = through := by
  rw [launches_put]
  split
  · next heq =>
    subst heq
    refine iff_of_false (fun h => ?_) fun h => ?_
    · rw [h, hthrough] at hnew
      cases hnew
    · rw [h, hthrough] at hold
      cases hold
  · rfl

/-- A spawn that has not had the lock gets on by itself. -/
theorem Sound.put_aside (h : s.Sound base) {i : Nat} {launch : Launch} (hold : (s.launches i).isThrough = false)
    (hnew : launch.isThrough = false) (hholds : launch.Holds base s.system) :
    (s.put i launch s.system).Sound base := by
  have hthrough {j : Nat} {through : Launch} (ht : through.isThrough = true) :=
    launches_put_aside (j := j) hold hnew s.system ht
  refine ⟨h.system, h.plugin, h.monitored, fun j => ?_, fun job hjob => ?_, fun j k c d job other hj hk => ?_,
    fun id job hjob => ?_⟩
  · rw [launches_put]
    split
    · exact hholds
    · exact h.launches j
  · obtain ⟨j, c, hj⟩ := h.locked job hjob
    exact ⟨j, c, (hthrough rfl).mpr hj⟩
  · exact h.alone j k c d job other ((hthrough rfl).mp hj) ((hthrough rfl).mp hk)
  · obtain ⟨j, c, hfit, hready, hj⟩ := h.jobs id job hjob
    exact ⟨j, c, hfit, hready, hj.imp (hthrough rfl).mpr fun hj => ⟨(hthrough rfl).mpr hj.1, hj.2⟩⟩

theorem goes_aside {r : Registry} {launch later : Launch} (h : launch.Goes r later) :
    launch.isThrough = false ∧ later.isThrough = false := by
  cases h <;> exact ⟨rfl, rfl⟩

theorem holds_of_goes {system : System} {launch later : Launch} (h : launch.Holds base system)
    (hgoes : launch.Goes base later) : later.Holds base system := by
  cases hgoes with
  | call c => trivial
  | pass c job hcheck => exact hcheck
  | reject c job e hcheck =>
    refine prepare_error_iff.mp ?_
    rw [prepare_bind, hcheck]
    rfl
  | create c job made hcreate =>
    have hcheck : (base.jobOf c).check (Script.next c.script).1 = (job, .ok ()) := h
    change base.prepare c = _
    rw [prepare_bind, hcheck]
    dsimp only
    rw [hcreate]
    rfl
  | refuse c job made e hcreate =>
    have hcheck : (base.jobOf c).check (Script.next c.script).1 = (job, .ok ()) := h
    refine prepare_error_iff.mp ?_
    rw [prepare_bind, hcheck]
    dsimp only
    rw [hcreate]
    rfl

theorem Sound.not_registering (h : s.Sound base) (hfree : s.system.spawning = none) {i : Nat} {c : Candidate}
    {job : Job} : s.launches i ≠ .registering c job := by
  intro hi
  have hlocked := (h.holds hi).2
  rw [System.lockedJob?, hfree] at hlocked
  cases hlocked

theorem spawnAt_started_of_counted {s : System} (h : s.spawnAt .counted = true) : s.spawnAt .started = false := by
  cases hspawning : s.spawning with
  | none => exact System.spawnAt_of_none hspawning _
  | some p =>
    rw [System.spawnAt_of_some hspawning, decide_eq_true_eq] at h
    rw [System.spawnAt_of_some hspawning, h]
    rfl

theorem Sound.lock (h : s.Sound base) {i : Nat} {c : Candidate} {job : Job} (hcreated : s.launches i = .created c job)
    (hfree : s.system.spawning = none) :
    (s.put i (.registering c job)
      { s.system with spawning := some { job := job, script := (Script.next c.script).2 } }).Sound base := by
  have hprepare : base.prepare c = .ok (job, (Script.next c.script).2) := h.holds hcreated
  refine ⟨System.sound_step h.system (.lock c job _ hfree ((h.prepare c).trans hprepare)), h.plugin, h.monitored,
    fun j => ?_, fun held hheld => ⟨i, c, ?_⟩, fun j k _ _ _ _ hj hk => ?_, fun id held hheld => ?_⟩
  · rw [launches_put]
    split
    · exact ⟨hprepare, rfl⟩
    · cases hj : s.launches j with
      | registering d other => exact absurd hj (h.not_registering hfree)
      | _ => exact h.holds hj
  · cases hheld
    exact s.launches_put_self i _ _
  · rw [launches_put] at hj hk
    split at hj
    · split at hk
      · simp_all
      · exact absurd hk (h.not_registering hfree)
    · exact absurd hj (h.not_registering hfree)
  · obtain ⟨j, d, hfit, hready, hj | ⟨hj, -⟩⟩ := h.jobs id held hheld
    · have hne : j ≠ i := by
        rintro rfl
        cases hcreated.symm.trans hj
      exact ⟨j, d, hfit, hready, .inl ((s.launches_put_of_ne hne _ _).trans hj)⟩
    · exact absurd hj (h.not_registering hfree)

theorem Sound.enroll (h : s.Sound base) {i : Nat} {c : Candidate} {job : Job} {p : Spawning}
    (hregistering : s.launches i = .registering c job) (hp : s.system.spawning = some p)
    (hstage : p.stage = .started) :
    (s.put i (.spawned c s.system.registry.nextId) (s.system.enroll p)).Sound base := by
  have honly {j : Nat} {d : Candidate} {other : Job} (hj : s.launches j = .registering d other) : j = i :=
    h.alone j i d c other job hj hregistering
  have hnone : (s.system.enroll p).lockedJob? = none := rfl
  have hstarted : s.system.spawnAt .started = true := by
    rw [System.spawnAt_of_some hp, hstage]
    rfl
  refine ⟨System.sound_step h.system (.enroll p hp hstage), h.plugin, h.monitored, fun j => ?_, fun held hheld => ?_,
    fun j k _ _ _ _ hj hk => ?_, fun id held hheld => ?_⟩
  · rw [launches_put]
    split
    · -- The task that was started last is the one of this spawn.
      obtain ⟨t, ht, -⟩ := h.system.counting.fresh hstarted
      have hjob : s.system.jobs[s.system.registry.nextId]? = some t.job := by
        rw [System.jobs, List.getElem?_map, ht]
        rfl
      obtain ⟨k, d, hfit, hready, hk | ⟨hk, -⟩⟩ := h.jobs _ _ hjob
      · exact absurd (h.holds hk).2.2 (Nat.lt_irrefl _)
      · obtain rfl := honly hk
        cases hregistering.symm.trans hk
        exact ⟨hfit, hready ▸ hjob, Nat.lt_succ_self _⟩
    · next hne =>
      cases hj : s.launches j with
      | registering d other => exact absurd (honly hj) hne
      | spawned d id =>
        obtain ⟨hfit, hjob, hid⟩ := h.holds hj
        exact ⟨hfit, hjob, Nat.lt_succ_of_lt hid⟩
      | _ => exact h.holds hj
  · cases hnone.symm.trans hheld
  · rw [launches_put] at hj
    split at hj
    · cases hj
    · next hne => exact absurd (honly hj) hne
  · obtain ⟨j, d, hfit, hready, hj | ⟨hj, hid⟩⟩ := h.jobs id held hheld
    · have hne : j ≠ i := by
        rintro rfl
        cases hregistering.symm.trans hj
      exact ⟨j, d, hfit, hready, .inl ((s.launches_put_of_ne hne _ _).trans hj)⟩
    · obtain rfl := honly hj
      cases hregistering.symm.trans hj
      exact ⟨j, c, hfit, hready, .inl (hid ▸ s.launches_put_self j _ _)⟩

theorem Sound.other (h : s.Sound base) {system : System} (hstep : System.Step s.system system)
    (hlock : system.spawning.isSome = s.system.spawning.isSome) : Sound base { s with system := system } := by
  have hkept := System.kept_of_step hstep hlock
  refine ⟨System.sound_step h.system hstep, hkept.plugin.trans h.plugin, hkept.monitored.trans h.monitored,
    fun i => holds_of_kept hkept (h.launches i), fun job hjob => h.locked job (hkept.locked.symm.trans hjob),
    h.alone, fun id job hjob => ?_⟩
  change system.jobs[id]? = some job at hjob
  rw [hkept.nextId]
  rcases hkept.jobs with hjobs | ⟨hcounted, begun, hlocked, hjobs⟩
  · rw [hjobs] at hjob
    exact h.jobs id job hjob
  · rw [hjobs, List.getElem?_append] at hjob
    split at hjob
    · exact h.jobs id job hjob
    · next hbeyond =>
      obtain ⟨hlast, rfl⟩ : id - s.system.jobs.length = 0 ∧ begun = job := by
        simpa [List.getElem?_singleton] using hjob
      obtain ⟨i, c, hi⟩ := h.locked begun hlocked
      obtain ⟨hfit, hready⟩ := prepare_ok_iff.mp (h.holds hi).1
      refine ⟨i, c, hfit, congrArg Prod.fst hready, .inr ⟨hi, ?_⟩⟩
      have hlength : s.system.jobs.length = s.system.registry.nextId := by
        rw [System.jobs, List.length_map, h.system.counting.length, spawnAt_started_of_counted hcounted]
        rfl
      omega

theorem sound_step (h : s.Sound base) (hstep : Step s s') : s'.Sound base := by
  cases hstep with
  | aside i launch hgoes =>
    have hgoes : Launch.Goes base (s.launches i) launch := goes_congr (fun c => (h.jobOf c).symm) hgoes
    exact h.put_aside (goes_aside hgoes).1 (goes_aside hgoes).2 (holds_of_goes (h.launches i) hgoes)
  | lock i c job hcreated hfree => exact h.lock hcreated hfree
  | enroll i c job p hregistering hp hstage => exact h.enroll hregistering hp hstage
  | other system hstep hlock => exact h.other hstep hlock

theorem sound_start (plugin : String) (monitored : Bool) :
    (start plugin monitored).Sound { plugin := plugin, monitored := monitored } := by
  have hidle (i : Nat) : (start plugin monitored).launches i = .idle := rfl
  have hfree : (start plugin monitored).system.lockedJob? = none := rfl
  have hjobs : (start plugin monitored).system.jobs = [] := rfl
  refine ⟨System.sound_start plugin monitored, rfl, rfl, fun _ => trivial, fun job hjob => ?_,
    fun i _ _ _ _ _ hi => ?_, fun id job hjob => ?_⟩
  · cases hfree.symm.trans hjob
  · cases (hidle i).symm.trans hi
  · rw [hjobs] at hjob
    cases hjob

theorem sound_steps (h : s.Sound base) (hsteps : Steps s s') : s'.Sound base := by
  induction hsteps with
  | refl => exact h
  | tail _ hstep ih => exact sound_step ih hstep

/-! ### A spawn that does not get through -/

theorem put_put (s : Callers) (i : Nat) (first second : Launch) (system later : System) :
    (s.put i first system).put i second later = s.put i second later := by
  simp [put]

theorem put_comm (s : Callers) {i j : Nat} (h : j ≠ i) (first second : Launch) (system later last : System) :
    (s.put i first system).put j second last = (s.put j second later).put i first last := by
  simp [put, Function.update_comm h]

theorem isThrough_of_step (hstep : Step s s') {i : Nat} (h : (s.launches i).isThrough = true) :
    (s'.launches i).isThrough = true := by
  cases hstep with
  | aside j launch hgoes =>
    have hne : i ≠ j := by
      rintro rfl
      cases h.symm.trans (goes_aside hgoes).1
    rw [s.launches_put_of_ne hne]
    exact h
  | lock j c job =>
    rw [launches_put]
    split
    · rfl
    · exact h
  | enroll j c job p =>
    rw [launches_put]
    split
    · rfl
    · exact h
  | other => exact h

/-- Of a spawn that has not had the lock nothing is to be seen. What has happened may have happened without it. -/
theorem steps_without (hsteps : Steps s s') {i : Nat} (h : (s'.launches i).isThrough = false) :
    Steps (s.put i .idle s.system) (s'.put i .idle s'.system) := by
  induction hsteps with
  | refl => exact .refl
  | @tail mid last _ hstep ih =>
    have hmid : (mid.launches i).isThrough = false := by
      cases hthrough : (mid.launches i).isThrough with
      | false => rfl
      | true => cases (isThrough_of_step hstep hthrough).symm.trans h
    have hothers {j : Nat} (hne : j ≠ i) : (mid.put i .idle mid.system).launches j = mid.launches j :=
      mid.launches_put_of_ne hne _ _
    -- The steps of the spawn itself are left out.
    cases hstep with
    | aside j launch hgoes =>
      by_cases hne : j = i
      · subst hne
        rw [put_put]
        exact ih hmid
      · refine (ih hmid).tail ?_
        rw [← put_comm mid hne .idle launch mid.system]
        exact .aside j launch ((hothers hne).symm ▸ hgoes)
    | lock j c job hcreated hfree =>
      have hne : j ≠ i := by
        rintro rfl
        rw [launches_put_self] at h
        cases h
      refine (ih hmid).tail ?_
      rw [← put_comm mid hne .idle _ mid.system]
      exact .lock j c job ((hothers hne).trans hcreated) hfree
    | enroll j c job p hregistering hp hstage =>
      have hne : j ≠ i := by
        rintro rfl
        rw [launches_put_self] at h
        cases h
      refine (ih hmid).tail ?_
      rw [← put_comm mid hne .idle _ mid.system]
      exact .enroll j c job p ((hothers hne).trans hregistering) hp hstage
    | other system hstep hlock => exact (ih hmid).tail (.other system hstep hlock)

/-! ### The way through -/

/-- A spawn can enter its job and give the lock back, while the others stay where they are. -/
def Enrolls (s : Callers) (i : Nat) (c : Candidate) : Prop :=
  ∃ later id, Steps s later ∧ later.system.spawning = none ∧ later.launches i = .spawned c id ∧
    ∀ j, j ≠ i → later.launches j = s.launches j

/-- Before that the system may get on under the lock. -/
theorem Enrolls.after {i : Nat} {c : Candidate} {system : System} (hstep : System.Step s.system system)
    (hlock : system.spawning.isSome = s.system.spawning.isSome)
    (h : Enrolls { s with system := system } i c) : s.Enrolls i c := by
  obtain ⟨later, id, hsteps, hrest⟩ := h
  exact ⟨later, id, .head (.other system hstep hlock) hsteps, hrest⟩

section Registering

variable {i : Nat} {c : Candidate} {job : Job} {p : Spawning}

theorem enrolls_of_started (hi : s.launches i = .registering c job) (hp : s.system.spawning = some p)
    (hstage : p.stage = .started) : s.Enrolls i c :=
  ⟨_, _, .single (.enroll i c job p hi hp hstage), rfl, s.launches_put_self i _ _,
    fun _ hne => s.launches_put_of_ne hne _ _⟩

theorem enrolls_of_counted (hi : s.launches i = .registering c job) (hp : s.system.spawning = some p)
    (hstage : p.stage = .counted) : s.Enrolls i c := by
  let begun : System :=
    { s.system with
      tasks := s.system.tasks ++ [.start p.job fun _ => { collection := { ending := .timedOut } }]
      spawning := some { p with stage := .started } }
  have hbegin : System.Step s.system begun := .begin p _ hp hstage
  have hrest : Enrolls { s with system := begun } i c := enrolls_of_started hi rfl rfl
  exact hrest.after hbegin (by rw [hp]; rfl)

theorem enrolls_of_locked (hi : s.launches i = .registering c job) (hp : s.system.spawning = some p)
    (hstage : p.stage = .locked) : s.Enrolls i c := by
  let counted : System :=
    { s.system with registry := s.system.registry.countIn, spawning := some { p with stage := .counted } }
  have hcount : System.Step s.system counted := .countIn p hp hstage
  have hrest : Enrolls { s with system := counted } i c := enrolls_of_counted hi rfl rfl
  exact hrest.after hcount (by rw [hp]; rfl)

theorem enrolls (hi : s.launches i = .registering c job) (hp : s.system.spawning = some p) : s.Enrolls i c := by
  cases hstage : p.stage with
  | locked => exact enrolls_of_locked hi hp hstage
  | counted => exact enrolls_of_counted hi hp hstage
  | started => exact enrolls_of_started hi hp hstage

end Registering

/-- Whoever holds the lock gives it back without those who wait for it. -/
theorem exists_unlocked (h : s.Sound base) :
    ∃ later, Steps s later ∧ later.system.spawning = none ∧
      ∀ i, (s.launches i).isThrough = false → later.launches i = s.launches i := by
  cases hp : s.system.spawning with
  | none => exact ⟨s, .refl, hp, fun _ _ => rfl⟩
  | some p =>
    obtain ⟨holder, c, hholder⟩ := h.locked p.job (by rw [System.lockedJob?, hp]; rfl)
    obtain ⟨later, -, hsteps, hfree, -, hothers⟩ := enrolls hholder hp
    refine ⟨later, hsteps, hfree, fun i hi => hothers i ?_⟩
    rintro rfl
    rw [hholder] at hi
    cases hi

/-- A spawn with its charts gets through. -/
theorem exists_spawned (h : s.Sound base) {i : Nat} {c : Candidate} {job : Job} (hi : s.launches i = .created c job) :
    ∃ later, Steps s later ∧ ∃ id, later.launches i = .spawned c id := by
  obtain ⟨unlocked, hsteps, hfree, hwaiting⟩ := exists_unlocked h
  have hcreated : unlocked.launches i = .created c job := (hwaiting i (by rw [hi]; rfl)).trans hi
  let p : Spawning := { job := job, script := (Script.next c.script).2 }
  obtain ⟨later, id, henrolled, -, hid, -⟩ := enrolls (p := p)
    (unlocked.launches_put_self i (.registering c job) { unlocked.system with spawning := some p }) rfl
  exact ⟨later, (hsteps.tail (.lock i c job hcreated hfree)).trans henrolled, id, hid⟩

/-- A spawn that was called comes to its end. -/
theorem exists_ended (h : s.Sound base) {i : Nat} {c : Candidate} (hi : s.launches i = .checking c) :
    ∃ later, Steps s later ∧
      ((∃ id, later.launches i = .spawned c id) ∨ ∃ e, later.launches i = .failed c e) := by
  cases hcheck : (s.system.registry.jobOf c).check (Script.next c.script).1 with
  | mk job verdict =>
    cases verdict with
    | error e =>
      have hreject : Step s (s.put i (.failed c e) s.system) := .aside i _ (hi ▸ .reject c job e hcheck)
      exact ⟨_, .single hreject, .inr ⟨e, s.launches_put_self i _ _⟩⟩
    | ok _ =>
      have hpass : Step s (s.put i (.checked c job) s.system) := .aside i _ (hi ▸ .pass c job hcheck)
      have hchecked := s.launches_put_self i (.checked c job) s.system
      generalize s.put i (.checked c job) s.system = passed at hpass hchecked
      cases hcreate : job.create c.layout with
      | mk made result =>
        cases result with
        | error e =>
          have hrefuse : Step passed (passed.put i (.failed c e) passed.system) :=
            .aside i _ (hchecked ▸ .refuse c job made e hcreate)
          exact ⟨_, .tail (.single hpass) hrefuse, .inr ⟨e, passed.launches_put_self i _ _⟩⟩
        | ok _ =>
          have hcreated : Step passed (passed.put i (.created c made) passed.system) :=
            .aside i _ (hchecked ▸ .create c job made hcreate)
          have hsteps : Steps s (passed.put i (.created c made) passed.system) := .tail (.single hpass) hcreated
          obtain ⟨later, hlater, hid⟩ :=
            exists_spawned (sound_steps h hsteps) (passed.launches_put_self i (.created c made) passed.system)
          exact ⟨later, hsteps.trans hlater, .inl hid⟩

/-! ### All or nothing -/

/-- Spawns get through or leave no trace, and only those that get through have blocks. -/
structure Clean (base : Registry) (s : Callers) : Prop where
  /-- The spawn of a candidate that is not fit fails with the error for it, and the system is one that gets there
  without it. -/
  failed : ∀ i c e, s.launches i = .failed c e → base.Refused c e ∧
    Steps (start base.plugin base.monitored) (s.put i .idle s.system)
  spawned : ∀ i c id, s.launches i = .spawned c id → base.Fit c ∧ id ∈ s.system.spawnedIds ∧
    ∃ t, s.system.tasks[id]? = some t ∧ t.job = base.ready c
  /-- Each block is of a job whose spawn had its charts and then the lock. -/
  handed : ∀ id block, (id, block) ∈ s.system.handed → ∃ i c t, base.Fit c ∧ s.system.tasks[id]? = some t ∧
    t.job = base.ready c ∧
      (s.launches i = .spawned c id ∨ s.launches i = .registering c t.job ∧ id = s.system.registry.nextId)
  blocks : s.system.registry.blocks = s.system.handed.map (·.2)
  /-- A spawn in its check can come to its end, which is the one for its candidate. -/
  ends : ∀ i c, s.launches i = .checking c →
    (base.Fit c → ∃ later, Steps s later ∧ ∃ id, later.launches i = .spawned c id) ∧
      ∀ e, base.Refused c e → ∃ later, Steps s later ∧ later.launches i = .failed c e

theorem Sound.spawned (h : s.Sound base) {i : Nat} {c : Candidate} {id : Nat} (hi : s.launches i = .spawned c id) :
    base.Fit c ∧ id ∈ s.system.spawnedIds ∧ ∃ t, s.system.tasks[id]? = some t ∧ t.job = base.ready c := by
  obtain ⟨hfit, hjob, hid⟩ := h.holds hi
  refine ⟨hfit, ?_, ?_⟩
  · rw [h.system.placing.spawned, List.mem_range]
    exact hid
  · rw [System.jobs, List.getElem?_map] at hjob
    exact Option.map_eq_some_iff.mp hjob

theorem Sound.failed (h : s.Sound base) {i : Nat} {c : Candidate} {e : CollectorError}
    (hi : s.launches i = .failed c e) : base.Refused c e :=
  h.holds hi

theorem Sound.handed (h : s.Sound base) {id : Nat} {block : List Line} (hblock : (id, block) ∈ s.system.handed) :
    ∃ i c t, base.Fit c ∧ s.system.tasks[id]? = some t ∧ t.job = base.ready c ∧
      (s.launches i = .spawned c id ∨ s.launches i = .registering c t.job ∧ id = s.system.registry.nextId) := by
  have howned : block ∈ ownedBy id s.system.handed := by
    rw [ownedBy, List.mem_map]
    exact ⟨(id, block), List.mem_filter.mpr ⟨hblock, decide_eq_true rfl⟩, rfl⟩
  rw [h.system.driving.handed, System.blocksOf] at howned
  cases ht : s.system.tasks[id]? with
  | none =>
    rw [ht] at howned
    cases howned
  | some t =>
    obtain ⟨i, c, hfit, hready, hi⟩ := h.jobs id t.job (by rw [System.jobs, List.getElem?_map, ht]; rfl)
    exact ⟨i, c, t, hfit, rfl, hready, hi⟩

theorem start_put_idle (plugin : String) (monitored : Bool) (i : Nat) :
    (start plugin monitored).put i .idle (start plugin monitored).system = start plugin monitored := by
  have hidle : Function.update (start plugin monitored).launches i .idle = (start plugin monitored).launches :=
    Function.update_eq_self i _
  rw [put, hidle]

theorem Sound.clean (h : s.Sound base) (hsteps : Steps (start base.plugin base.monitored) s) : s.Clean base where
  failed i c e hi := by
    have hwithout := steps_without (i := i) hsteps (by rw [hi]; rfl)
    rw [start_put_idle] at hwithout
    exact ⟨h.failed hi, hwithout⟩
  spawned i c id hi := h.spawned hi
  handed id block hblock := h.handed hblock
  blocks := h.system.driving.blocks
  ends i c hi := by
    obtain ⟨later, hlater, hend⟩ := exists_ended h hi
    have hsound := sound_steps h hlater
    refine ⟨fun hfit => ?_, fun e hrefused => ?_⟩
    · rcases hend with hid | ⟨e, he⟩
      · exact ⟨later, hlater, hid⟩
      · cases (prepare_of_fit hfit).symm.trans (prepare_of_refused (hsound.failed he))
    · rcases hend with ⟨id, hid⟩ | ⟨other, hother⟩
      · cases (prepare_of_refused hrefused).symm.trans (prepare_of_fit (hsound.spawned hid).1)
      · cases (prepare_of_refused hrefused).symm.trans (prepare_of_refused (hsound.failed hother))
        exact ⟨later, hlater, hother⟩

end Callers

/-- Whatever the first call of a collector does and comes to, its spawn succeeds exactly if there were samples in time
and its charts could be created, and fails with the error for its reason else. Among any other calls, a spawn that
fails leaves no trace, and the writer takes no block of a job before its spawn is sure to succeed. -/
theorem spawn_all_or_nothing (plugin : String) (monitored : Bool) :
    (∀ r c, Decided r c) ∧ ∀ s, Callers.Steps (.start plugin monitored) s →
      s.Clean { plugin := plugin, monitored := monitored } :=
  ⟨decided, fun _ hsteps => (Callers.sound_steps (Callers.sound_start plugin monitored) hsteps).clean hsteps⟩

/-- A collector of one chart gets through with samples and fails without. -/
theorem spawn_all_or_nothing_meter :
    let silent : Candidate := { System.meter with script := [{ answer := .ok none }] }
    (∃ s id, Callers.Steps (.start "plugind" true) s ∧ s.launches 0 = .spawned System.meter id) ∧
      ∃ s, Callers.Steps (.start "plugind" true) s ∧
        s.launches 0 = .failed silent (.checkFailed "job 'net' returned no data") ∧
        Callers.Steps (.start "plugind" true) (s.put 0 .idle s.system) := by
  intro silent
  let base : Registry := { plugin := "plugind" }
  obtain ⟨hdecided, hclean⟩ := spawn_all_or_nothing "plugind" true
  have hcall (c : Candidate) : Callers.Steps (.start "plugind" true)
      (.put (.start "plugind" true) 0 (.checking c) (.start "plugind" true)) := .single (.aside 0 _ (.call c))
  have hends (c : Candidate) := (hclean _ (hcall c)).ends 0 c (Callers.launches_put_self _ 0 _ _)
  have hfit : base.Fit System.meter := by
    have hok : (base.spawn System.meter).toOption.isSome = true := by decide +kernel
    cases hspawn : base.spawn System.meter with
    | error e =>
      rw [hspawn] at hok
      cases hok
    | ok spawned => exact (hdecided base System.meter).through.mp ⟨_, _, hspawn⟩
  have hrefused : base.Refused silent (.checkFailed "job 'net' returned no data") := .barren .none
  obtain ⟨through, hthrough, id, hid⟩ := (hends System.meter).1 hfit
  obtain ⟨failed, hfailed, he⟩ := (hends silent).2 _ hrefused
  have hsteps := (hcall silent).trans hfailed
  exact ⟨⟨through, id, (hcall System.meter).trans hthrough, hid⟩, failed, hsteps, he,
    ((hclean failed hsteps).failed 0 silent _ he).2⟩

end Registry

end ChartStream
