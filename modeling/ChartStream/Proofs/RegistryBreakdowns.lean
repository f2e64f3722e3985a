import ChartStream.Proofs.NextRun
import ChartStream.Proofs.RegistrySpawn

/-!
# Tasks that break down

A task may break down in a call of its collector, or where the time of its next cycle cannot be told. It does nothing
any more then: its exit is not recorded, and it is not counted out. Main definitions: `Registry.Fragile`,
`Registry.Fragile.Step`. Main result: `Registry.Fragile.idle_unless_broken`.
-/

namespace ChartStream

set_option autoImplicit false

/-- Cycles that are counted, one after the other, while no signal comes. -/
theorem Job.moves_counted {job : Job} {script : Nat → Attempt} {now : Duration} (n : Nat)
    (hwait : ∀ k < n, (job.after script k).wait now none = .over)
    (hcounted : ∀ k < n, ∃ updated, (job.cycleAt script k).result = .ok updated) :
    ∃ blocks, Moves script { job := job } ⟨job.after script n, .between, none, n, blocks⟩ := by
  induction n with
  | zero => exact ⟨[], .refl⟩
  | succ n ih =>
    obtain ⟨blocks, hmoves⟩ := ih (fun k hk => hwait k (Nat.lt_succ_of_lt hk)) fun k hk =>
      hcounted k (Nat.lt_succ_of_lt hk)
    obtain ⟨updated, hresult⟩ := hcounted n (Nat.lt_succ_self n)
    have hcall := moves_call script n blocks (hwait n (Nat.lt_succ_self n)) none
    exact ⟨_, (hmoves.trans hcall).trans (moves_of_ok rfl rfl hresult)⟩

namespace Registry

/-- Where a task breaks down, if its collector does so in a call or the clock shows a time after which none can be told
for the next cycle. -/
inductive Task.Breaks (t : Task) : Prop
  | collector (left : List Catalog.Operation) (hphase : t.run.phase = .collecting left)
  | clock (now : Duration) (hphase : t.run.phase = .between) (hsignal : t.run.signal ≠ some .requested)
      (hdelay : t.run.job.counters.delay? now = none)

/-- The task has done nothing. It may have been asked to stop. -/
structure Task.Rests (before after : Task) : Prop where
  stage : after.stage = before.stage
  run : after.run = { before.run with signal := after.run.signal }

/-- A system with the tasks that broke down. -/
structure Fragile where
  system : System
  /-- The ids of these tasks. -/
  broken : List Nat := []
  /-- The ids of removals that returned because the task had broken down. -/
  released : List Nat := []

namespace Fragile

/-- Before the first call. -/
def start (plugin : String) (monitored : Bool) : Fragile :=
  { system := .start plugin monitored }

/-- One step. -/
inductive Step (f : Fragile) : Fragile → Prop
  /-- The system does a step, in which no task takes part that broke down. -/
  | go (system : System) (hstep : System.Step f.system system)
      (hrest : ∀ id ∈ f.broken, ∀ t u, f.system.tasks[id]? = some t → system.tasks[id]? = some u → t.Rests u) :
      Step f { f with system := system }
  | breakDown (id : Nat) (t : Task) (ht : f.system.tasks[id]? = some t) (hbreaks : t.Breaks) (hnew : id ∉ f.broken) :
      Step f { f with broken := f.broken ++ [id] }
  /-- A removal waits for the task no longer, whatever became of it. -/
  | release (id : Nat) (hid : id ∈ f.system.joining) (hbroken : id ∈ f.broken) (hnew : id ∉ f.released) :
      Step f { f with released := f.released ++ [id] }

/-- Any number of steps. -/
def Steps : Fragile → Fragile → Prop :=
  Relation.ReflTransGen Step

/-- The task of an id has ended: it returned or broke down. -/
def Ended (f : Fragile) (id : Nat) (t : Task) : Prop :=
  t.stage = .gone ∨ id ∈ f.broken

/-- The tasks that count as running and did not break down. -/
def live (f : Fragile) : Nat :=
  (List.range f.system.tasks.length).countP fun id => id ∉ f.broken && f.system.tasks[id]?.any Task.isActive

/-- The tasks that returned. -/
def gone (f : Fragile) : Nat :=
  f.system.tasks.countP fun t => t.stage = .gone

/-! ## Broken tasks stay where they are -/

/-- Tasks do not vanish. -/
theorem exists_task_of_step {s s' : System} (hstep : System.Step s s') {id : Nat} {t : Task}
    (ht : s.tasks[id]? = some t) : ∃ u, s'.tasks[id]? = some u := by
  have hset (other : Nat) (changed : Task) : ∃ u, (s.tasks.set other changed)[id]? = some u := by
    have hlt : id < (s.tasks.set other changed).length := by
      rw [List.length_set]
      exact (List.getElem?_eq_some_iff.mp ht).1
    exact ⟨_, List.getElem?_eq_getElem hlt⟩
  cases hstep with
  | begin => exact ⟨t, get_append ht _⟩
  | work => exact hset _ _
  | record => exact hset _ _
  | countOut => exact hset _ _
  | stop => exact hset _ _
  | _ => exact ⟨t, ht⟩

variable {f f' : Fragile}

/-- The system is one that gets along without breakdowns, and the tasks that broke down have not got to the end of
their jobs. -/
structure Sound (f : Fragile) : Prop where
  system : f.system.Sound
  nodup : f.broken.Nodup
  broken : ∀ id ∈ f.broken, ∃ t, f.system.tasks[id]? = some t ∧ t.stage = .running ∧
    ∀ exit, t.run.phase ≠ .ended exit

theorem not_ended_of_breaks {t : Task} (h : t.Breaks) (exit : Job.Exit) : t.run.phase ≠ .ended exit := by
  intro hexit
  cases h with
  | collector left hphase => cases hphase.symm.trans hexit
  | clock now hphase => cases hphase.symm.trans hexit

theorem sound_start (plugin : String) (monitored : Bool) : (start plugin monitored).Sound :=
  ⟨System.sound_start plugin monitored, List.nodup_nil, fun _ hid => absurd hid List.not_mem_nil⟩

theorem sound_step (h : f.Sound) (hstep : Step f f') : f'.Sound := by
  cases hstep with
  | go system hstep hrest =>
    refine ⟨System.sound_step h.system hstep, h.nodup, fun id hid => ?_⟩
    obtain ⟨t, ht, hstage, hphase⟩ := h.broken id hid
    obtain ⟨u, hu⟩ := exists_task_of_step hstep ht
    have hsame := hrest id hid t u ht hu
    refine ⟨u, hu, hsame.stage.trans hstage, fun exit => ?_⟩
    rw [hsame.run]
    exact hphase exit
  | breakDown id t ht hbreaks hnew =>
    refine ⟨h.system, ?_, fun other hother => ?_⟩
    · rw [List.nodup_append]
      exact ⟨h.nodup, List.nodup_singleton _, fun a ha b hb heq => hnew (List.mem_singleton.mp hb ▸ heq ▸ ha)⟩
    · rcases List.mem_append.mp hother with hother | hother
      · exact h.broken other hother
      · cases List.mem_singleton.mp hother
        refine ⟨t, ht, ?_, not_ended_of_breaks hbreaks⟩
        by_contra hstage
        obtain ⟨exit, hexit⟩ := (h.system.driving.tasks id t ht).ended hstage
        exact not_ended_of_breaks hbreaks exit hexit
  | release id hid hbroken hnew => exact ⟨h.system, h.nodup, h.broken⟩

theorem sound_steps (h : f.Sound) (hsteps : Steps f f') : f'.Sound := by
  induction hsteps with
  | refl => exact h
  | tail _ hstep ih => exact sound_step ih hstep

theorem broken_steps (hsteps : Steps f f') {id : Nat} (hid : id ∈ f.broken) : id ∈ f'.broken := by
  induction hsteps with
  | refl => exact hid
  | tail _ hstep ih =>
    cases hstep with
    | breakDown => exact List.mem_append_left _ ih
    | _ => exact ih

/-! ## What is counted -/

theorem countP_eq_range (tasks : List Task) (p : Task → Bool) :
    tasks.countP p = (List.range tasks.length).countP fun id => tasks[id]?.any p := by
  induction tasks using List.reverseRecOn with
  | nil => rfl
  | append_singleton tasks t ih =>
    have hbefore : ((List.range tasks.length).countP fun id => (tasks ++ [t])[id]?.any p) =
        (List.range tasks.length).countP fun id => tasks[id]?.any p := by
      refine List.countP_congr fun id hid => ?_
      rw [List.getElem?_append_left (List.mem_range.mp hid)]
    have hlast : (tasks ++ [t])[tasks.length]?.any p = p t := by rw [List.getElem?_concat_length]; rfl
    rw [List.countP_append, ih, List.length_append, List.length_singleton, List.range_succ, List.countP_append, hbefore,
      List.countP_singleton, List.countP_singleton, hlast]

/-- The tasks that broke down are among the ones that count as running, and are counted once. -/
theorem Sound.countP_broken (h : f.Sound) :
    ((List.range f.system.tasks.length).countP fun id =>
      id ∈ f.broken && f.system.tasks[id]?.any Task.isActive) = f.broken.length := by
  rw [List.countP_eq_length_filter]
  refine ((List.perm_ext_iff_of_nodup (List.nodup_range.filter _) h.nodup).mpr fun id => ?_).length_eq
  rw [List.mem_filter, List.mem_range, Bool.and_eq_true, decide_eq_true_eq]
  refine ⟨fun hid => hid.2.1, fun hid => ?_⟩
  obtain ⟨t, ht, hstage, -⟩ := h.broken id hid
  refine ⟨(List.getElem?_eq_some_iff.mp ht).1, hid, ?_⟩
  rw [ht, Option.any_some, Task.isActive, hstage]
  rfl

/-- The counter is ahead of the tasks that may still get on by those that broke down. -/
theorem Sound.counter (h : f.Sound) (hfree : f.system.spawning = none) :
    f.system.registry.active = f.live + f.broken.length := by
  rw [h.system.accounted.active hfree, System.activeTasks, countP_eq_range, ← h.countP_broken, live, Nat.add_comm,
    List.countP_eq_length_filter, List.length_eq_countP_add_countP fun id => decide (id ∈ f.broken),
    List.countP_filter, List.countP_filter]
  simp only [decide_eq_true_eq]

/-- Of each task that returned the counter has been reduced once. -/
theorem Sound.once (h : f.Sound) (hfree : f.system.spawning = none) :
    f.system.registry.active + f.gone = f.system.tasks.length := by
  rw [h.system.accounted.active hfree, System.activeTasks, gone, List.length_eq_countP_add_countP Task.isActive]
  refine congrArg _ (List.countP_congr fun t _ => ?_)
  simp [Task.isActive]

/-! ## After a breakdown -/

theorem Sound.active_pos (h : f.Sound) {id : Nat} (hid : id ∈ f.broken) : 0 < f.system.registry.active := by
  obtain ⟨t, ht, hstage, -⟩ := h.broken id hid
  exact h.system.counting.active_pos ht (by rw [Task.isActive, hstage]; rfl)

/-- The entry of a task that broke down shows no exit. -/
theorem Sound.exit_of_broken (h : f.Sound) {e : Entry} (he : e ∈ f.system.registry.entries)
    (hid : e.id ∈ f.broken) : e.exit = none := by
  obtain ⟨t, ht, hstage, -⟩ := h.broken e.id hid
  obtain ⟨u, hu, hshown⟩ := h.system.counting.exits e he
  cases ht.symm.trans hu
  cases hexit : e.exit with
  | none => rfl
  | some exit =>
    rw [hexit] at hshown
    exact absurd hstage hshown.1

/-- The entry of a task that returned shows how its job ended. -/
theorem Sound.exit_of_gone (h : f.Sound) {e : Entry} (he : e ∈ f.system.registry.entries) {t : Task}
    (ht : f.system.tasks[e.id]? = some t) (hgone : t.stage = .gone) :
    ∃ exit, e.exit = some exit ∧ t.run.phase = .ended exit := by
  obtain ⟨u, hu, hshown⟩ := h.system.counting.exits e he
  cases ht.symm.trans hu
  cases hexit : e.exit with
  | none =>
    rw [hexit] at hshown
    cases hgone.symm.trans hshown
  | some exit =>
    rw [hexit] at hshown
    exact ⟨exit, rfl, hshown.2⟩

/-! ## The way to the end -/

/-- A step of one task, which did not break down. -/
theorem step_of_set {system : System} (hstep : System.Step f.system system) {id : Nat} {changed : Task}
    (htasks : system.tasks = f.system.tasks.set id changed) (hnew : id ∉ f.broken) :
    Step f { f with system := system } := by
  refine .go system hstep fun other hother u v hu hv => ?_
  have hne : id ≠ other := fun heq => hnew (heq ▸ hother)
  rw [htasks, List.getElem?_set_ne hne] at hv
  cases hu.symm.trans hv
  exact ⟨rfl, rfl⟩

theorem exists_gone_of_recorded {id : Nat} {t : Task} (ht : f.system.tasks[id]? = some t) (hstage : t.stage = .recorded)
    (hnew : id ∉ f.broken) : ∃ later u, Steps f later ∧ later.system.tasks[id]? = some u ∧ u.stage = .gone :=
  ⟨_, { t with stage := .gone }, .single (step_of_set (.countOut id t ht hstage) rfl hnew),
    List.getElem?_set_self (List.getElem?_eq_some_iff.mp ht).1, rfl⟩

/-- A task whose job has ended records the exit and counts itself out, once the lock is free. -/
theorem exists_gone (h : f.Sound) (hfree : f.system.spawning = none) {id : Nat} {t : Task} {exit : Job.Exit}
    (ht : f.system.tasks[id]? = some t) (hphase : t.run.phase = .ended exit) :
    ∃ later u, Steps f later ∧ later.system.tasks[id]? = some u ∧ u.stage = .gone := by
  have hnew : id ∉ f.broken := by
    intro hid
    obtain ⟨u, hu, -, hrunning⟩ := h.broken id hid
    cases ht.symm.trans hu
    exact hrunning exit hphase
  cases hstage : t.stage with
  | gone => exact ⟨f, t, .refl, ht, hstage⟩
  | recorded => exact exists_gone_of_recorded ht hstage hnew
  | running =>
    have hrecord : Step f { f with system := f.system.record id t exit [] } :=
      step_of_set (.record id t exit [] hfree ht hstage hphase) rfl hnew
    have hrecorded : (f.system.record id t exit []).tasks[id]? = some { t with stage := .recorded } :=
      List.getElem?_set_self (List.getElem?_eq_some_iff.mp ht).1
    obtain ⟨later, u, hsteps, hu⟩ :=
      exists_gone_of_recorded (f := { f with system := f.system.record id t exit [] }) hrecorded rfl hnew
    exact ⟨later, u, .head hrecord hsteps, hu⟩

/-! ## A job that ages -/

theorem steps_of_system {s s' : System} (hsteps : System.Steps s s') : Steps { system := s } { system := s' } := by
  induction hsteps with
  | refl => exact .refl
  | tail _ hstep ih => exact ih.tail (.go _ hstep fun id hid => absurd hid List.not_mem_nil)

/-- A collector whose job runs every so many years. -/
def almanac : Candidate :=
  { System.meter with config := .ages }

/-- Calls that fail. -/
def failing (_ : Nat) : Job.Attempt :=
  { collection := { ending := .answered (.error (.network "gone")) } }

/-- After two failures no time can be told for the next cycle of the job. -/
theorem exists_overflow :
    ∃ f, Steps (start "plugind" true) f ∧ f.system.spawning = none ∧ f.broken = [0] ∧
      (∀ (id : Nat) (t : Task), f.system.tasks[id]? = some t → f.Ended id t) ∧
      ∃ e, f.system.registry.entries = [e] ∧ e.id = 0 := by
  let base : Registry := { plugin := "plugind" }
  let job := base.ready almanac
  have hfit : base.Fit almanac := ⟨⟨_, rfl, by decide⟩, by decide, by decide +kernel⟩
  have hcounted (k : Nat) : ∃ updated, (job.cycleAt failing k).result = .ok updated := by
    have hcycle : job.cycleAt failing k = _ :=
      (Job.finish_of_ok rfl true (job.after failing k).catalog).trans (Job.emit_of_taken (.inr rfl))
    exact ⟨_, congrArg Job.Cycle.result hcycle⟩
  have hwait : ∀ k < 2, (job.after failing k).wait .zero none = .over := by decide +kernel
  have hdelay : (job.after failing 2).counters.delay? .zero = none := by decide +kernel
  obtain ⟨blocks, hmoves⟩ := Job.moves_counted 2 hwait fun k _ => hcounted k
  -- The job is spawned, gets on by two cycles and then breaks down.
  let t := Task.start job failing
  let registered := (System.start "plugind" true).registerAtOnce job (Script.next almanac.script).2 failing
  have hregister : System.Steps (.start "plugind" true) registered :=
    System.steps_registerAtOnce rfl (prepare_of_fit hfit) failing
  have hstarted : registered.tasks[0]? = some t := rfl
  obtain ⟨handed, -, hwork⟩ := System.steps_work hstarted hmoves
  have hsteps := hregister.trans hwork
  have hbreaks : Task.Breaks { t with run := ⟨job.after failing 2, .between, none, 2, blocks⟩ } :=
    .clock .zero rfl nofun hdelay
  refine ⟨_, (steps_of_system hsteps).tail (.breakDown 0 _ rfl hbreaks List.not_mem_nil), rfl, rfl,
    fun id u hu => .inr ?_, _, rfl, rfl⟩
  have hlt : id < 1 := (List.getElem?_eq_some_iff.mp hu).1
  exact List.mem_singleton.mpr (Nat.lt_one_iff.mp hlt)

/-! ## All tasks -/

/-- What becomes of the tasks. -/
structure Account (f : Fragile) : Prop where
  counter : f.system.spawning = none → f.system.registry.active = f.live + f.broken.length
  once : f.system.spawning = none → f.system.registry.active + f.gone = f.system.tasks.length
  /-- A task that returns has recorded the exit of its job, if that is still registered. -/
  returned : ∀ e ∈ f.system.registry.entries, ∀ t : Task, f.system.tasks[e.id]? = some t → t.stage = .gone →
    ∃ exit, e.exit = some exit ∧ t.run.phase = .ended exit
  /-- A task whose job comes to its end can return. -/
  returns : f.system.spawning = none → ∀ (id : Nat) (t : Task) (exit : Job.Exit), f.system.tasks[id]? = some t →
    t.run.phase = .ended exit →
    ∃ (later : Fragile) (u : Task), Steps f later ∧ later.system.tasks[id]? = some u ∧ u.stage = .gone
  /-- A task that breaks down is counted for good, and its entry never shows an exit. -/
  broken : ∀ id ∈ f.broken, ∀ later, Steps f later → 0 < later.system.registry.active ∧
    ∀ e ∈ later.system.registry.entries, e.id = id → e.exit = none
  /-- When all tasks have ended, no job counts as running exactly if none broke down. -/
  idle : f.system.spawning = none → (∀ id t, f.system.tasks[id]? = some t → f.Ended id t) →
    f.system.registry.active = f.broken.length ∧ (f.system.registry.active = 0 ↔ f.broken = [])

theorem Sound.account (h : f.Sound) : f.Account where
  counter := h.counter
  once := h.once
  returned e he t ht hgone := h.exit_of_gone he ht hgone
  returns hfree id t exit ht hphase := exists_gone h hfree ht hphase
  broken id hid later hlater :=
    ⟨(sound_steps h hlater).active_pos (broken_steps hlater hid), fun e he heq =>
      (sound_steps h hlater).exit_of_broken he (heq ▸ broken_steps hlater hid)⟩
  idle hfree hended := by
    have hlive : f.live = 0 := by
      rw [live, List.countP_eq_zero]
      intro id hid
      rw [Bool.and_eq_true, decide_eq_true_eq, List.getElem?_eq_getElem (List.mem_range.mp hid), Option.any_some]
      rintro ⟨hnew, hactive⟩
      rcases hended id _ (List.getElem?_eq_getElem (List.mem_range.mp hid)) with hgone | hbroken
      · rw [Task.isActive, hgone] at hactive
        cases hactive
      · exact hnew hbroken
    have hcounter := h.counter hfree
    rw [hlive, Nat.zero_add] at hcounter
    exact ⟨hcounter, by rw [hcounter, List.length_eq_zero_iff]⟩

/-- A task that comes to the end of its job records the exit and is counted out once. One that breaks down never is:
its entry shows no exit, and the registry is never idle again. -/
theorem idle_unless_broken (plugin : String) (monitored : Bool) (f : Fragile) (h : Steps (start plugin monitored) f) :
    f.Account :=
  (sound_steps (sound_start plugin monitored) h).account

/-- The job counts as running, but nothing is left of it that might get on. -/
theorem idle_unless_broken_overflow :
    ∃ f, Steps (start "plugind" true) f ∧ f.Account ∧ f.broken = [0] ∧ f.system.registry.active = 1 ∧ f.live = 0 := by
  obtain ⟨f, hsteps, hfree, hbroken, hended, -⟩ := exists_overflow
  have haccount := idle_unless_broken "plugind" true f hsteps
  have hactive := (haccount.idle hfree hended).1
  have hcounter := haccount.counter hfree
  rw [hbroken, List.length_singleton] at hactive hcounter
  exact ⟨f, hsteps, haccount, hbroken, hactive, by omega⟩

/-- All tasks have ended, but one job counts as running for good, and its entry never shows an exit. -/
theorem never_idle :
    ∃ f, Steps (start "plugind" true) f ∧ f.system.spawning = none ∧
      (∀ (id : Nat) (t : Task), f.system.tasks[id]? = some t → f.Ended id t) ∧
      (∃ e, f.system.registry.entries = [e] ∧ e.exit = none) ∧ f.system.registry.active = 1 ∧
      ∀ later, Steps f later → 0 < later.system.registry.active := by
  obtain ⟨f, hsteps, hfree, hbroken, hended, e, hentries, hid⟩ := exists_overflow
  have hsound := sound_steps (sound_start "plugind" true) hsteps
  have hmem : 0 ∈ f.broken := hbroken ▸ List.mem_singleton_self 0
  refine ⟨f, hsteps, hfree, hended, ⟨e, hentries, ?_⟩, ?_, fun later hlater =>
    (sound_steps hsound hlater).active_pos (broken_steps hlater hmem)⟩
  · exact hsound.exit_of_broken (hentries ▸ List.mem_singleton_self e) (hid ▸ hmem)
  · rw [(hsound.account.idle hfree hended).1, hbroken]
    rfl

end Fragile

end Registry

end ChartStream
