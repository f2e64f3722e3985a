import ChartStream.Proofs.RegistrySteps

/-!
# The registry on its own as a schedule

`Registry.spawn`, `Registry.remove` and `Registry.waitIdle` carry out one call after the other, and run each job in
one go. What they do to the registry, some steps of the system do as well. So what holds after every step holds of
them. Main result: `Registry.steps_of_called`. Calls that fail are single steps (`System.step_refuse`,
`System.step_miss`).
-/

namespace ChartStream.Registry

set_option autoImplicit false

/-- The task has not begun, and is to do what the script of its job comes to. -/
structure Task.Awaits (t : Task) (e : Entry) : Prop where
  stage : t.stage = .running
  run : t.run = { job := e.job }
  follows : ∀ run, e.job.run? true .zero none e.script = some run →
    ∃ r, Job.Moves t.script { job := e.job } r ∧ r.phase = .ended run.exit ∧ r.job = run.job ∧ r.blocks = run.blocks

/-- A job that was asked to stop before it began ends without a call. -/
theorem complete_requested (r : Registry) {e : Entry} (hexit : e.exit = none) :
    complete (some .requested) r e = r.finish e.id (e.job.stop .shutdown e.script) := by
  rw [complete, hexit, Job.run?_requested]

/-- What comes of a job that is not registered any more changes no entry. -/
theorem entries_complete_without (r : Registry) (signal : Option StopSignal) (e : Entry) :
    (complete signal (r.without e.id) e).entries = (r.without e.id).entries := by
  unfold complete
  split
  · rfl
  · split
    · refine (List.map_congr_left fun other hother => if_neg ?_).trans (List.map_id _)
      simpa using (List.mem_filter.mp hother).2
    · rfl

theorem exists_awaits (job : Job) (script : Script) (id : Nat) :
    ∃ attempts, (Task.start job attempts).Awaits { id := id, job := job, script := script } := by
  cases hrun : job.run? true .zero none script with
  | none =>
    refine ⟨fun _ => { collection := { ending := .timedOut } }, rfl, rfl, fun run h => ?_⟩
    cases hrun.symm.trans h
  | some run =>
    obtain ⟨attempts, r, hmoves, hend⟩ := Job.moves_of_run? hrun
    refine ⟨attempts, rfl, rfl, fun other h => ?_⟩
    cases hrun.symm.trans h
    exact ⟨r, hmoves, hend⟩

theorem mem_complete {r : Registry} {signal : Option StopSignal} {e other : Entry} (hother : other ∈ r.entries)
    (hne : other.id ≠ e.id) : other ∈ (complete signal r e).entries := by
  unfold complete
  split
  · exact hother
  · split
    · exact List.mem_map.mpr ⟨other, hother, if_neg hne⟩
    · exact hother

namespace System

variable {s : System}

/-- Between two calls: the job of each entry has ended with its task, or has not begun. -/
structure Rests (s : System) : Prop where
  sound : s.Sound
  free : s.spawning = none
  taken : s.taken = []
  joining : s.joining = []
  entries : ∀ e ∈ s.registry.entries, ∃ t, s.tasks[e.id]? = some t ∧ (e.exit = none → t.Awaits e) ∧
    (e.exit ≠ none → t.stage = .gone)

theorem rests_start (plugin : String) (monitored : Bool) : (start plugin monitored).Rests :=
  ⟨sound_start plugin monitored, rfl, rfl, rfl, fun _ he => absurd he List.not_mem_nil⟩

/-! ## A job in one go -/

theorem work_nothing {id : Nat} {t : Task} (ht : s.tasks[id]? = some t) : s.work id t t.run [] = s := by
  obtain ⟨hlt, rfl⟩ := List.getElem?_eq_some_iff.mp ht
  have htasks : s.tasks.set id { s.tasks[id] with run := s.tasks[id].run } = s.tasks := List.set_getElem_self hlt
  rw [work, htasks, handOver, List.append_nil, List.map_nil, List.append_nil]

theorem work_work (s : System) (id : Nat) (t : Task) (first second : Job.Running) (blocks more : List (List Line)) :
    (s.work id t first blocks).work id { t with run := first } second more =
      s.work id t second (blocks ++ more) := by
  simp only [work, handOver, List.set_set, List.map_append, List.append_assoc]

/-- A run of a job is a run of the system. -/
theorem steps_work {id : Nat} {t : Task} (ht : s.tasks[id]? = some t) {r : Job.Running}
    (hmoves : Job.Moves t.script t.run r) :
    ∃ blocks, r.blocks = t.run.blocks ++ blocks ∧ Steps s (s.work id t r blocks) := by
  induction hmoves with
  | refl => exact ⟨[], (List.append_nil _).symm, by rw [work_nothing ht]; exact .refl⟩
  | @tail mid r _ hmove ih =>
    obtain ⟨blocks, hblocks, hsteps⟩ := ih
    obtain ⟨more, hmore⟩ := Job.blocks_of_move hmove
    have hmid : (s.work id t mid blocks).tasks[id]? = some { t with run := mid } :=
      List.getElem?_set_self (List.getElem?_eq_some_iff.mp ht).1
    have hlast := Step.work id { t with run := mid } r more hmid hmove hmore
    rw [work_work] at hlast
    exact ⟨blocks ++ more, by rw [hmore, hblocks, List.append_assoc], hsteps.tail hlast⟩

/-- A task runs its job to its end and returns. -/
def finish (s : System) (id : Nat) (t : Task) (r : Job.Running) (run : Job.Run) : System :=
  { s with
    registry := s.registry.finish id run
    tasks := s.tasks.set id { t with run := r, stage := .gone }
    handed := s.handed ++ run.blocks.map (id, ·) }

theorem steps_finish (hfree : s.spawning = none) {id : Nat} {t : Task} (ht : s.tasks[id]? = some t)
    (hstage : t.stage = .running) {r : Job.Running} (hmoves : Job.Moves t.script t.run r) {run : Job.Run}
    (hphase : r.phase = .ended run.exit) (hjob : r.job = run.job) (hblocks : r.blocks = t.run.blocks ++ run.blocks) :
    Steps s (s.finish id t r run) := by
  obtain ⟨blocks, hhanded, hsteps⟩ := steps_work ht hmoves
  obtain rfl : blocks = run.blocks := List.append_cancel_left (hhanded.symm.trans hblocks)
  let worked := s.work id t r run.blocks
  have hworked : worked.tasks[id]? = some { t with run := r } :=
    List.getElem?_set_self (List.getElem?_eq_some_iff.mp ht).1
  let recorded := worked.record id { t with run := r } run.exit run.script
  have hrecord : Step worked recorded :=
    .record id { t with run := r } run.exit run.script hfree hworked hstage hphase
  have hcountOut : Step recorded (recorded.countOut id { t with run := r, stage := .recorded }) :=
    .countOut id _ (List.getElem?_set_self (List.getElem?_eq_some_iff.mp hworked).1) rfl
  have hfinish : recorded.countOut id { t with run := r, stage := .recorded } = s.finish id t r run := by
    simp only [recorded, worked, System.record, System.countOut, work, finish, Registry.finish, Registry.record,
      List.set_set, hjob]
  rw [← hfinish]
  exact (hsteps.tail hrecord).tail hcountOut

theorem Rests.finish (h : s.Rests) {id : Nat} {t : Task} {r : Job.Running} {run : Job.Run}
    (hsteps : Steps s (s.finish id t r run)) : (s.finish id t r run).Rests := by
  refine ⟨sound_steps h.sound hsteps, h.free, h.taken, h.joining, fun e he => ?_⟩
  obtain ⟨held, hheld, rfl⟩ := List.mem_map.mp he
  obtain ⟨u, hu, hentry⟩ := h.entries held hheld
  by_cases hid : held.id = id
  · rw [if_pos hid]
    subst hid
    exact ⟨_, List.getElem?_set_self (List.getElem?_eq_some_iff.mp hu).1, nofun, fun _ => rfl⟩
  · rw [if_neg hid]
    exact ⟨u, (List.getElem?_set_ne (Ne.symm hid)).trans hu, hentry⟩

/-! ## Calls -/

/-- A job that is not spawned is one step, after which only the answer is new. -/
theorem step_refuse {c : Candidate} {e : CollectorError} (hspawn : s.registry.spawn c = .error e) :
    Step s (s.reply (.failed e)) := by
  refine .refuse c e ?_
  cases hprepare : s.registry.prepare c with
  | error failure => simpa [spawn, hprepare] using hspawn
  | ok prepared => simp [spawn, hprepare] at hspawn

/-- A job is counted, begins and is entered, with nobody else at work meanwhile. -/
def registerAtOnce (s : System) (job : Job) (script : Script) (attempts : Nat → Job.Attempt) : System :=
  { s.reply (.spawned s.registry.nextId) with
    registry := s.registry.register job script
    tasks := s.tasks ++ [.start job attempts]
    spawning := none }

theorem steps_registerAtOnce (hfree : s.spawning = none) {c : Candidate} {job : Job} {script : Script}
    (hprepare : s.registry.prepare c = .ok (job, script)) (attempts : Nat → Job.Attempt) :
    Steps s (s.registerAtOnce job script attempts) := by
  let locked : System := { s with spawning := some { job := job, script := script } }
  let counted : System := { locked with
    registry := s.registry.countIn
    spawning := some { job := job, script := script, stage := .counted } }
  let begun : System := { counted with
    tasks := s.tasks ++ [.start job attempts]
    spawning := some { job := job, script := script, stage := .started } }
  have hlock : Step s locked := .lock c job script hfree hprepare
  have hcountIn : Step locked counted := .countIn { job := job, script := script } rfl rfl
  have hbegin : Step counted begun := .begin { job := job, script := script, stage := .counted } attempts rfl rfl
  have henroll : Step begun (s.registerAtOnce job script attempts) :=
    .enroll { job := job, script := script, stage := .started } rfl rfl
  exact (((Relation.ReflTransGen.single hlock).tail hcountIn).tail hbegin).tail henroll

theorem Rests.registerAtOnce (h : s.Rests) {job : Job} {script : Script} {attempts : Nat → Job.Attempt}
    (hsteps : Steps s (s.registerAtOnce job script attempts))
    (hawaits : (Task.start job attempts).Awaits { id := s.registry.nextId, job := job, script := script }) :
    (s.registerAtOnce job script attempts).Rests := by
  refine ⟨sound_steps h.sound hsteps, rfl, h.taken, h.joining, fun e he => ?_⟩
  rcases List.mem_append.mp he with he | he
  · obtain ⟨t, ht, hentry⟩ := h.entries e he
    exact ⟨t, get_append ht _, hentry⟩
  · cases List.mem_singleton.mp he
    have hlength : s.registry.nextId = s.tasks.length := by
      rw [h.sound.counting.length, spawnAt_of_none h.free]
      rfl
    refine ⟨.start job attempts, ?_, fun _ => hawaits, fun hexit => absurd rfl hexit⟩
    change (s.tasks ++ [.start job attempts])[s.registry.nextId]? = _
    rw [hlength]
    exact List.getElem?_concat_length

theorem steps_register (h : s.Rests) {c : Candidate} {job : Job} {script : Script}
    (hprepare : s.registry.prepare c = .ok (job, script)) :
    ∃ s', Steps s s' ∧ s'.Rests ∧ s'.registry = s.registry.register job script ∧
      s'.replies = s.replies ++ [.spawned s.registry.nextId] := by
  obtain ⟨attempts, hawaits⟩ := exists_awaits job script s.registry.nextId
  have hsteps := steps_registerAtOnce h.free hprepare attempts
  exact ⟨_, hsteps, h.registerAtOnce hsteps hawaits, rfl, rfl⟩

theorem steps_spawn (h : s.Rests) {c : Candidate} {r : Registry} {id : Nat}
    (hspawn : s.registry.spawn c = .ok (r, id)) :
    ∃ s', Steps s s' ∧ s'.Rests ∧ s'.registry = r ∧ s'.replies = s.replies ++ [.spawned id] := by
  cases hprepare : s.registry.prepare c with
  | error failure => simp [spawn, hprepare] at hspawn
  | ok prepared =>
    obtain ⟨rfl, rfl⟩ : s.registry.register prepared.1 prepared.2 = r ∧ s.registry.nextId = id := by
      simpa [spawn, hprepare] using hspawn
    exact steps_register h hprepare

theorem steps_complete (h : s.Rests) {e : Entry} (he : e ∈ s.registry.entries) :
    ∃ s', Steps s s' ∧ s'.Rests ∧ s'.registry = complete none s.registry e := by
  unfold complete
  split
  · exact ⟨s, .refl, h, rfl⟩
  · next hexit =>
    split
    · next run hrun =>
      obtain ⟨t, ht, hawaits, -⟩ := h.entries e he
      obtain ⟨hstage, hstart, hfollows⟩ := hawaits hexit
      obtain ⟨r, hmoves, hphase, hjob, hblocks⟩ := hfollows run hrun
      rw [← hstart] at hmoves
      have hsteps := steps_finish h.free ht hstage hmoves hphase hjob (by rw [hblocks, hstart, List.nil_append])
      exact ⟨_, hsteps, h.finish hsteps, rfl⟩
    · exact ⟨s, .refl, h, rfl⟩

/-- Each of the entries is still there when its turn comes. -/
theorem steps_completeAll (h : s.Rests) {rest : List Entry} (hrest : ∀ e ∈ rest, e ∈ s.registry.entries)
    (hnodup : (rest.map (·.id)).Nodup) :
    ∃ s', Steps s s' ∧ s'.Rests ∧ s'.registry = rest.foldl (complete none) s.registry := by
  induction rest generalizing s with
  | nil => exact ⟨s, .refl, h, rfl⟩
  | cons e rest ih =>
    rw [List.map_cons, List.nodup_cons] at hnodup
    obtain ⟨s', hsteps, hrests, hregistry⟩ := steps_complete h (hrest e List.mem_cons_self)
    have hthere : ∀ other ∈ rest, other ∈ s'.registry.entries := by
      intro other hother
      rw [hregistry]
      refine mem_complete (hrest other (List.mem_cons_of_mem _ hother)) fun heq => hnodup.1 ?_
      exact heq ▸ List.mem_map_of_mem hother
    obtain ⟨last, hlast, hend, hall⟩ := ih hrests hthere hnodup.2
    exact ⟨last, hsteps.trans hlast, hend, by rw [hall, hregistry]; rfl⟩

theorem steps_waitIdle (h : s.Rests) : ∃ s', Steps s s' ∧ s'.Rests ∧ s'.registry = s.registry.waitIdle :=
  steps_completeAll h (fun _ he => he) h.sound.placing.ids_nodup

/-- A removal of an id that is not there is one step, after which only the answer is new. -/
theorem step_miss (h : s.Rests) {id : Nat} {e : CollectorError} (hremove : s.registry.remove id = .error e) :
    Step s (s.reply (.failed e)) := by
  unfold Registry.remove at hremove
  split at hremove
  · next hnone =>
    cases hremove
    exact .miss id h.free hnone
  · cases hremove

/-- A removal takes the entry and asks the task to stop. -/
def interrupt (s : System) (id : Nat) (t : Task) : System :=
  (s.take id).stop id t

theorem steps_interrupt (hfree : s.spawning = none) {id : Nat} {e : Entry} (he : s.registry.get? id = some e)
    {t : Task} (ht : s.tasks[id]? = some t) : Steps s (s.interrupt id t) :=
  .tail (.single (.take id e hfree he)) (.stop id t (List.mem_append_right _ (List.mem_singleton_self id)) ht)

/-- The task of a registered job returns as soon as it is asked to stop. -/
theorem steps_stopped (h : s.Rests) {e : Entry} (he : s.registry.get? e.id = some e) :
    ∃ s' t, Steps s s' ∧ s'.registry = complete (some .requested) (s.registry.without e.id) e ∧
      s'.tasks = s.tasks.set e.id t ∧ t.stage = .gone ∧ s'.spawning = none ∧ s'.taken = [] ∧ s'.joining = [e.id] ∧
      s'.replies = s.replies := by
  obtain ⟨t, ht, hawaits, hgone⟩ := h.entries e (List.mem_of_find?_eq_some he)
  have hinterrupt := steps_interrupt h.free he ht
  have htaken : (s.taken ++ [e.id]).erase e.id = [] := by rw [h.taken, List.nil_append, List.erase_cons_head]
  have hjoining : s.joining ++ [e.id] = [e.id] := by rw [h.joining, List.nil_append]
  cases hexit : e.exit with
  | some exit =>
    -- The task has returned before, and the request finds nobody.
    have hregistry : complete (some .requested) (s.registry.without e.id) e = s.registry.without e.id := by
      rw [complete, hexit]
    exact ⟨_, _, hinterrupt, hregistry.symm, rfl, hgone (by rw [hexit]; nofun), h.free, htaken, hjoining, rfl⟩
  | none =>
    obtain ⟨hstage, hstart, -⟩ := hawaits hexit
    have hregistry := complete_requested (s.registry.without e.id) hexit
    let asked : Job.Running := { job := e.job, signal := some .requested }
    have hthere : (s.interrupt e.id t).tasks[e.id]? = some { t with run := asked } := by
      rw [interrupt, stop, hstart]
      exact List.getElem?_set_self (List.getElem?_eq_some_iff.mp ht).1
    have hmoves : Job.Moves t.script asked (asked.leave .shutdown) := .single (.stop rfl rfl)
    have hfree : (s.interrupt e.id t).spawning = none := h.free
    have hfinish : Steps (s.interrupt e.id t) ((s.interrupt e.id t).finish e.id { t with run := asked }
        (asked.leave .shutdown) (e.job.stop .shutdown e.script)) :=
      steps_finish hfree hthere hstage hmoves rfl rfl rfl
    exact ⟨_, _, hinterrupt.trans hfinish, hregistry.symm, List.set_set _, rfl, h.free, htaken, hjoining, rfl⟩

theorem steps_remove (h : s.Rests) {r : Registry} {id : Nat} (hremove : s.registry.remove id = .ok r) :
    ∃ s', Steps s s' ∧ s'.Rests ∧ s'.registry = r ∧ s'.replies = s.replies ++ [.removed id] := by
  unfold Registry.remove at hremove
  split at hremove
  · cases hremove
  · next e he =>
    cases hremove
    obtain rfl : e.id = id := by simpa using List.find?_some he
    obtain ⟨s', t, hstopped, hregistry, htasks, hgone, hfree, htaken, hjoining, hreplies⟩ := steps_stopped h he
    have hlt := (List.getElem?_eq_some_iff.mp (h.entries e (List.mem_of_find?_eq_some he)).choose_spec.1).1
    have hthere : s'.tasks[e.id]? = some t := by
      rw [htasks]
      exact List.getElem?_set_self hlt
    have hsteps : Steps s (s'.join e.id) :=
      hstopped.tail (.join e.id t (by rw [hjoining]; exact List.mem_singleton_self _) hthere hgone)
    refine ⟨_, hsteps, ⟨sound_steps h.sound hsteps, hfree, htaken, ?_, fun other hother => ?_⟩, hregistry, ?_⟩
    · change s'.joining.erase e.id = []
      rw [hjoining, List.erase_cons_head]
    · have hkept : other ∈ (s.registry.without e.id).entries := by
        rw [← entries_complete_without, ← hregistry]
        exact hother
      obtain ⟨hold, hne⟩ := List.mem_filter.mp hkept
      obtain ⟨u, hu, hentry⟩ := h.entries other hold
      refine ⟨u, ?_, hentry⟩
      change s'.tasks[other.id]? = some u
      rw [htasks, List.getElem?_set_ne fun heq => by simp [heq] at hne]
      exact hu
    · change s'.replies ++ [.removed e.id] = _
      rw [hreplies]

end System

/-! ## Any number of calls -/

/-- The registries that calls lead to, one call after the other. -/
inductive Called (plugin : String) (monitored : Bool) : Registry → Prop
  | start : Called plugin monitored { plugin := plugin, monitored := monitored }
  | spawn {r later : Registry} {c : Candidate} {id : Nat} (h : Called plugin monitored r)
      (hspawn : r.spawn c = .ok (later, id)) : Called plugin monitored later
  | remove {r later : Registry} {id : Nat} (h : Called plugin monitored r) (hremove : r.remove id = .ok later) :
      Called plugin monitored later
  | waitIdle {r : Registry} (h : Called plugin monitored r) : Called plugin monitored r.waitIdle

/-- Calls one after the other are a schedule. -/
theorem steps_of_called {plugin : String} {monitored : Bool} {r : Registry} (h : Called plugin monitored r) :
    ∃ s, System.Steps (.start plugin monitored) s ∧ s.Rests ∧ s.registry = r := by
  induction h with
  | start => exact ⟨_, .refl, System.rests_start plugin monitored, rfl⟩
  | spawn _ hspawn ih =>
    obtain ⟨s, hsteps, hrests, rfl⟩ := ih
    obtain ⟨s', hmore, hrests', hregistry, -⟩ := System.steps_spawn hrests hspawn
    exact ⟨s', hsteps.trans hmore, hrests', hregistry⟩
  | remove _ hremove ih =>
    obtain ⟨s, hsteps, hrests, rfl⟩ := ih
    obtain ⟨s', hmore, hrests', hregistry, -⟩ := System.steps_remove hrests hremove
    exact ⟨s', hsteps.trans hmore, hrests', hregistry⟩
  | waitIdle _ ih =>
    obtain ⟨s, hsteps, hrests, rfl⟩ := ih
    obtain ⟨s', hmore, hrests', hregistry⟩ := System.steps_waitIdle hrests
    exact ⟨s', hsteps.trans hmore, hrests', hregistry⟩

end ChartStream.Registry
