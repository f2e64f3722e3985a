import ChartStream.Proofs.RegistrySchedule

/-!
# What becomes of the jobs

At every moment the jobs that count as running, the registered jobs and the removals add up, and a removal that has
returned has its job behind it. Main definition: `Registry.System.Accounted`. Main result:
`Registry.System.jobs_accounted_for`.
-/

namespace ChartStream

set_option autoImplicit false

namespace Registry

namespace System

variable {s s' : System}

/-! ## After a removal -/

theorem removedIds_of_step (hstep : Step s s') {id : Nat} (hid : id ∈ s.removedIds) : id ∈ s'.removedIds := by
  have hreply (r : Reply) : id ∈ (s.reply r).removedIds := by
    rw [removedIds_reply]
    exact List.mem_append_left _ hid
  cases hstep with
  | refuse => exact hreply _
  | enroll => exact hreply _
  | miss => exact hreply _
  | join => exact hreply _
  | list => exact hreply _
  | idle => exact hreply _
  | _ => exact hid

/-- The task of a removed job is left alone. -/
theorem tasks_of_removed (h : s.Sound) {id : Nat} (hid : id ∈ s.removedIds) (hstep : Step s s') :
    s'.tasks[id]? = s.tasks[id]? := by
  obtain ⟨t, ht, hgone, hasked⟩ := h.driving.removed id hid
  have hother {other : Nat} {u changed : Task} (hu : s.tasks[other]? = some u) (hne : u ≠ t) :
      (s.tasks.set other changed)[id]? = s.tasks[id]? := by
    refine List.getElem?_set_ne fun heq => hne ?_
    subst heq
    exact Option.some.inj (hu.symm.trans ht)
  cases hstep with
  | begin => exact (get_append ht _).trans ht.symm
  | work other u run blocks hu hmove =>
    refine hother hu fun heq => ?_
    subst heq
    obtain ⟨exit, hexit⟩ := (h.driving.tasks id u ht).ended_of_gone hgone
    exact Job.not_move_of_ended hexit hasked hmove
  | record other u exit left hfree hu hstage =>
    refine hother hu fun heq => ?_
    rw [heq, hgone] at hstage
    cases hstage
  | countOut other u hu hstage =>
    refine hother hu fun heq => ?_
    rw [heq, hgone] at hstage
    cases hstage
  | stop other u hid' =>
    -- No id is in two places at once.
    refine List.getElem?_set_ne fun heq => ?_
    subst heq
    have hplaced := h.placing.placed other
    have honce := h.placing.count_le_one other
    have htaken : 0 < s.taken.count other := List.count_pos_iff.mpr hid'
    have hremoved : 0 < s.removedIds.count other := List.count_pos_iff.mpr hid
    omega
  | _ => rfl

theorem removed_steps (h : s.Sound) {id : Nat} (hid : id ∈ s.removedIds) (hsteps : Steps s s') :
    id ∈ s'.removedIds ∧ s'.tasks[id]? = s.tasks[id]? := by
  induction hsteps with
  | refl => exact ⟨hid, rfl⟩
  | tail hbefore hstep ih =>
    exact ⟨removedIds_of_step hstep ih.1, (tasks_of_removed (sound_steps h hbefore) ih.1 hstep).trans ih.2⟩

/-! ## The way to a removal -/

/-- Later the lock is free, and nothing else was done than what a spawn does. -/
structure Freed (s later : System) : Prop where
  steps : Steps s later
  free : later.spawning = none
  taken : later.taken = s.taken
  joining : later.joining = s.joining
  tasks : ∀ (id : Nat) (t : Task), s.tasks[id]? = some t → later.tasks[id]? = some t
  ids : ∀ id ∈ s.ids, id ∈ later.ids

theorem Freed.after {later : System} (h : Freed s' later) (hstep : Step s s') (htaken : s'.taken = s.taken)
    (hjoining : s'.joining = s.joining)
    (htasks : ∀ (id : Nat) (t : Task), s.tasks[id]? = some t → s'.tasks[id]? = some t) (hids : s'.ids = s.ids) :
    Freed s later :=
  ⟨.head hstep h.steps, h.free, h.taken.trans htaken, h.joining.trans hjoining,
    fun id t ht => h.tasks id t (htasks id t ht), fun id hid => h.ids id (hids.symm ▸ hid)⟩

/-- A spawn that holds the lock gives it back. -/
theorem exists_freed (s : System) : ∃ later, Freed s later := by
  have hstarted {s : System} {p : Spawning} (hp : s.spawning = some p) (hstage : p.stage = .started) :
      Freed s (s.enroll p) :=
    ⟨.single (.enroll p hp hstage), rfl, rfl, rfl, fun _ _ ht => ht, fun id hid => by
      rw [ids_enroll]
      exact List.mem_append_left _ hid⟩
  have hcounted {s : System} {p : Spawning} (hp : s.spawning = some p) (hstage : p.stage = .counted) :
      ∃ later, Freed s later :=
    ⟨_, (hstarted rfl rfl).after (.begin p (fun _ => { collection := { ending := .timedOut } }) hp hstage) rfl rfl
      (fun _ _ ht => get_append ht _) rfl⟩
  cases hspawning : s.spawning with
  | none => exact ⟨s, .refl, hspawning, rfl, rfl, fun _ _ ht => ht, fun _ hid => hid⟩
  | some p =>
    cases hstage : p.stage with
    | started => exact ⟨_, hstarted hspawning hstage⟩
    | counted => exact hcounted hspawning hstage
    | locked =>
      obtain ⟨later, hlater⟩ := hcounted (s := { s with
        registry := s.registry.countIn
        spawning := some { p with stage := .counted } }) rfl rfl
      exact ⟨later, hlater.after (.countIn p hspawning hstage) rfl rfl (fun _ _ ht => ht) rfl⟩

/-- The lock is free, and a removal waits for the task of its id. -/
structure Awaited (s : System) (id : Nat) (t : Task) : Prop where
  free : s.spawning = none
  joining : id ∈ s.joining
  task : s.tasks[id]? = some t

namespace Awaited

variable {id : Nat} {t : Task}

/-- A change of the awaited task is a step after which it is awaited still. -/
theorem set (h : s.Awaited id t) {changed : Task} (hspawning : s'.spawning = s.spawning)
    (hjoining : s'.joining = s.joining) (htasks : s'.tasks = s.tasks.set id changed) : s'.Awaited id changed := by
  refine ⟨hspawning.trans h.free, hjoining ▸ h.joining, ?_⟩
  rw [htasks]
  exact List.getElem?_set_self (List.getElem?_eq_some_iff.mp h.task).1

/-- A job that ends whatever happens gets to its end by its own moves. -/
theorem exists_ended (h : s.Awaited id t) (hends : Job.Ends t.script t.run) :
    ∃ later u exit, Steps s later ∧ later.Awaited id u ∧ u.run.phase = .ended exit := by
  generalize hscript : t.script = script at hends
  generalize hrun : t.run = run at hends
  induction hends generalizing s t with
  | ended exit hphase => exact ⟨s, t, exit, .refl, h, hrun ▸ hphase⟩
  | go hmove _ ih =>
    obtain ⟨next, hnext⟩ := hmove
    obtain ⟨blocks, hblocks⟩ := Job.blocks_of_move hnext
    subst hscript hrun
    have hworked : (s.work id t next blocks).Awaited id { t with run := next } := h.set rfl rfl rfl
    obtain ⟨later, u, exit, hsteps, hlater, hphase⟩ := ih next hnext hworked rfl rfl
    exact ⟨later, u, exit, .head (.work id t next blocks h.task hnext hblocks) hsteps, hlater, hphase⟩

theorem removed_of_gone (h : s.Awaited id t) (hstage : t.stage = .gone) :
    ∃ later, Steps s later ∧ id ∈ later.removedIds := by
  refine ⟨s.join id, .single (.join id t h.joining h.task hstage), ?_⟩
  rw [removedIds_join]
  exact List.mem_append_right _ (List.mem_singleton_self id)

theorem removed_of_recorded (h : s.Awaited id t) (hstage : t.stage = .recorded) :
    ∃ later, Steps s later ∧ id ∈ later.removedIds := by
  have hgone : (s.countOut id t).Awaited id { t with stage := .gone } := h.set rfl rfl rfl
  obtain ⟨later, hsteps, hid⟩ := hgone.removed_of_gone rfl
  exact ⟨later, .head (.countOut id t h.task hstage) hsteps, hid⟩

/-- Once its job has ended, the task returns and the removal with it. -/
theorem removed_of_ended (h : s.Awaited id t) {exit : Job.Exit} (hphase : t.run.phase = .ended exit) :
    ∃ later, Steps s later ∧ id ∈ later.removedIds := by
  cases hstage : t.stage with
  | running =>
    have hrecorded : (s.record id t exit []).Awaited id { t with stage := .recorded } := h.set rfl rfl rfl
    obtain ⟨later, hsteps, hid⟩ := hrecorded.removed_of_recorded rfl
    exact ⟨later, .head (.record id t exit [] h.free h.task hstage hphase) hsteps, hid⟩
  | recorded => exact h.removed_of_recorded hstage
  | gone => exact h.removed_of_gone hstage

end Awaited

/-- A removal that has found its job can always come to its end. -/
theorem removed_of_awaited (h : s.Sound) {id : Nat} {t : Task} (hawaited : s.Awaited id t) (htimed : t.Timed) :
    ∃ later, Steps s later ∧ id ∈ later.removedIds := by
  have hsound := h.driving.tasks id t hawaited.task
  obtain ⟨u, hu, hasked⟩ := h.driving.asked id hawaited.joining
  cases hawaited.task.symm.trans hu
  obtain ⟨ended, u, exit, hends, hthere, hphase⟩ := hawaited.exists_ended
    (Job.ends_of_signal (Job.stands_moves hsound.moves) hsound.every hasked htimed)
  obtain ⟨later, hsteps, hid⟩ := hthere.removed_of_ended hphase
  exact ⟨later, hends.trans hsteps, hid⟩

theorem removed_of_taken (h : s.Sound) {id : Nat} {t : Task} (hfree : s.spawning = none) (hid : id ∈ s.taken)
    (ht : s.tasks[id]? = some t) (htimed : t.Timed) : ∃ later, Steps s later ∧ id ∈ later.removedIds := by
  have hstop : Step s (s.stop id t) := .stop id t hid ht
  have hawaited : (s.stop id t).Awaited id
      { t with run := { t.run with signal := some (t.run.signal.getD .requested) } } :=
    ⟨hfree, List.mem_append_right _ (List.mem_singleton_self id),
      List.getElem?_set_self (List.getElem?_eq_some_iff.mp ht).1⟩
  obtain ⟨later, hsteps, hremoved⟩ := removed_of_awaited (sound_step h hstop) hawaited htimed
  exact ⟨later, .head hstop hsteps, hremoved⟩

/-- Whatever has happened, the removal of a job that a spawn returned can still come to its end. -/
theorem removed_of_spawned (h : s.Sound) {id : Nat} (hid : id ∈ s.spawnedIds) {t : Task} (ht : s.tasks[id]? = some t)
    (htimed : t.Timed) : ∃ later, Steps s later ∧ id ∈ later.removedIds := by
  -- A spawn may hold the lock, and the removal has to wait for it.
  obtain ⟨later, hlater⟩ := s.exists_freed
  have hsound := sound_steps h hlater.steps
  have ht := hlater.tasks id t ht
  suffices ∃ last, Steps later last ∧ id ∈ last.removedIds by
    obtain ⟨last, hsteps, hremoved⟩ := this
    exact ⟨last, hlater.steps.trans hsteps, hremoved⟩
  rcases h.placing.cases hid with hid | hid | hid | hid
  · obtain ⟨e, he⟩ := Option.isSome_iff_exists.mp (isSome_get?_iff.mpr (hlater.ids id hid))
    have htake : Step later (later.take id) := .take id e hlater.free he
    obtain ⟨last, hsteps, hremoved⟩ := removed_of_taken (sound_step hsound htake) hlater.free
      (List.mem_append_right _ (List.mem_singleton_self id)) ht htimed
    exact ⟨last, .head htake hsteps, hremoved⟩
  · exact removed_of_taken hsound hlater.free (hlater.taken ▸ hid) ht htimed
  · exact removed_of_awaited hsound ⟨hlater.free, hlater.joining ▸ hid, ht⟩ htimed
  · exact ⟨later, .refl, (removed_steps h hid hlater.steps).1⟩

/-! ## The account -/

/-- The jobs, their tasks and the removals add up. -/
structure Accounted (s : System) : Prop where
  /-- The counter is ahead of the tasks only while a spawn is about to start one. -/
  counter : s.registry.active = s.activeTasks + (s.spawnAt .counted).toNat
  active : s.spawning = none → s.registry.active = s.activeTasks
  /-- A task that is about to count itself out finds itself counted. -/
  countOut : ∀ (id : Nat) (t : Task), s.tasks[id]? = some t → t.stage = .recorded →
    s.registry.countOut.active + 1 = s.registry.active
  /-- A registered job without an exit has a task that counts, and an exit is that of the job. -/
  exits : ∀ e ∈ s.registry.entries, ∃ t, s.tasks[e.id]? = some t ∧ (e.exit = none → t.isActive = true) ∧
    ∀ exit, e.exit = some exit → t.run.phase = .ended exit
  idle : s.registry.active = 0 → ∀ e ∈ s.registry.entries, e.exit ≠ none
  spawned : s.spawnedIds.Nodup
  /-- Each job that a spawn returned is registered, or a removal has found it. -/
  count : s.registry.entries.length + s.removals.length = s.spawnedIds.length
  returned : s.taken = [] → s.joining = [] →
    s.registry.entries.length + s.removedIds.length = s.spawnedIds.length
  /-- A removal finds its job if no other one has found it before. -/
  found : ∀ id, (s.registry.get? id).isSome ↔ id ∈ s.spawnedIds ∧ id ∉ s.removals
  once : s.removals.Nodup
  /-- A removal of each job can succeed, if its task does not break down. -/
  succeeds : ∀ id ∈ s.spawnedIds, ∃ t, s.tasks[id]? = some t ∧
    (t.Timed → ∃ later, Steps s later ∧ id ∈ later.removedIds)
  /-- The writer has the blocks of each job and no others. -/
  blocks : s.registry.blocks = s.handed.map (·.2)
  /-- The task of a removed job has returned, and the writer gets nothing from it any more. -/
  removed : ∀ id ∈ s.removedIds, ∃ t exit, s.tasks[id]? = some t ∧ t.stage = .gone ∧ t.run.phase = .ended exit ∧
    ∀ later, Steps s later → later.tasks[id]? = some t ∧ ownedBy id later.handed = ownedBy id s.handed

/-- While an entry has no exit, its task counts. -/
theorem Counting.isActive_of_entry (h : s.Counting) {e : Entry} (he : e ∈ s.registry.entries)
    (hexit : e.exit = none) : ∃ t, s.tasks[e.id]? = some t ∧ t.isActive = true := by
  obtain ⟨t, ht, hshown⟩ := h.exits e he
  rw [hexit] at hshown
  have hrunning : t.stage = .running := hshown
  exact ⟨t, ht, by rw [Task.isActive, hrunning]; rfl⟩

theorem Sound.accounted (h : s.Sound) : s.Accounted where
  counter := h.counting.active
  active hfree := by
    have hcounter := h.counting.active
    rw [spawnAt_of_none hfree] at hcounter
    exact hcounter
  countOut id t ht hstage := by
    have hpos := h.counting.active_pos ht (by rw [Task.isActive, hstage]; rfl)
    exact Nat.sub_add_cancel hpos
  exits e he := by
    obtain ⟨t, ht, hshown⟩ := h.counting.exits e he
    refine ⟨t, ht, fun hexit => ?_, fun exit hexit => ?_⟩
    · obtain ⟨u, hu, hactive⟩ := h.counting.isActive_of_entry he hexit
      cases ht.symm.trans hu
      exact hactive
    · rw [hexit] at hshown
      exact hshown.2
  idle hidle e he hexit := by
    obtain ⟨t, ht, hactive⟩ := h.counting.isActive_of_entry he hexit
    have hpos := h.counting.active_pos ht hactive
    omega
  spawned := h.placing.nodup
  count := by
    rw [← h.placing.length, ids, List.length_map]
  returned htaken hjoining := by
    rw [← h.placing.length, removals, htaken, hjoining, ids, List.length_map]
    rfl
  found id := isSome_get?_iff.trans h.placing.mem_ids_iff
  once := (List.nodup_append.mp (h.placing.perm.nodup_iff.mpr h.placing.nodup)).2.1
  succeeds id hid := by
    rw [h.placing.spawned, List.mem_range] at hid
    have hlength := h.counting.length
    have hlt : id < s.tasks.length := by omega
    refine ⟨s.tasks[id], List.getElem?_eq_getElem hlt, fun htimed => ?_⟩
    refine removed_of_spawned h ?_ (List.getElem?_eq_getElem hlt) htimed
    rw [h.placing.spawned, List.mem_range]
    exact hid
  blocks := h.driving.blocks
  removed id hid := by
    obtain ⟨t, ht, hgone, -⟩ := h.driving.removed id hid
    obtain ⟨exit, hexit⟩ := (h.driving.tasks id t ht).ended_of_gone hgone
    refine ⟨t, exit, ht, hgone, hexit, fun later hlater => ?_⟩
    have hsame := (removed_steps h hid hlater).2
    refine ⟨hsame.trans ht, ?_⟩
    rw [(sound_steps h hlater).driving.handed, h.driving.handed, blocksOf, blocksOf, hsame]

/-- Whatever is called and however the tasks get on, the jobs add up at every moment. -/
theorem jobs_accounted_for (plugin : String) (monitored : Bool) {s : System} (h : Steps (start plugin monitored) s) :
    s.Accounted :=
  (sound_steps (sound_start plugin monitored) h).accounted

/-- A collector of one chart. -/
def meter : Candidate where
  module := "net"
  job := ""
  layout := Job.traffic
  script := [{ answer := .ok (some ⟨[("in", .integer 3)]⟩) }]

/-- Of two jobs the first one is removed and the second one is about to be: it is not registered any more, but counts
as running. -/
theorem jobs_accounted_for_removals :
    ∃ s, Steps (start "plugind" true) s ∧ s.Accounted ∧ s.spawnedIds = [0, 1] ∧ s.removals = [1, 0] ∧
      s.removedIds = [0] ∧ s.registry.active = 1 ∧ s.registry.entries.length = 0 := by
  obtain ⟨job, script, hprepare⟩ :
      ∃ job script, (start "plugind" true).registry.prepare meter = .ok (job, script) := by
    have hok : ((start "plugind" true).registry.prepare meter).toOption.isSome = true := by decide +kernel
    cases hprepared : (start "plugind" true).registry.prepare meter with
    | error e => rw [hprepared] at hok; cases hok
    | ok prepared => exact ⟨_, _, rfl⟩
  obtain ⟨one, hone, hrests, hregistry, hreplies⟩ := steps_register (rests_start "plugind" true) hprepare
  have hagain : one.registry.prepare meter = .ok (job, script) := by rw [hregistry]; exact hprepare
  obtain ⟨two, htwo, hrests, htwice, hreplies'⟩ := steps_register hrests hagain
  have hremove : two.registry.remove 0 =
      .ok ((two.registry.without 0).finish 0 (job.stop .shutdown script)) := by
    rw [htwice, hregistry]
    exact congrArg Except.ok (complete_requested _ rfl)
  obtain ⟨three, hthree, hrests, hthird, hlast⟩ := steps_remove hrests hremove
  rw [htwice, hregistry] at hthird
  have hids : three.ids = [1] := by rw [ids, hthird]; rfl
  have hactive : three.registry.active = 1 := by rw [hthird]; rfl
  obtain ⟨e, he⟩ := Option.isSome_iff_exists.mp (isSome_get?_iff.mpr (hids ▸ List.mem_singleton_self 1))
  have hsteps : Steps (start "plugind" true) (three.take 1) :=
    ((hone.trans htwo).trans hthree).tail (.take 1 e hrests.free he)
  have haccounted := jobs_accounted_for "plugind" true hsteps
  have hall : (three.take 1).replies = [.spawned 0, .spawned 1, .removed 0] := by
    change three.replies = _
    rw [hlast, hreplies', hreplies, hregistry]
    rfl
  have hspawned : (three.take 1).spawnedIds = [0, 1] := congrArg (List.filterMap Reply.spawned?) hall
  have hremoved : (three.take 1).removedIds = [0] := congrArg (List.filterMap Reply.removed?) hall
  have hremovals : (three.take 1).removals = [1, 0] := by
    rw [removals, hremoved]
    change (three.taken ++ [1]) ++ three.joining ++ [0] = [1, 0]
    rw [hrests.taken, hrests.joining]
    rfl
  have hcount := haccounted.count
  rw [hspawned, hremovals] at hcount
  exact ⟨_, hsteps, haccounted, hspawned, hremovals, hremoved, hactive, Nat.succ.inj (Nat.succ.inj hcount)⟩

end System

end Registry

end ChartStream
