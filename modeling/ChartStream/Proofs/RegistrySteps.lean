import ChartStream.Registry
import ChartStream.Proofs.Fleet
import ChartStream.Proofs.RunSteps

/-!
# The registry among its callers

The registry, the tasks that run its jobs and the calls in progress as one system that takes one step at a time, in
any order: a spawn counts its task, starts it and enters it while it holds the lock, a task records the exit of its
job before it counts itself out, and a removal takes the entry before it stops the task and waits for it. Main
definitions: `System`, `System.Step`, `System.Sound`.
-/

namespace ChartStream

set_option autoImplicit false

namespace Job

variable {script : Nat → Attempt} {r later : Running}

theorem signal_of_move (h : Move script r later) (hsignal : r.signal ≠ none) : later.signal ≠ none := by
  cases h with
  | signal s hnone => exact absurd hnone hsignal
  | _ => exact hsignal

/-- A job that has ended after a signal does nothing more. -/
theorem not_move_of_ended {exit : Exit} (hphase : r.phase = .ended exit) (hsignal : r.signal ≠ none) :
    ¬ Move script r later := by
  intro h
  cases h with
  | signal s hnone => exact hsignal hnone
  | _ => simp_all

theorem blocks_of_move (h : Move script r later) : ∃ blocks, later.blocks = r.blocks ++ blocks := by
  cases h with
  | handOver => exact ⟨_, rfl⟩
  | _ => exact ⟨[], (List.append_nil _).symm⟩

end Job

namespace Registry

/-! ## The system -/

/-- What is left for a task to do. -/
inductive Task.Stage where
  /-- The job runs, or the lock is waited for to record its exit. -/
  | running
  /-- The exit is recorded, if the job was still registered. The task counts as running. -/
  | recorded
  /-- The task has counted itself out and returned. -/
  | gone
  deriving DecidableEq, Repr

/-- A task, which drives one job to its end. -/
structure Task where
  /-- The job as it was started. -/
  job : Job
  /-- What the calls of the job come to. -/
  script : Nat → Job.Attempt
  run : Job.Running
  stage : Task.Stage := .running

/-- The task of a job that starts. -/
def Task.start (job : Job) (script : Nat → Job.Attempt) : Task :=
  { job := job, script := script, run := { job := job } }

/-- The task counts as running, or should. -/
def Task.isActive (t : Task) : Bool :=
  t.stage ≠ .gone

/-- What the entry of the task says about its job is so. -/
def Task.Shows (t : Task) : Option Job.Exit → Prop
  | none => t.stage = .running
  | some exit => t.stage ≠ .running ∧ t.run.phase = .ended exit

/-- What a spawn with the lock has done so far. -/
inductive Spawning.Stage where
  | locked
  /-- The task counts as running. -/
  | counted
  /-- The task runs. -/
  | started
  deriving DecidableEq, Repr

/-- A spawn that holds the lock, with the job that it checked and created. -/
structure Spawning where
  job : Job
  script : Script
  stage : Spawning.Stage := .locked

/-- What a call returned. -/
inductive Reply where
  | spawned (id : Nat)
  | removed (id : Nat)
  | failed (error : CollectorError)
  | listed (entries : List Entry)
  /-- No job was running. -/
  | idle

/-- The id that a spawn returned. -/
def Reply.spawned? : Reply → Option Nat
  | .spawned id => some id
  | _ => none

/-- The id of a removal that succeeded. -/
def Reply.removed? : Reply → Option Nat
  | .removed id => some id
  | _ => none

/-- A registry with its tasks and the calls in progress. The task of a job is in the place of the job's id. -/
structure System where
  registry : Registry
  tasks : List Task := []
  /-- The spawn that holds the lock. -/
  spawning : Option Spawning := none
  /-- The ids of removals that have taken the entry and are still to stop the task. -/
  taken : List Nat := []
  /-- The ids of removals that wait for the task. -/
  joining : List Nat := []
  replies : List Reply := []
  /-- The blocks that the writer took, each with the id of its job. -/
  handed : List (Nat × List Line) := []

namespace System

/-- Before the first call. -/
def start (plugin : String) (monitored : Bool) : System :=
  { registry := { plugin := plugin, monitored := monitored } }

/-- A call returns. -/
def reply (s : System) (r : Reply) : System :=
  { s with replies := s.replies ++ [r] }

/-- A spawn enters its job, gives the lock back and returns. -/
def enroll (s : System) (p : Spawning) : System :=
  { s.reply (.spawned s.registry.nextId) with
    registry := s.registry.enroll p.job p.script
    spawning := none }

/-- A job gets on and hands over blocks. -/
def work (s : System) (id : Nat) (t : Task) (run : Job.Running) (blocks : List (List Line)) : System :=
  { s with
    registry := s.registry.handOver blocks
    tasks := s.tasks.set id { t with run := run }
    handed := s.handed ++ blocks.map (id, ·) }

/-- A task records how its job ended. -/
def record (s : System) (id : Nat) (t : Task) (exit : Job.Exit) (left : Script) : System :=
  { s with
    registry := s.registry.record id ⟨t.run.job, t.run.blocks, exit, left⟩
    tasks := s.tasks.set id { t with stage := .recorded } }

/-- A task counts itself out. -/
def countOut (s : System) (id : Nat) (t : Task) : System :=
  { s with registry := s.registry.countOut, tasks := s.tasks.set id { t with stage := .gone } }

/-- A removal takes the entry. -/
def take (s : System) (id : Nat) : System :=
  { s with registry := s.registry.without id, taken := s.taken ++ [id] }

/-- The task of a removed entry is asked to stop. -/
def stop (s : System) (id : Nat) (t : Task) : System :=
  { s with
    tasks := s.tasks.set id { t with run := { t.run with signal := some (t.run.signal.getD .requested) } }
    taken := s.taken.erase id
    joining := s.joining ++ [id] }

/-- A removal returns. -/
def join (s : System) (id : Nat) : System :=
  { s.reply (.removed id) with joining := s.joining.erase id }

/-- One step. What needs the lock does not happen while a spawn holds it. Of the jobs it is only known that they
move as jobs do; they may also be stopped by others. -/
inductive Step (s : System) : System → Prop
  /-- The job is not fit to be registered. -/
  | refuse (c : Candidate) (e : CollectorError) (h : s.registry.prepare c = .error e) : Step s (s.reply (.failed e))
  | lock (c : Candidate) (job : Job) (script : Script) (hfree : s.spawning = none)
      (h : s.registry.prepare c = .ok (job, script)) : Step s { s with spawning := some { job, script } }
  | countIn (p : Spawning) (hp : s.spawning = some p) (hstage : p.stage = .locked) :
      Step s { s with registry := s.registry.countIn, spawning := some { p with stage := .counted } }
  | begin (p : Spawning) (script : Nat → Job.Attempt) (hp : s.spawning = some p) (hstage : p.stage = .counted) :
      Step s { s with tasks := s.tasks ++ [.start p.job script], spawning := some { p with stage := .started } }
  | enroll (p : Spawning) (hp : s.spawning = some p) (hstage : p.stage = .started) : Step s (s.enroll p)
  | work (id : Nat) (t : Task) (run : Job.Running) (blocks : List (List Line)) (ht : s.tasks[id]? = some t)
      (hmove : Job.Move t.script t.run run) (hblocks : run.blocks = t.run.blocks ++ blocks) :
      Step s (s.work id t run blocks)
  | record (id : Nat) (t : Task) (exit : Job.Exit) (left : Script) (hfree : s.spawning = none)
      (ht : s.tasks[id]? = some t) (hstage : t.stage = .running) (hexit : t.run.phase = .ended exit) :
      Step s (s.record id t exit left)
  | countOut (id : Nat) (t : Task) (ht : s.tasks[id]? = some t) (hstage : t.stage = .recorded) :
      Step s (s.countOut id t)
  | take (id : Nat) (e : Entry) (hfree : s.spawning = none) (he : s.registry.get? id = some e) : Step s (s.take id)
  | miss (id : Nat) (hfree : s.spawning = none) (hnone : s.registry.get? id = none) :
      Step s (s.reply (.failed (unknownJob (toString id))))
  | stop (id : Nat) (t : Task) (hid : id ∈ s.taken) (ht : s.tasks[id]? = some t) : Step s (s.stop id t)
  | join (id : Nat) (t : Task) (hid : id ∈ s.joining) (ht : s.tasks[id]? = some t) (hgone : t.stage = .gone) :
      Step s (s.join id)
  | list (hfree : s.spawning = none) : Step s (s.reply (.listed s.registry.list))
  /-- A call that waits until no job is running returns. -/
  | idle (hidle : s.registry.active = 0) : Step s (s.reply .idle)

/-- Any number of steps. -/
def Steps : System → System → Prop :=
  Relation.ReflTransGen Step

/-! ## What is counted -/

/-- The ids of the registered jobs. -/
def ids (s : System) : List Nat :=
  s.registry.entries.map (·.id)

/-- The ids that spawns have returned. -/
def spawnedIds (s : System) : List Nat :=
  s.replies.filterMap Reply.spawned?

/-- The ids of removals that have succeeded. -/
def removedIds (s : System) : List Nat :=
  s.replies.filterMap Reply.removed?

/-- The ids of removals that found their job, whether they have returned or not. -/
def removals (s : System) : List Nat :=
  s.taken ++ s.joining ++ s.removedIds

/-- The spawn has gone so far. -/
def spawnAt (s : System) (stage : Spawning.Stage) : Bool :=
  s.spawning.any (·.stage = stage)

/-- The tasks that count as running, or should. -/
def activeTasks (s : System) : Nat :=
  s.tasks.countP Task.isActive

end System

/-! ## Tasks -/

theorem countP_set {tasks : List Task} {id : Nat} {t : Task} (ht : tasks[id]? = some t) (changed : Task) :
    (tasks.set id changed).countP Task.isActive + t.isActive.toNat =
      tasks.countP Task.isActive + changed.isActive.toNat := by
  obtain ⟨hlt, rfl⟩ := List.getElem?_eq_some_iff.mp ht
  have hpos : tasks[id].isActive = true → 0 < tasks.countP Task.isActive := fun h =>
    List.countP_pos_iff.mpr ⟨_, List.getElem_mem hlt, h⟩
  rw [List.countP_set hlt]
  cases hold : tasks[id].isActive <;> cases hnew : changed.isActive <;> simp_all

/-- A task is the one that was changed, or another one. -/
theorem set_cases {tasks : List Task} {id other : Nat} {changed u : Task}
    (h : (tasks.set id changed)[other]? = some u) : other = id ∧ u = changed ∨ tasks[other]? = some u := by
  rw [List.getElem?_set] at h
  split at h
  · next heq =>
    split at h
    · exact .inl ⟨heq.symm, (Option.some.inj h).symm⟩
    · cases h
  · exact .inr h

/-- What the change of a task keeps, all tasks keep. -/
theorem exists_set {tasks : List Task} {id other : Nat} {t changed u : Task} {p : Task → Prop}
    (ht : tasks[id]? = some t) (hkeep : p t → p changed) (hu : tasks[other]? = some u) (h : p u) :
    ∃ v, (tasks.set id changed)[other]? = some v ∧ p v := by
  by_cases heq : id = other
  · subst heq
    cases ht.symm.trans hu
    exact ⟨changed, List.getElem?_set_self (List.getElem?_eq_some_iff.mp ht).1, hkeep h⟩
  · exact ⟨u, by rwa [List.getElem?_set_ne heq], h⟩

theorem get_append {tasks : List Task} {id : Nat} {t : Task} (ht : tasks[id]? = some t) (more : List Task) :
    (tasks ++ more)[id]? = some t := by
  rw [List.getElem?_append_left (List.getElem?_eq_some_iff.mp ht).1]
  exact ht

/-- A task is there already, or it is the one that starts. -/
theorem append_cases {tasks : List Task} {id : Nat} {t started : Task} (ht : (tasks ++ [started])[id]? = some t) :
    tasks[id]? = some t ∨ id = tasks.length ∧ t = started := by
  rw [List.getElem?_append] at ht
  split at ht
  · exact .inl ht
  · next hbeyond =>
    obtain ⟨hlast, hstarted⟩ : id - tasks.length = 0 ∧ started = t := by
      simpa [List.getElem?_singleton] using ht
    exact .inr ⟨by omega, hstarted.symm⟩

/-- What an entry shows stays so while the job moves. -/
theorem Task.Shows.work {t : Task} {shown : Option Job.Exit} (h : t.Shows shown) {run : Job.Running}
    (hmove : Job.Move t.script t.run run) : ({ t with run := run } : Task).Shows shown := by
  cases shown with
  | none => exact h
  | some exit => exact ⟨h.1, (Job.ended_of_move h.2 hmove).1⟩

theorem Task.Shows.ask {t : Task} {shown : Option Job.Exit} (h : t.Shows shown) (signal : Option StopSignal) :
    ({ t with run := { t.run with signal := signal } } : Task).Shows shown := by
  cases shown with
  | none => exact h
  | some exit => exact h

theorem Task.Shows.countOut {t : Task} {shown : Option Job.Exit} (h : t.Shows shown) (hstage : t.stage = .recorded) :
    ({ t with stage := .gone } : Task).Shows shown := by
  cases shown with
  | none => cases hstage.symm.trans h
  | some exit => exact ⟨nofun, h.2⟩

namespace System

variable {s s' : System}

theorem spawnAt_of_none (h : s.spawning = none) (stage : Spawning.Stage) : s.spawnAt stage = false := by
  rw [spawnAt, h]
  rfl

theorem spawnAt_of_some {p : Spawning} (h : s.spawning = some p) (stage : Spawning.Stage) :
    s.spawnAt stage = decide (p.stage = stage) := by
  rw [spawnAt, h]
  rfl

/-! ## Jobs that count as running -/

/-- The counter is the number of tasks that have not counted themselves out, and the exit of a registered job is
recorded as soon as its task has done so. -/
structure Counting (s : System) : Prop where
  length : s.tasks.length = s.registry.nextId + (s.spawnAt .started).toNat
  /-- While a spawn holds the lock its task cannot get beyond its job. -/
  fresh : s.spawnAt .started = true → ∃ t, s.tasks[s.registry.nextId]? = some t ∧ t.stage = .running
  active : s.registry.active = s.activeTasks + (s.spawnAt .counted).toNat
  exits : ∀ e ∈ s.registry.entries, ∃ t, s.tasks[e.id]? = some t ∧ t.Shows e.exit

/-- One task changes, and the counter with it. -/
theorem Counting.set (h : s.Counting) {id : Nat} {t changed : Task} (ht : s.tasks[id]? = some t)
    (htasks : s'.tasks = s.tasks.set id changed) (hspawning : s'.spawning = s.spawning)
    (hnext : s'.registry.nextId = s.registry.nextId)
    (hactive : s'.registry.active + t.isActive.toNat = s.registry.active + changed.isActive.toNat)
    (hrunning : s.spawning = none ∨ (t.stage = .running → changed.stage = .running))
    (hexits : ∀ e ∈ s'.registry.entries, ∃ u, s'.tasks[e.id]? = some u ∧ u.Shows e.exit) :
    s'.Counting := by
  have hat (stage : Spawning.Stage) : s'.spawnAt stage = s.spawnAt stage := by rw [spawnAt, spawnAt, hspawning]
  refine ⟨?_, fun hstarted => ?_, ?_, hexits⟩
  · rw [htasks, List.length_set, hnext, hat]
    exact h.length
  · rw [hat] at hstarted
    obtain ⟨u, hu, hstage⟩ := h.fresh hstarted
    rw [htasks, hnext]
    rcases hrunning with hfree | hkept
    · rw [spawnAt_of_none hfree] at hstarted
      cases hstarted
    · exact exists_set ht hkept hu hstage
  · have hcount := countP_set ht changed
    have hold := h.active
    rw [activeTasks] at hold
    rw [activeTasks, htasks, hat]
    omega

/-- What the change of a task keeps of every entry, the entries keep showing. -/
theorem Counting.exits_set (h : s.Counting) {id : Nat} {t changed : Task} (ht : s.tasks[id]? = some t)
    (hkept : ∀ shown, t.Shows shown → changed.Shows shown) :
    ∀ e ∈ s.registry.entries, ∃ u, (s.tasks.set id changed)[e.id]? = some u ∧ u.Shows e.exit := by
  intro e he
  obtain ⟨u, hu, hshown⟩ := h.exits e he
  exact exists_set ht (hkept e.exit) hu hshown

/-- A task that counts is counted. -/
theorem Counting.active_pos (h : s.Counting) {id : Nat} {t : Task} (ht : s.tasks[id]? = some t)
    (hactive : t.isActive = true) : 0 < s.registry.active := by
  have hcounted : 0 < s.activeTasks := List.countP_pos_iff.mpr ⟨t, List.mem_of_getElem? ht, hactive⟩
  have hcounter := h.active
  omega

theorem counting_step (h : s.Counting) (hstep : Step s s') : s'.Counting := by
  obtain ⟨hlength, hfresh, hactive, hexits⟩ := id h
  cases hstep with
  | lock c job script hfree h =>
    rw [spawnAt_of_none hfree] at hlength hactive
    exact ⟨hlength, nofun, hactive, hexits⟩
  | countIn p hp hstage =>
    rw [spawnAt_of_some hp, hstage] at hlength hactive
    exact ⟨hlength, nofun, congrArg (· + 1) hactive, hexits⟩
  | begin p script hp hstage =>
    rw [spawnAt_of_some hp, hstage] at hlength hactive
    refine ⟨?_, fun _ => ⟨.start p.job script, ?_, rfl⟩, ?_, fun e he => ?_⟩
    · rw [List.length_append, hlength]
      rfl
    · have hnext : s.registry.nextId = s.tasks.length := hlength.symm
      rw [hnext]
      exact List.getElem?_concat_length
    · rw [hactive, activeTasks, activeTasks, List.countP_append]
      rfl
    · obtain ⟨t, ht, hshown⟩ := hexits e he
      exact ⟨t, get_append ht _, hshown⟩
  | enroll p hp hstage =>
    have hstarted : s.spawnAt .started = true := by rw [spawnAt_of_some hp, hstage]; rfl
    rw [spawnAt_of_some hp, hstage] at hlength hactive
    refine ⟨hlength, nofun, hactive, fun e he => ?_⟩
    rcases List.mem_append.mp he with he | he
    · exact hexits e he
    · -- The job may have ended by now, but its exit waits for the lock, so the entry is right to show none.
      cases List.mem_singleton.mp he
      obtain ⟨t, ht, hrunning⟩ := hfresh hstarted
      exact ⟨t, ht, hrunning⟩
  | work id t run blocks ht hmove hblocks =>
    exact h.set ht rfl rfl rfl rfl (.inr fun hrunning => hrunning)
      (h.exits_set ht fun _ hshown => hshown.work hmove)
  | record id t exit left hfree ht hstage hexit =>
    have hactive : t.isActive = true := by simp [Task.isActive, hstage]
    refine h.set ht rfl rfl rfl (by rw [hactive]; rfl) (.inl hfree) fun e he => ?_
    obtain ⟨held, hheld, rfl⟩ := List.mem_map.mp he
    obtain ⟨u, hu, hshown⟩ := hexits held hheld
    by_cases hid : held.id = id
    · rw [if_pos hid]
      rw [hid] at hu ⊢
      exact ⟨_, List.getElem?_set_self (List.getElem?_eq_some_iff.mp hu).1, nofun, hexit⟩
    · rw [if_neg hid]
      exact ⟨u, (List.getElem?_set_ne (Ne.symm hid)).trans hu, hshown⟩
  | countOut id t ht hstage =>
    have hold : t.isActive = true := by simp [Task.isActive, hstage]
    have hpos := h.active_pos ht hold
    refine h.set ht rfl rfl rfl ?_ (.inr fun hrunning => ?_) (h.exits_set ht fun _ hshown => hshown.countOut hstage)
    · rw [hold]
      change s.registry.active - 1 + 1 = s.registry.active + 0
      omega
    · rw [hstage] at hrunning
      cases hrunning
  | take id e hfree he =>
    exact ⟨hlength, hfresh, hactive, fun e he => hexits e (List.mem_of_mem_filter he)⟩
  | stop id t hid ht =>
    exact h.set ht rfl rfl rfl rfl (.inr fun hrunning => hrunning) (h.exits_set ht fun _ hshown => hshown.ask _)
  | _ => exact ⟨hlength, hfresh, hactive, hexits⟩

/-! ## Where the ids are -/

@[simp] theorem spawnedIds_reply (s : System) (r : Reply) :
    (s.reply r).spawnedIds = s.spawnedIds ++ r.spawned?.toList := by
  rw [spawnedIds, spawnedIds, reply, List.filterMap_append]
  cases r <;> rfl

@[simp] theorem removedIds_reply (s : System) (r : Reply) :
    (s.reply r).removedIds = s.removedIds ++ r.removed?.toList := by
  rw [removedIds, removedIds, reply, List.filterMap_append]
  cases r <;> rfl

/-- Each id that a spawn returned is in one place: registered, on its way out, or removed. -/
structure Placing (s : System) : Prop where
  spawned : s.spawnedIds = List.range s.registry.nextId
  placed : ∀ id, s.ids.count id + s.taken.count id + s.joining.count id + s.removedIds.count id =
    s.spawnedIds.count id

theorem Placing.count_le_one (h : s.Placing) (id : Nat) : s.spawnedIds.count id ≤ 1 := by
  rw [h.spawned, List.count_range]
  split <;> decide

theorem isSome_get?_iff {id : Nat} : (s.registry.get? id).isSome ↔ id ∈ s.ids := by
  rw [Registry.get?, List.find?_isSome, ids, List.mem_map]
  exact exists_congr fun e => and_congr_right fun _ => decide_eq_true_iff

@[simp] theorem ids_enroll (s : System) (p : Spawning) : (s.enroll p).ids = s.ids ++ [s.registry.nextId] :=
  List.map_append

@[simp] theorem spawnedIds_enroll (s : System) (p : Spawning) :
    (s.enroll p).spawnedIds = s.spawnedIds ++ [s.registry.nextId] :=
  s.spawnedIds_reply _

@[simp] theorem removedIds_enroll (s : System) (p : Spawning) : (s.enroll p).removedIds = s.removedIds :=
  (s.removedIds_reply _).trans (List.append_nil _)

@[simp] theorem ids_record (s : System) (id : Nat) (t : Task) (exit : Job.Exit) (left : Script) :
    (s.record id t exit left).ids = s.ids := by
  rw [ids, ids, System.record, Registry.record, List.map_map]
  refine List.map_congr_left fun e _ => ?_
  rw [Function.comp_apply]
  split <;> rfl

@[simp] theorem ids_take (s : System) (id : Nat) : (s.take id).ids = s.ids.filter (· != id) := by
  rw [ids, ids, take, without, List.filter_map]
  rfl

@[simp] theorem spawnedIds_join (s : System) (id : Nat) : (s.join id).spawnedIds = s.spawnedIds :=
  (s.spawnedIds_reply _).trans (List.append_nil _)

@[simp] theorem removedIds_join (s : System) (id : Nat) : (s.join id).removedIds = s.removedIds ++ [id] :=
  s.removedIds_reply _

theorem Placing.reply (h : s.Placing) {r : Reply} (hspawned : r.spawned? = none) (hremoved : r.removed? = none) :
    (s.reply r).Placing := by
  have hin : (s.reply r).spawnedIds = s.spawnedIds := by simp [hspawned]
  have hout : (s.reply r).removedIds = s.removedIds := by simp [hremoved]
  refine ⟨hin.trans h.spawned, fun id => ?_⟩
  rw [hin, hout]
  exact h.placed id

/-- An id leaves one list for another one. -/
theorem count_erase_add {id : Nat} {first : List Nat} (h : id ∈ first) (second : List Nat) (other : Nat) :
    (first.erase id).count other + (second ++ [id]).count other = first.count other + second.count other := by
  have hpos : 0 < first.count id := List.count_pos_iff.mpr h
  rw [List.count_erase, List.count_append, List.count_singleton]
  by_cases heq : id = other
  · subst heq
    simp only [beq_self_eq_true, if_true]
    omega
  · simp [heq]

theorem placing_step (h : s.Placing) (hstep : Step s s') : s'.Placing := by
  obtain ⟨hspawned, hplaced⟩ := id h
  cases hstep with
  | refuse => exact h.reply rfl rfl
  | enroll p hp hstage =>
    refine ⟨?_, fun id => ?_⟩
    · rw [spawnedIds_enroll, hspawned]
      exact List.range_succ.symm
    · have hid := hplaced id
      rw [ids_enroll, spawnedIds_enroll, removedIds_enroll, List.count_append, List.count_append]
      change _ + s.taken.count id + s.joining.count id + _ = _
      omega
  | record id t exit left hfree ht hstage hexit =>
    refine ⟨hspawned, fun other => ?_⟩
    rw [ids_record]
    exact hplaced other
  | take id e hfree he =>
    refine ⟨hspawned, fun other => ?_⟩
    have hother := hplaced other
    rw [ids_take]
    change _ + (s.taken ++ [id]).count other + s.joining.count other + s.removedIds.count other =
      s.spawnedIds.count other
    rw [List.count_append, List.count_singleton]
    by_cases heq : id = other
    · -- The id was registered, so it is in none of the other places.
      subst heq
      have honce := h.count_le_one id
      have hpos : 0 < s.ids.count id := List.count_pos_iff.mpr (isSome_get?_iff.mp (by rw [he]; rfl))
      have hnone : (s.ids.filter (· != id)).count id = 0 := List.count_eq_zero.mpr (by simp)
      simp only [beq_self_eq_true, if_true]
      omega
    · rw [List.count_filter (by simpa using Ne.symm heq)]
      simpa [heq] using hother
  | miss => exact h.reply rfl rfl
  | stop id t hid ht =>
    refine ⟨hspawned, fun other => ?_⟩
    have hother := hplaced other
    have hmoved := count_erase_add hid s.joining other
    change s.ids.count other + (s.taken.erase id).count other + (s.joining ++ [id]).count other +
      s.removedIds.count other = s.spawnedIds.count other
    omega
  | join id t hid ht hgone =>
    refine ⟨?_, fun other => ?_⟩
    · rw [spawnedIds_join]
      exact hspawned
    · have hother := hplaced other
      have hmoved := count_erase_add hid s.removedIds other
      rw [spawnedIds_join, removedIds_join]
      change s.ids.count other + s.taken.count other + (s.joining.erase id).count other + _ = _
      omega
  | list => exact h.reply rfl rfl
  | idle => exact h.reply rfl rfl
  | _ => exact ⟨hspawned, hplaced⟩

/-- The registered jobs and those that removals have found are the ones that spawns returned. -/
theorem Placing.perm (h : s.Placing) : (s.ids ++ s.removals).Perm s.spawnedIds := by
  refine List.perm_iff_count.mpr fun id => ?_
  have hid := h.placed id
  simp only [removals, List.count_append]
  omega

theorem Placing.nodup (h : s.Placing) : s.spawnedIds.Nodup := by
  rw [h.spawned]
  exact List.nodup_range

theorem Placing.length (h : s.Placing) : s.ids.length + s.removals.length = s.spawnedIds.length :=
  List.length_append.symm.trans h.perm.length_eq

theorem Placing.ids_nodup (h : s.Placing) : s.ids.Nodup :=
  (List.nodup_append.mp (h.perm.nodup_iff.mpr h.nodup)).1

theorem Placing.mem_ids_iff (h : s.Placing) {id : Nat} : id ∈ s.ids ↔ id ∈ s.spawnedIds ∧ id ∉ s.removals := by
  have hnodup := h.perm.nodup_iff.mpr h.nodup
  rw [← h.perm.mem_iff, List.mem_append]
  constructor
  · intro hid
    exact ⟨.inl hid, fun hremoval => (List.nodup_append.mp hnodup).2.2 id hid id hremoval rfl⟩
  · rintro ⟨hid | hremoval, hout⟩
    · exact hid
    · exact absurd hremoval hout

theorem Placing.cases (h : s.Placing) {id : Nat} (hid : id ∈ s.spawnedIds) :
    id ∈ s.ids ∨ id ∈ s.taken ∨ id ∈ s.joining ∨ id ∈ s.removedIds := by
  have hplace := h.perm.mem_iff.mpr hid
  simp only [removals, List.mem_append] at hplace
  rcases hplace with hid | (hid | hid) | hid
  · exact .inl hid
  · exact .inr (.inl hid)
  · exact .inr (.inr (.inl hid))
  · exact .inr (.inr (.inr hid))

/-! ## What tasks do -/

end System

/-- A task runs its job, and goes on only when that has ended. -/
structure Task.Sound (t : Task) : Prop where
  moves : Job.Moves t.script { job := t.job } t.run
  every : 1 ≤ t.job.counters.updateEvery
  ended : t.stage ≠ .running → ∃ exit, t.run.phase = .ended exit

/-- The task has been asked to stop. -/
def Task.isAsked (t : Task) : Prop :=
  t.run.signal ≠ none

/-- A time can be told for each cycle of the job, so that it does not break down. -/
def Task.Timed (t : Task) : Prop :=
  ∀ k, ∃ now, ((t.job.after t.script k).counters.delay? now).isSome

theorem Task.Sound.start {job : Job} (h : 1 ≤ job.counters.updateEvery) (script : Nat → Job.Attempt) :
    (Task.start job script).Sound :=
  ⟨.refl, h, fun hstage => absurd rfl hstage⟩

/-- The job of a sound task moves. -/
theorem Task.Sound.work {t : Task} (h : t.Sound) {run : Job.Running} (hmove : Job.Move t.script t.run run) :
    ({ t with run := run } : Task).Sound := by
  refine ⟨h.moves.tail hmove, h.every, fun hstage => ?_⟩
  obtain ⟨exit, hexit⟩ := h.ended hstage
  exact ⟨exit, (Job.ended_of_move hexit hmove).1⟩

theorem Task.Sound.ask {t : Task} (h : t.Sound) :
    ({ t with run := { t.run with signal := some (t.run.signal.getD .requested) } } : Task).Sound := by
  cases hsignal : t.run.signal with
  | none => exact h.work (.signal .requested hsignal)
  | some s =>
    have hsame : ({ t.run with signal := some s } : Job.Running) = t.run := by rw [← hsignal]
    rw [Option.getD_some, hsame]
    exact h

/-- The task gets on after its job has ended. -/
theorem Task.Sound.goOn {t : Task} (h : t.Sound) {exit : Job.Exit} (hexit : t.run.phase = .ended exit)
    (stage : Task.Stage) : ({ t with stage := stage } : Task).Sound :=
  ⟨h.moves, h.every, fun _ => ⟨exit, hexit⟩⟩

theorem Task.Sound.ended_of_gone {t : Task} (h : t.Sound) (hgone : t.stage = .gone) :
    ∃ exit, t.run.phase = .ended exit :=
  h.ended (by rw [hgone]; nofun)

theorem updateEvery_of_prepare {r : Registry} {c : Candidate} {job : Job} {script : Script}
    (h : r.prepare c = .ok (job, script)) : 1 ≤ job.counters.updateEvery := by
  let raw := Job.ofCollector r.plugin r.monitored c.module c.job c.config
  have hraw : 1 ≤ raw.counters.updateEvery := Counters.one_le_updateEvery_start _ _
  unfold prepare at h
  dsimp only at h
  split at h
  · cases h
  · next checked hcheck =>
    have hchecked : checked.counters = raw.counters := by
      have hjob := congrArg (fun outcome => outcome.1.counters) hcheck
      exact hjob.symm
    split at h
    · cases h
    · next created hcreate =>
      cases h
      have hcreated : job.counters = checked.counters := by
        unfold Job.create at hcreate
        split at hcreate
        · cases hcreate
        · cases hcreate
          split <;> rfl
      rw [hcreated, hchecked]
      exact hraw

section Owners

variable {ι α : Type} [DecidableEq ι]

theorem ownedBy_append (i : ι) (first second : List (ι × α)) :
    ownedBy i (first ++ second) = ownedBy i first ++ ownedBy i second := by
  rw [ownedBy, List.filter_append, List.map_append]
  rfl

theorem ownedBy_tagged_self (i : ι) (entries : List α) : ownedBy i (entries.map (i, ·)) = entries := by
  induction entries with
  | nil => rfl
  | cons a rest ih => rw [List.map_cons, ownedBy_cons_self, ih]

theorem ownedBy_tagged_of_ne {i j : ι} (h : j ≠ i) (entries : List α) : ownedBy i (entries.map (j, ·)) = [] := by
  induction entries with
  | nil => rfl
  | cons a rest ih => rw [List.map_cons, ownedBy_cons_of_ne h, ih]

end Owners

namespace System

variable {s s' : System}

/-- The blocks that the task of an id has handed over. -/
def blocksOf (s : System) (id : Nat) : List (List Line) :=
  (s.tasks[id]?.map fun t => t.run.blocks).getD []

/-- A task that starts has handed over nothing. -/
theorem blocksOf_begin (s : System) (job : Job) (script : Nat → Job.Attempt) (p : Option Spawning) (id : Nat) :
    blocksOf { s with tasks := s.tasks ++ [.start job script], spawning := p } id = s.blocksOf id := by
  rw [blocksOf, blocksOf, List.getElem?_append]
  split
  · rfl
  · next hbeyond =>
    rw [List.getElem?_singleton, List.getElem?_eq_none (Nat.le_of_not_lt hbeyond)]
    split <;> rfl

/-- The tasks do what they are to do, and what the writer took from each of them is known. -/
structure Driving (s : System) : Prop where
  pending : ∀ p, s.spawning = some p → 1 ≤ p.job.counters.updateEvery
  tasks : ∀ (id : Nat) (t : Task), s.tasks[id]? = some t → t.Sound
  asked : ∀ id ∈ s.joining, ∃ t, s.tasks[id]? = some t ∧ t.isAsked
  removed : ∀ id ∈ s.removedIds, ∃ t, s.tasks[id]? = some t ∧ t.stage = .gone ∧ t.isAsked
  handed : ∀ id, ownedBy id s.handed = s.blocksOf id
  blocks : s.registry.blocks = s.handed.map (·.2)

theorem Driving.reply (h : s.Driving) {r : Reply} (hremoved : r.removed? = none) : (s.reply r).Driving := by
  have hout : (s.reply r).removedIds = s.removedIds := by simp [hremoved]
  refine ⟨h.pending, h.tasks, h.asked, ?_, h.handed, h.blocks⟩
  rw [hout]
  exact h.removed

/-- One task changes and may hand blocks over. -/
theorem Driving.set (h : s.Driving) {id : Nat} {t changed : Task} (ht : s.tasks[id]? = some t)
    (hsound : changed.Sound) (hkept : t.isAsked → changed.isAsked) (hgone : t.stage = .gone → changed.stage = .gone)
    (htasks : s'.tasks = s.tasks.set id changed) (hspawning : s'.spawning = s.spawning)
    (hjoining : ∀ other ∈ s'.joining, other ∈ s.joining ∨ other = id ∧ changed.isAsked)
    (hremoved : s'.removedIds = s.removedIds) (blocks : List (List Line))
    (hrun : changed.run.blocks = t.run.blocks ++ blocks) (hhanded : s'.handed = s.handed ++ blocks.map (id, ·))
    (hblocks : s'.registry.blocks = s.registry.blocks ++ blocks) : s'.Driving := by
  have hself : (s.tasks.set id changed)[id]? = some changed :=
    List.getElem?_set_self (List.getElem?_eq_some_iff.mp ht).1
  refine ⟨?_, fun other u hu => ?_, fun other hother => ?_, fun other hother => ?_, fun other => ?_, ?_⟩
  · rw [hspawning]
    exact h.pending
  · rw [htasks] at hu
    rcases set_cases hu with ⟨-, rfl⟩ | hu
    · exact hsound
    · exact h.tasks other u hu
  · rw [htasks]
    rcases hjoining other hother with hold | ⟨rfl, hasked⟩
    · obtain ⟨u, hu, hasked⟩ := h.asked other hold
      exact exists_set ht hkept hu hasked
    · exact ⟨changed, hself, hasked⟩
  · rw [hremoved] at hother
    rw [htasks]
    obtain ⟨u, hu, hend⟩ := h.removed other hother
    exact exists_set ht (fun hold => ⟨hgone hold.1, hkept hold.2⟩) hu hend
  · have hold := h.handed other
    rw [hhanded, ownedBy_append, hold, blocksOf, blocksOf, htasks]
    by_cases heq : id = other
    · subst heq
      rw [ownedBy_tagged_self, hself, ht]
      exact hrun.symm
    · rw [ownedBy_tagged_of_ne heq, List.append_nil, List.getElem?_set_ne heq]
  · rw [hblocks, hhanded, List.map_append, h.blocks, List.map_map]
    exact congrArg _ (List.map_id _).symm

/-- One task changes and hands nothing over. -/
theorem Driving.set_silent (h : s.Driving) {id : Nat} {t changed : Task} (ht : s.tasks[id]? = some t)
    (hsound : changed.Sound) (hkept : t.isAsked → changed.isAsked) (hgone : t.stage = .gone → changed.stage = .gone)
    (htasks : s'.tasks = s.tasks.set id changed) (hspawning : s'.spawning = s.spawning)
    (hjoining : ∀ other ∈ s'.joining, other ∈ s.joining ∨ other = id ∧ changed.isAsked)
    (hremoved : s'.removedIds = s.removedIds) (hrun : changed.run.blocks = t.run.blocks)
    (hhanded : s'.handed = s.handed) (hblocks : s'.registry.blocks = s.registry.blocks) : s'.Driving :=
  h.set ht hsound hkept hgone htasks hspawning hjoining hremoved [] (hrun.trans (List.append_nil _).symm)
    (hhanded.trans (List.append_nil _).symm) (hblocks.trans (List.append_nil _).symm)

theorem driving_step (h : s.Driving) (hstep : Step s s') : s'.Driving := by
  obtain ⟨hpending, htasks, hasked, hremoved, hhanded, hblocks⟩ := id h
  cases hstep with
  | refuse => exact h.reply rfl
  | lock c job script hfree hprepare =>
    refine ⟨fun p hp => ?_, htasks, hasked, hremoved, hhanded, hblocks⟩
    cases hp
    exact updateEvery_of_prepare hprepare
  | countIn p hp hstage =>
    refine ⟨fun q hq => ?_, htasks, hasked, hremoved, hhanded, hblocks⟩
    cases hq
    exact hpending p hp
  | begin p script hp hstage =>
    have hevery := hpending p hp
    refine ⟨fun q hq => ?_, fun id t ht => ?_, fun id hid => ?_, fun id hid => ?_, fun id => ?_, hblocks⟩
    · cases hq
      exact hevery
    · rcases append_cases ht with ht | ⟨-, rfl⟩
      · exact htasks id t ht
      · exact .start hevery script
    · obtain ⟨t, ht, hstop⟩ := hasked id hid
      exact ⟨t, get_append ht _, hstop⟩
    · obtain ⟨t, ht, hend⟩ := hremoved id hid
      exact ⟨t, get_append ht _, hend⟩
    · rw [hhanded, blocksOf_begin]
  | enroll p hp hstage =>
    have hfree : (s.enroll p).spawning = none := rfl
    refine ⟨fun q hq => ?_, htasks, hasked, ?_, hhanded, hblocks⟩
    · rw [hfree] at hq
      cases hq
    · rw [removedIds_enroll]
      exact hremoved
  | work id t run blocks ht hmove hrun =>
    have hsound := htasks id t ht
    exact h.set ht (hsound.work hmove) (Job.signal_of_move hmove) (fun hgone => hgone) rfl rfl
      (fun _ hother => .inl hother) rfl blocks hrun rfl rfl
  | record id t exit left hfree ht hstage hexit =>
    have hsound := htasks id t ht
    refine h.set_silent ht (hsound.goOn hexit .recorded) (fun hkept => hkept) (fun hgone => ?_) rfl rfl
      (fun _ hother => .inl hother) rfl rfl rfl rfl
    rw [hstage] at hgone
    cases hgone
  | countOut id t ht hstage =>
    have hsound := htasks id t ht
    obtain ⟨exit, hexit⟩ := hsound.ended (by rw [hstage]; nofun)
    exact h.set_silent ht (hsound.goOn hexit .gone) (fun hkept => hkept) (fun _ => rfl) rfl rfl
      (fun _ hother => .inl hother) rfl rfl rfl rfl
  | take => exact ⟨hpending, htasks, hasked, hremoved, hhanded, hblocks⟩
  | miss => exact h.reply rfl
  | stop id t hid ht =>
    have hsound := (htasks id t ht).ask
    refine h.set_silent ht hsound (fun _ => nofun) (fun hgone => hgone) rfl rfl (fun other hother => ?_) rfl rfl
      rfl rfl
    rcases List.mem_append.mp hother with hother | hother
    · exact .inl hother
    · exact .inr ⟨List.mem_singleton.mp hother, nofun⟩
  | join id t hid ht hgone =>
    refine ⟨hpending, htasks, fun other hother => hasked other (List.mem_of_mem_erase hother), fun other hother => ?_,
      hhanded, hblocks⟩
    rw [removedIds_join] at hother
    rcases List.mem_append.mp hother with hother | hother
    · exact hremoved other hother
    · cases List.mem_singleton.mp hother
      obtain ⟨u, hu, hstop⟩ := hasked id hid
      cases ht.symm.trans hu
      exact ⟨t, ht, hgone, hstop⟩
  | list => exact h.reply rfl
  | idle => exact h.reply rfl

/-! ## Every step -/

/-- What every step keeps. -/
structure Sound (s : System) : Prop where
  counting : s.Counting
  placing : s.Placing
  driving : s.Driving

theorem sound_start (plugin : String) (monitored : Bool) : (start plugin monitored).Sound := by
  have hnoEntry : ∀ e, e ∉ (start plugin monitored).registry.entries := fun _ => List.not_mem_nil
  have hnoTask : ∀ (id : Nat) (t : Task), (start plugin monitored).tasks[id]? ≠ some t := by
    intro id t ht
    rw [start, List.getElem?_nil] at ht
    cases ht
  refine ⟨⟨rfl, fun hstarted => ?_, rfl, fun e he => absurd he (hnoEntry e)⟩, ⟨rfl, fun _ => rfl⟩,
    ⟨fun p hp => ?_, fun id t ht => absurd ht (hnoTask id t), fun id hid => ?_, fun id hid => ?_, fun _ => rfl, rfl⟩⟩
  · cases hstarted
  · cases hp
  · cases hid
  · cases hid

theorem sound_step (h : s.Sound) (hstep : Step s s') : s'.Sound :=
  ⟨counting_step h.counting hstep, placing_step h.placing hstep, driving_step h.driving hstep⟩

theorem sound_steps (h : s.Sound) (hsteps : Steps s s') : s'.Sound := by
  induction hsteps with
  | refl => exact h
  | tail _ hstep ih => exact sound_step ih hstep

end System

end Registry

end ChartStream
