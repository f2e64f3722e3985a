import ChartStream.Proofs.JobStream
import ChartStream.Proofs.WriterSteps
import Mathlib.Logic.Function.Basic

/-!
# Jobs that share a writer

Jobs on one writer, with their steps and those of the writer in any order, and what every step keeps: the blocks
of each job reach the queue as it sends them alone. Main definitions: `Fleet`, `Fleet.Step`, `Fleet.Sound`.
Main result: `Fleet.sound_steps`.
-/

namespace ChartStream

set_option autoImplicit false

section Owners

variable {ι α : Type} [DecidableEq ι]

/-- The entries of one owner. -/
def ownedBy (i : ι) (entries : List (ι × α)) : List α :=
  (entries.filter fun e => e.1 = i).map (·.2)

theorem ownedBy_cons_self (i : ι) (a : α) (rest : List (ι × α)) :
    ownedBy i ((i, a) :: rest) = a :: ownedBy i rest := by
  simp [ownedBy]

theorem ownedBy_cons_of_ne {i j : ι} (h : j ≠ i) (a : α) (rest : List (ι × α)) :
    ownedBy i ((j, a) :: rest) = ownedBy i rest := by
  simp [ownedBy, h]

theorem ownedBy_isPrefix {first second : List (ι × α)} (h : first <+: second) (i : ι) :
    ownedBy i first <+: ownedBy i second :=
  (h.filter _).map _

end Owners

theorem Line.renderAll_ne_empty {lines : List Line} (h : lines ≠ []) : Line.renderAll lines ≠ "" := by
  intro hempty
  cases lines with
  | nil => exact h rfl
  | cons line rest =>
    have hlist := congrArg String.toList hempty
    rw [renderAll_cons, String.toList_append, render_toList] at hlist
    simp at hlist

/-! ## Jobs and their writer -/

/-- Jobs that share a writer. -/
structure Fleet (n : Nat) where
  jobs : Fin n → Job
  /-- What each job has done. -/
  history : Fin n → List Job.Step
  system : Writer.System

namespace Fleet

variable {n : Nat}

/-- Jobs that have done nothing, on a writer that has nothing to do. -/
def start (jobs : Fin n → Job) (w : Writer) : Fleet n :=
  { jobs := jobs, history := fun _ => [], system := { writer := w } }

/-- The calls of one caller. -/
def callsFrom (caller : Nat) (requests : List Writer.Request) : List Writer.Request :=
  requests.filter fun q => q.caller = caller

/-- The calls of a job that are in progress. -/
def callsOf (f : Fleet n) (i : Fin n) : List Writer.Request :=
  callsFrom i f.system.requests

/-- A job takes a step and hands its block over, if there is one. -/
def act (f : Fleet n) (i : Fin n) (step : Job.Step) : Fleet n :=
  let block := ((f.jobs i).take step).2
  { jobs := Function.update f.jobs i ((f.jobs i).take step).1
    history := Function.update f.history i (f.history i ++ [step])
    system := if block.isEmpty then f.system else f.system.request i (.write (Line.renderAll block)) }

/-- The writer or a call gets on. -/
def on (f : Fleet n) (move : Writer.System → Writer.System) : Fleet n :=
  { f with system := move f.system }

/-- One step. A job takes its next step when its last block has been taken over. Anybody else may ask for a
flush. -/
inductive Step (f : Fleet n) : Fleet n → Prop
  | job (i : Fin n) (step : Job.Step) (hidle : f.callsOf i = [])
      (hsilent : ∀ op ∈ step.changes, op.isSilent = true) : Step f (f.act i step)
  | ask (caller : Nat) (hother : n ≤ caller) : Step f (f.on (·.request caller .flush))
  | enqueue (q : Writer.Request) (hq : q ∈ f.system.requests) (hstage : q.stage = .sending)
      (hroom : f.system.writer.queue.length < f.system.writer.capacity) : Step f (f.on (·.enqueue q))
  | count (q : Writer.Request) (block : String) (hq : q ∈ f.system.requests) (hstage : q.stage = .accepted)
      (hcommand : q.command = .write block) : Step f (f.on (·.count q))
  | receive (command : Writer.Command) (rest : List Writer.Command) (hphase : f.system.phase = .receiving)
      (hqueue : f.system.writer.queue = command :: rest) : Step f (f.on (·.receive command rest))
  | write (block : String) (hphase : f.system.phase = .writing block) : Step f (f.on (·.write block))
  | settle (hphase : f.system.phase = .settling) : Step f (f.on (·.settle))
  | flush (number : Option Nat) (hphase : f.system.phase = .flushing number) :
      Step f (f.on (·.flush number))

/-- Any number of steps. -/
def Steps : Fleet n → Fleet n → Prop :=
  Relation.ReflTransGen Step

/-! ## The invariant -/

/-- The writer is at work, and there is nothing that could stop it. -/
structure Runs (s : Writer.System) : Prop where
  goesOn : s.phase.goesOn = true
  clones : s.abandoned = false
  capacity : 0 < s.writer.capacity
  queue : .shutdown ∉ s.writer.queue
  requests : ∀ q ∈ s.requests, q.command ≠ .shutdown
  write : ∀ k, s.writer.sink.faults.write k = false
  flush : ∀ k, s.writer.sink.faults.flush k = false

/-- What the calls of a job in progress and the accepted blocks are, given all its blocks: none is in progress
and all are accepted; or the last one waits to be accepted, or to be counted. -/
def Delivered (calls : List Writer.Request) (accepted blocks : List String) : Prop :=
  (calls = [] ∧ blocks = accepted) ∨
    ∃ q block, calls = [q] ∧ q.command = .write block ∧
      ((q.stage = .sending ∧ blocks = accepted ++ [block]) ∨ (q.stage = .accepted ∧ blocks = accepted))

/-- The blocks of a job that did `steps`, as texts. -/
def textsOf (job : Job) (steps : List Job.Step) : List String :=
  (job.alone steps).blocks.map Line.renderAll

/-- The blocks that the queue has taken from one caller. -/
def acceptedOf (f : Fleet n) (i : Fin n) : List String :=
  ownedBy (i : Nat) f.system.accepted

/-- Blocks come from jobs alone. -/
def Owned (n : Nat) (s : Writer.System) : Prop :=
  (∀ q ∈ s.requests, q.caller < n ∨ q.command.block? = none) ∧ ∀ b ∈ s.accepted, b.1 < n

/-- What every step keeps. -/
structure Sound (jobs : Fin n → Job) (f : Fleet n) : Prop where
  ordered : f.system.Ordered
  runs : Runs f.system
  alone : ∀ i, f.jobs i = ((jobs i).alone (f.history i)).job
  delivered : ∀ i, Delivered (f.callsOf i) (f.acceptedOf i) (textsOf (jobs i) (f.history i))
  silent : ∀ i, ∀ step ∈ f.history i, ∀ op ∈ step.changes, op.isSilent = true
  callers : Owned n f.system

theorem Runs.request {s : Writer.System} (h : Runs s) (caller : Nat) {command : Writer.Command}
    (hcommand : command ≠ .shutdown) : Runs (s.request caller command) := by
  refine ⟨?_, ?_, ?_, ?_, fun q hq => ?_, ?_, ?_⟩
  · rw [s.phase_request]
    exact h.goesOn
  · rw [s.abandoned_request]
    exact h.clones
  · rw [s.writer_request]
    exact h.capacity
  · rw [s.writer_request]
    exact h.queue
  · rcases Writer.System.mem_requests_request hq with hq | ⟨-, rfl⟩
    · exact h.requests q hq
    · exact hcommand
  · rw [s.writer_request]
    exact h.write
  · rw [s.writer_request]
    exact h.flush

theorem Runs.enqueue {s : Writer.System} (h : Runs s) {q : Writer.Request} (hq : q ∈ s.requests) :
    Runs (s.enqueue q) := by
  have hcommand := h.requests q hq
  refine ⟨?_, ?_, ?_, ?_, fun p hp => ?_, ?_, ?_⟩
  · rw [s.phase_enqueue q]
    exact h.goesOn
  · rw [s.abandoned_enqueue q]
    exact h.clones
  · rw [s.writer_enqueue q]
    exact h.capacity
  · rw [s.writer_enqueue q, List.mem_append, List.mem_singleton]
    rintro (hmem | hmem)
    · exact h.queue hmem
    · exact hcommand hmem.symm
  · rcases Writer.System.mem_requests_enqueue hp with hp | ⟨-, rfl⟩
    · exact h.requests p hp
    · exact hcommand
  · rw [s.writer_enqueue q]
    exact h.write
  · rw [s.writer_enqueue q]
    exact h.flush

theorem Runs.give {s : Writer.System} (h : Runs s) (q : Writer.Request) (report : Writer.Report) :
    Runs (s.give q report) :=
  ⟨h.goesOn, h.clones, h.capacity, h.queue, fun p hp => h.requests p (List.mem_of_mem_erase hp), h.write, h.flush⟩

theorem Runs.receive {s : Writer.System} (h : Runs s) {command : Writer.Command} {rest : List Writer.Command}
    (hqueue : s.writer.queue = command :: rest) : Runs (s.receive command rest) := by
  have hrest : .shutdown ∉ rest := fun hmem => h.queue (hqueue ▸ List.mem_cons_of_mem command hmem)
  have hcommand : command ≠ .shutdown := by
    rintro rfl
    exact h.queue (hqueue ▸ List.mem_cons_self)
  cases command with
  | shutdown => exact absurd rfl hcommand
  | _ => exact ⟨rfl, h.clones, h.capacity, hrest, h.requests, h.write, h.flush⟩

theorem write_of_runs {s : Writer.System} (h : Runs s) (block : String) :
    s.writer.sink.write block =
      ({ s.writer.sink with writes := s.writer.sink.writes + 1, taken := s.writer.sink.taken ++ [block] },
        true) := by
  rw [Sink.write, h.write]
  rfl

theorem Runs.write_block {s : Writer.System} (h : Runs s) (block : String) : Runs (s.write block) := by
  unfold Writer.System.write
  rw [write_of_runs h]
  exact ⟨rfl, h.clones, h.capacity, h.queue, h.requests, h.write, h.flush⟩

theorem Runs.settle {s : Writer.System} (h : Runs s) : Runs s.settle := by
  have hflush : s.writer.sink.flush.2 = true := by simp [Sink.flush, h.flush]
  unfold Writer.System.settle
  simp only [hflush]
  exact ⟨rfl, h.clones, h.capacity, h.queue, h.requests, h.write, h.flush⟩

theorem Runs.flush_call {s : Writer.System} (h : Runs s) (number : Option Nat) : Runs (s.flush number) := by
  have hflushed : Runs { s with writer := { s.writer with sink := s.writer.sink.flush.1 }, phase := .receiving } :=
    ⟨rfl, h.clones, h.capacity, h.queue, h.requests, h.write, h.flush⟩
  rcases s.flush_cases number with heq | ⟨q, -, report, -, heq⟩ <;> rw [heq]
  · exact hflushed
  · exact hflushed.give q report

/-- The writer of a fleet moves as the writer among its callers does, and nothing stops it. -/
theorem runs_step {f f' : Fleet n} (h : Runs f.system) (hstep : f.Step f') :
    Runs f'.system ∧ (f'.system = f.system ∨ f.system.Step f'.system) := by
  have hopen : f.system.phase ≠ .stopped := by
    intro hphase
    have hgoes := h.goesOn
    rw [hphase] at hgoes
    cases hgoes
  cases hstep with
  | job i step hidle hsilent =>
    unfold act
    dsimp only
    split
    · exact ⟨h, .inl rfl⟩
    · exact ⟨h.request _ (by simp), .inr (.request _ _ h.clones)⟩
  | ask caller hother =>
    have hasked : Runs (f.system.request caller .flush) := h.request caller (by simp)
    exact ⟨hasked, .inr (.request caller .flush h.clones)⟩
  | enqueue q hq hstage hroom => exact ⟨h.enqueue hq, .inr (.enqueue q hq hstage hopen hroom)⟩
  | count q block hq hstage hcommand =>
    have hcounted : Runs { f.system with
        writer := { f.system.writer with blocksSent := f.system.writer.blocksSent + 1 } } :=
      ⟨h.goesOn, h.clones, h.capacity, h.queue, h.requests, h.write, h.flush⟩
    exact ⟨hcounted.give q _, .inr (.count q block hq hstage hcommand)⟩
  | receive command rest hphase hqueue => exact ⟨h.receive hqueue, .inr (.receive command rest hphase hqueue)⟩
  | write block hphase => exact ⟨h.write_block block, .inr (.write block hphase)⟩
  | settle hphase => exact ⟨h.settle, .inr (.settle hphase)⟩
  | flush number hphase => exact ⟨h.flush_call number, .inr (.flush number hphase)⟩

/-! ## Blocks on their way -/

theorem callsFrom_erase (caller : Nat) (requests : List Writer.Request) (q : Writer.Request) :
    callsFrom caller (requests.erase q) = (callsFrom caller requests).erase q :=
  List.erase_filter.symm

theorem erase_of_caller_ne {caller : Nat} {q : Writer.Request} (h : q.caller ≠ caller)
    (requests : List Writer.Request) : (callsFrom caller requests).erase q = callsFrom caller requests := by
  refine List.erase_of_not_mem fun hq => h ?_
  simpa using (List.mem_filter.mp hq).2

/-- A call of a job in progress is its only one. -/
theorem Delivered.eq_of_mem {calls : List Writer.Request} {accepted blocks : List String}
    (h : Delivered calls accepted blocks) {q : Writer.Request} (hq : q ∈ calls) :
    calls = [q] ∧ ∃ block, q.command = .write block ∧
      ((q.stage = .sending ∧ blocks = accepted ++ [block]) ∨ (q.stage = .accepted ∧ blocks = accepted)) := by
  rcases h with ⟨rfl, -⟩ | ⟨p, block, rfl, hcommand, hstage⟩
  · cases hq
  · cases List.mem_singleton.mp hq
    exact ⟨rfl, block, hcommand, hstage⟩

theorem delivered_enqueue {f : Fleet n} {i : Fin n} {blocks : List String}
    (h : Delivered (f.callsOf i) (f.acceptedOf i) blocks) {q : Writer.Request} (hq : q ∈ f.system.requests)
    (hstage : q.stage = .sending) (hcommand : q.command ≠ .shutdown) :
    Delivered ((f.on (·.enqueue q)).callsOf i) ((f.on (·.enqueue q)).acceptedOf i) blocks := by
  have hcalls : (f.on (·.enqueue q)).callsOf i =
      (f.callsOf i).erase q ++ if q.caller = i then [{ q with stage := .accepted }] else [] := by
    change callsFrom i (f.system.enqueue q).requests = _
    rw [f.system.requests_enqueue q, if_neg hcommand, callsFrom, List.filter_append]
    change callsFrom i (f.system.requests.erase q) ++ _ = _
    rw [callsFrom_erase]
    by_cases hcaller : q.caller = i <;> simp [hcaller, callsOf]
  have haccepted : (f.on (·.enqueue q)).acceptedOf i =
      f.acceptedOf i ++ if q.caller = i then q.command.block?.toList else [] := by
    simp only [acceptedOf, ownedBy, on, f.system.accepted_enqueue q, List.filter_append, List.map_append]
    cases q.command.block? <;> by_cases hcaller : q.caller = i <;> simp [hcaller]
  rw [hcalls, haccepted]
  by_cases hcaller : q.caller = i
  · rw [if_pos hcaller, if_pos hcaller]
    have hmem : q ∈ f.callsOf i := List.mem_filter.mpr ⟨hq, by simpa using hcaller⟩
    obtain ⟨hone, block, hblock, hwait⟩ := h.eq_of_mem hmem
    rcases hwait with ⟨-, hblocks⟩ | ⟨hother, -⟩
    · refine .inr ⟨{ q with stage := .accepted }, block, ?_, hblock, .inr ⟨rfl, ?_⟩⟩
      · rw [hone, List.erase_cons_head, List.nil_append]
      · rw [hblocks, hblock]
        rfl
    · rw [hstage] at hother
      cases hother
  · rw [if_neg hcaller, if_neg hcaller, List.append_nil, List.append_nil, callsOf, erase_of_caller_ne hcaller]
    exact h

theorem delivered_count {f : Fleet n} {i : Fin n} {blocks : List String}
    (h : Delivered (f.callsOf i) (f.acceptedOf i) blocks) {q : Writer.Request} (hq : q ∈ f.system.requests)
    (hstage : q.stage = .accepted) :
    Delivered ((f.on (·.count q)).callsOf i) ((f.on (·.count q)).acceptedOf i) blocks := by
  have hcalls : (f.on (·.count q)).callsOf i = (f.callsOf i).erase q :=
    callsFrom_erase i f.system.requests q
  rw [hcalls]
  by_cases hcaller : q.caller = i
  · have hmem : q ∈ f.callsOf i := List.mem_filter.mpr ⟨hq, by simpa using hcaller⟩
    obtain ⟨hone, block, -, hwait⟩ := h.eq_of_mem hmem
    rcases hwait with ⟨hother, -⟩ | ⟨-, hblocks⟩
    · rw [hstage] at hother
      cases hother
    · exact .inl ⟨by rw [hone, List.erase_cons_head], hblocks⟩
  · rw [callsOf, erase_of_caller_ne hcaller]
    exact h

theorem delivered_flush {f : Fleet n} {i : Fin n} {blocks : List String}
    (h : Delivered (f.callsOf i) (f.acceptedOf i) blocks) (number : Option Nat) :
    Delivered ((f.on (·.flush number)).callsOf i) ((f.on (·.flush number)).acceptedOf i)
      blocks := by
  change Delivered (callsFrom i (f.system.flush number).requests)
    (ownedBy (i : Nat) (f.system.flush number).accepted) blocks
  rcases f.system.flush_cases number with heq | ⟨q, hq, report, ⟨hcommand, -⟩, heq⟩ <;> rw [heq]
  · exact h
  · have hcalls : (f.callsOf i).erase q = f.callsOf i := by
      refine List.erase_of_not_mem fun hmem => ?_
      obtain ⟨-, block, hblock, -⟩ := h.eq_of_mem hmem
      rw [hcommand] at hblock
      cases hblock
    change Delivered (callsFrom i (f.system.requests.erase q)) (f.acceptedOf i) blocks
    rw [callsFrom_erase]
    exact hcalls.symm ▸ h

theorem textsOf_append (job : Job) (steps : List Job.Step) (step : Job.Step) :
    textsOf job (steps ++ [step]) = textsOf job steps ++
      if (((job.alone steps).job.take step).2).isEmpty then []
      else [Line.renderAll ((job.alone steps).job.take step).2] := by
  rw [textsOf, Job.alone_append, List.map_append, textsOf, Job.alone]
  congr 1
  split <;> rfl

theorem job_append (job : Job) (steps : List Job.Step) (step : Job.Step) :
    (job.alone (steps ++ [step])).job = ((job.alone steps).job.take step).1 := by
  rw [Job.alone_append]
  rfl

theorem callsFrom_request (s : Writer.System) (caller other : Nat) {block : String} (h : block ≠ "") :
    callsFrom other (s.request caller (.write block)).requests =
      callsFrom other s.requests ++
        if caller = other then [{ number := s.made, caller := caller, command := .write block }] else [] := by
  unfold Writer.System.request
  rw [if_neg (by simpa using h), callsFrom, callsFrom, List.filter_append]
  by_cases hcaller : caller = other <;> simp [hcaller]

theorem delivered_act {jobs : Fin n → Job} {f : Fleet n} (h : Sound jobs f) {i : Fin n} {step : Job.Step}
    (hidle : f.callsOf i = []) (j : Fin n) :
    Delivered ((f.act i step).callsOf j) ((f.act i step).acceptedOf j)
      (textsOf (jobs j) ((f.act i step).history j)) := by
  have hbefore := h.delivered j
  have hjob := h.alone i
  by_cases hblock : ((f.jobs i).take step).2.isEmpty = true
  · have hcalls : (f.act i step).callsOf j = f.callsOf j := by simp [act, callsOf, hblock]
    have haccepted : (f.act i step).acceptedOf j = f.acceptedOf j := by simp [act, acceptedOf, hblock]
    have htexts : textsOf (jobs j) ((f.act i step).history j) = textsOf (jobs j) (f.history j) := by
      by_cases hj : j = i
      · subst hj
        simp [act, textsOf_append, ← hjob, hblock]
      · simp [act, Function.update_of_ne hj]
    rw [hcalls, haccepted, htexts]
    exact hbefore
  · have hfull : Line.renderAll ((f.jobs i).take step).2 ≠ "" :=
      Line.renderAll_ne_empty fun hnil => hblock (by rw [hnil]; rfl)
    let command : Writer.Command := .write (Line.renderAll ((f.jobs i).take step).2)
    have hcalls : (f.act i step).callsOf j = f.callsOf j ++
        if (i : Nat) = j then [{ number := f.system.made, caller := i, command := command }] else [] := by
      rw [callsOf, callsOf, ← callsFrom_request _ _ _ hfull]
      simp [act, hblock]
    have haccepted : (f.act i step).acceptedOf j = f.acceptedOf j := by
      simp [act, acceptedOf, hblock]
    rw [hcalls, haccepted]
    by_cases hj : j = i
    · subst hj
      have htexts : textsOf (jobs j) ((f.act j step).history j) =
          textsOf (jobs j) (f.history j) ++ [Line.renderAll ((f.jobs j).take step).2] := by
        simp [act, textsOf_append, ← hjob, hblock]
      rw [htexts, if_pos rfl, hidle]
      rw [hidle] at hbefore
      rcases hbefore with ⟨-, hblocks⟩ | ⟨q, block, hcalls, -⟩
      · exact .inr ⟨_, _, rfl, rfl, .inl ⟨rfl, by rw [hblocks]⟩⟩
      · cases hcalls
    · have hne : (i : Nat) ≠ j := fun h => hj (Fin.ext h.symm)
      have htexts : textsOf (jobs j) ((f.act i step).history j) = textsOf (jobs j) (f.history j) := by
        simp [act, Function.update_of_ne hj]
      rw [htexts, if_neg hne, List.append_nil]
      exact hbefore

theorem owned_request {s : Writer.System} (h : Owned n s) {caller : Nat} {command : Writer.Command}
    (hcaller : caller < n ∨ command.block? = none) : Owned n (s.request caller command) := by
  refine ⟨fun q hq => ?_, fun b hb => h.2 b (s.accepted_request caller command ▸ hb)⟩
  rcases Writer.System.mem_requests_request hq with hq | ⟨-, rfl⟩
  · exact h.1 q hq
  · exact hcaller

theorem owned_enqueue {s : Writer.System} (h : Owned n s) {q : Writer.Request} (hq : q ∈ s.requests) :
    Owned n (s.enqueue q) := by
  refine ⟨fun p hp => ?_, fun b hb => ?_⟩
  · rcases Writer.System.mem_requests_enqueue hp with hp | ⟨-, rfl⟩
    · exact h.1 p hp
    · exact h.1 q hq
  · rcases Writer.System.mem_accepted_enqueue hb with hb | ⟨howner, hblock⟩
    · exact h.2 b hb
    · rcases h.1 q hq with hcaller | hnone
      · exact howner ▸ hcaller
      · rw [hblock] at hnone
        cases hnone

theorem owned_erase {s : Writer.System} (h : Owned n s) (q : Writer.Request) (report : Writer.Report) :
    Owned n (s.give q report) :=
  ⟨fun p hp => h.1 p (List.mem_of_mem_erase hp), h.2⟩

theorem owned_step {f f' : Fleet n} (h : Owned n f.system) (hstep : f.Step f') : Owned n f'.system := by
  cases hstep with
  | job i step hidle hsilent =>
    unfold act
    dsimp only
    split
    · exact h
    · exact owned_request h (.inl i.isLt)
  | ask caller hother => exact owned_request h (.inr rfl)
  | enqueue q hq hstage hroom => exact owned_enqueue h hq
  | count q block hq hstage hcommand => exact owned_erase h q (.ok ())
  | receive command rest hphase hqueue => cases command <;> exact h
  | flush number hphase =>
    change Owned n (f.system.flush number)
    rcases f.system.flush_cases number with heq | ⟨q, hq, report, -, heq⟩ <;> rw [heq]
    · exact h
    · exact owned_erase h q report
  | _ => exact h

theorem sound_step {jobs : Fin n → Job} {f f' : Fleet n} (h : Sound jobs f) (hstep : f.Step f') :
    Sound jobs f' := by
  obtain ⟨hruns, hsystem⟩ := runs_step h.runs hstep
  have howned := owned_step h.callers hstep
  have hordered : f'.system.Ordered := by
    rcases hsystem with hsame | hmoved
    · rw [hsame]
      exact h.ordered
    · exact Writer.System.ordered_step h.ordered hmoved
  cases hstep with
  | job i step hidle hsilent =>
    refine ⟨hordered, hruns, fun j => ?_, delivered_act h hidle, fun j other hother => ?_, howned⟩
    · by_cases hj : j = i
      · subst hj
        simp [act, job_append, ← h.alone j]
      · simp [act, Function.update_of_ne hj, h.alone j]
    · by_cases hj : j = i
      · subst hj
        have hmem : other ∈ f.history j ∨ other = step := by simpa [act] using hother
        rcases hmem with hmem | rfl
        · exact h.silent j other hmem
        · exact hsilent
      · exact h.silent j other (by simpa [act, Function.update_of_ne hj] using hother)
  | ask caller hother =>
    refine ⟨hordered, hruns, h.alone, fun j => ?_, h.silent, howned⟩
    have hcaller : caller ≠ j := fun heq => absurd j.isLt (Nat.not_lt.mpr (heq ▸ hother))
    have hcalls : callsFrom j (f.system.request caller .flush).requests = f.callsOf j := by
      simp [Writer.System.request, callsFrom, callsOf, hcaller]
    have hbefore := h.delivered j
    change Delivered (callsFrom j (f.system.request caller .flush).requests)
      (ownedBy (j : Nat) (f.system.request caller .flush).accepted) _
    rw [hcalls, f.system.accepted_request]
    exact hbefore
  | enqueue q hq hstage hroom =>
    exact ⟨hordered, hruns, h.alone,
      fun j => delivered_enqueue (h.delivered j) hq hstage (h.runs.requests q hq), h.silent, howned⟩
  | count q block hq hstage hcommand =>
    exact ⟨hordered, hruns, h.alone, fun j => delivered_count (h.delivered j) hq hstage, h.silent, howned⟩
  | receive command rest hphase hqueue =>
    refine ⟨hordered, hruns, h.alone, fun j => ?_, h.silent, howned⟩
    cases command <;> exact h.delivered j
  | write block hphase => exact ⟨hordered, hruns, h.alone, h.delivered, h.silent, howned⟩
  | settle hphase => exact ⟨hordered, hruns, h.alone, h.delivered, h.silent, howned⟩
  | flush number hphase =>
    exact ⟨hordered, hruns, h.alone, fun j => delivered_flush (h.delivered j) number, h.silent, howned⟩

theorem sound_steps {jobs : Fin n → Job} {f f' : Fleet n} (h : Sound jobs f) (hsteps : f.Steps f') :
    Sound jobs f' := by
  induction hsteps with
  | refl => exact h
  | tail _ hstep ih => exact sound_step ih hstep

theorem sound_start (jobs : Fin n → Job) {capacity : Nat} {w : Writer}
    (hw : Writer.ofSink? capacity {} = some w) : Sound jobs (start jobs w) := by
  have hwriter : w = { capacity := max capacity 1 } := by
    unfold Writer.ofSink? at hw
    split at hw
    · exact (Option.some.inj hw).symm
    · cases hw
  subst hwriter
  refine ⟨⟨[], rfl, fun _ => rfl⟩, ⟨rfl, rfl, ?_, by simp [start], by simp [start], fun _ => rfl,
    fun _ => rfl⟩, fun _ => rfl, fun i => .inl ⟨rfl, rfl⟩, by simp [start], by simp [start, Owned]⟩
  exact Nat.lt_of_lt_of_le Nat.one_pos (Nat.le_max_right capacity 1)

end Fleet

end ChartStream
