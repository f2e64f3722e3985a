import ChartStream.Proofs.WriterSteps

/-!
# The end of the writer

A request to stop is one more command in the queue of the writer. Over a sink that never fails, the sink ends
up with the blocks that the queue took before the first such command (`taken_at_end`). The queue goes on taking
blocks until the writer is gone: these calls get through as well, and their blocks are lost
(`accepted_behind_shutdown_lost`).
-/

namespace ChartStream

set_option autoImplicit false

namespace Sink

/-- No call of the sink fails. -/
structure Faults.Absent (f : Faults) : Prop where
  write : ∀ n, f.write n = false
  flush : ∀ n, f.flush n = false

@[simp] theorem faults_write (sink : Sink) (text : String) : (sink.write text).1.faults = sink.faults := by
  unfold write
  split <;> rfl

theorem write_of_absent {sink : Sink} (h : sink.faults.Absent) (text : String) :
    (sink.write text).2 = true := by
  simp [write, h.write]

theorem flush_of_absent {sink : Sink} (h : sink.faults.Absent) : sink.flush.2 = true := by
  simp [flush, h.flush]

end Sink

namespace Writer.System

/-! ## What a step leaves alone -/

theorem faults_step {s s' : System} (hstep : s.Step s') :
    s'.writer.sink.faults = s.writer.sink.faults := by
  cases hstep with
  | request caller command => rw [writer_request]
  | enqueue q hq hstage hopen hroom => rw [writer_enqueue]
  | receive command left hphase hqueue => cases command <;> rfl
  | write block hphase => exact s.writer.sink.faults_write block
  | flush number hphase => rcases s.flush_cases number with heq | ⟨q, -, report, -, heq⟩ <;> rw [heq] <;> rfl
  | _ => rfl

theorem faults_steps {s s' : System} (hsteps : s.Steps s') :
    s'.writer.sink.faults = s.writer.sink.faults := by
  induction hsteps with
  | refl => rfl
  | tail _ hstep ih => exact (faults_step hstep).trans ih

/-- Blocks are accepted behind those accepted before. -/
theorem accepted_step {s s' : System} (hstep : s.Step s') : s.accepted <+: s'.accepted := by
  cases hstep with
  | request caller command => simp only [accepted_request, List.prefix_rfl]
  | enqueue q hq hstage hopen hroom =>
    rw [accepted_enqueue]
    exact List.prefix_append _ _
  | receive command left hphase hqueue => cases command <;> exact List.prefix_rfl
  | flush number hphase =>
    have hkept : (s.flush number).accepted = s.accepted := by
      rcases s.flush_cases number with heq | ⟨q, -, report, -, heq⟩ <;>
        exact (congrArg System.accepted heq).trans rfl
    exact hkept ▸ List.prefix_rfl
  | _ => exact List.prefix_rfl

theorem accepted_steps {s s' : System} (hsteps : s.Steps s') : s.accepted <+: s'.accepted := by
  induction hsteps with
  | refl => exact List.prefix_rfl
  | tail _ hstep ih => exact ih.trans (accepted_step hstep)

/-! ## Calls that got through -/

/-- The block of every call that got through was accepted, and so was that of a call that is about to. -/
structure Acknowledged (s : System) : Prop where
  requests : ∀ q ∈ s.requests, q.stage = .accepted → ∀ block, q.command = .write block →
    (q.caller, block) ∈ s.accepted
  returned : ∀ a ∈ s.returned, a.2 = .ok () → ∀ block, a.1.command = .write block → block ≠ "" →
    (a.1.caller, block) ∈ s.accepted

theorem Acknowledged.give {s : System} (h : s.Acknowledged) (q : Request) {report : Report}
    (hq : report = .ok () → ∀ block, q.command = .write block → (q.caller, block) ∈ s.accepted) :
    (s.give q report).Acknowledged := by
  refine ⟨fun p hp => h.requests p (List.mem_of_mem_erase hp), fun a ha hok block hblock hfull => ?_⟩
  rcases List.mem_append.mp ha with ha | ha
  · exact h.returned a ha hok block hblock hfull
  · cases List.mem_singleton.mp ha
    exact hq hok block hblock

theorem acknowledged_step {s s' : System} (h : s.Acknowledged) (hstep : s.Step s') : s'.Acknowledged := by
  cases hstep with
  | request caller command =>
    refine ⟨fun q hq hstage => ?_, fun a ha hok block hblock hfull => ?_⟩
    · rw [accepted_request]
      rcases mem_requests_request hq with hq | ⟨-, rfl⟩
      · exact h.requests q hq hstage
      · cases hstage
    · rw [accepted_request]
      rcases mem_returned_request ha with ha | ⟨hempty, rfl⟩
      · exact h.returned a ha hok block hblock hfull
      · rw [hempty, Command.write.injEq] at hblock
        exact absurd hblock.symm hfull
  | enqueue q hq hstage hopen hroom =>
    have hkept := (accepted_step (.enqueue q hq hstage hopen hroom)).subset
    refine ⟨fun p hp hstage block hblock => ?_, fun a ha hok block hblock hfull => ?_⟩
    · rcases mem_requests_enqueue hp with hp | ⟨-, rfl⟩
      · exact hkept (h.requests p hp hstage block hblock)
      · rw [accepted_enqueue, hblock]
        exact List.mem_append_right _ (List.mem_singleton_self _)
    · rw [returned_enqueue, List.mem_append] at ha
      rcases ha with ha | ha
      · exact hkept (h.returned a ha hok block hblock hfull)
      · split at ha
        · next hshutdown =>
          cases List.mem_singleton.mp ha
          rw [hshutdown] at hblock
          cases hblock
        · cases ha
  | refuse q hq hstopped hwait => exact h.give q fun hok => by cases hok
  | count q block hq hstage hcommand =>
    have hcounted : System.Acknowledged
        { s with writer := { s.writer with blocksSent := s.writer.blocksSent + 1 } } :=
      ⟨h.requests, h.returned⟩
    exact hcounted.give q fun _ => h.requests q hq hstage
  | cancel q hq hwait => exact ⟨fun p hp => h.requests p (List.mem_of_mem_erase hp), h.returned⟩
  | receive command left hphase hqueue => cases command <;> exact ⟨h.requests, h.returned⟩
  | flush number hphase =>
    have hkept : System.Acknowledged
        { s with writer := { s.writer with sink := s.writer.sink.flush.1 }, phase := .receiving } :=
      ⟨h.requests, h.returned⟩
    rcases s.flush_cases number with heq | ⟨q, hq, report, ⟨hcommand, -⟩, heq⟩ <;> rw [heq]
    · exact hkept
    · refine hkept.give q fun _ block hblock => ?_
      rw [hcommand] at hblock
      cases hblock
  | _ => exact ⟨h.requests, h.returned⟩

theorem acknowledged_steps {w : Writer} {s : System} (hsteps : System.Steps { writer := w } s) :
    s.Acknowledged := by
  induction hsteps with
  | refl => exact ⟨by simp, by simp⟩
  | tail _ hstep ih => exact acknowledged_step ih hstep

/-! ## From the first request to stop on -/

/-- Nobody has asked the writer to stop, and it goes on. -/
def Unasked (s : System) : Prop :=
  s.phase.goesOn = true ∧ .shutdown ∉ s.writer.queue

/-- The writer was asked to stop. What the sink has taken by the time it does so are these blocks: those taken
already, the one in hand and those queued before the command. -/
def EndsWith (blocks : List String) (s : System) : Prop :=
  (s.phase.goesOn = false ∧ s.taken = blocks) ∨
    s.phase.goesOn = true ∧ ∃ before after, s.writer.queue = before ++ .shutdown :: after ∧
      .shutdown ∉ before ∧ s.taken ++ (s.phase.inHand ++ before.filterMap Command.block?) = blocks

/-- The command gets into the queue by a request or by the loss of the handle. -/
theorem asked_step {s asked : System} (hnone : .shutdown ∉ s.writer.queue) (hstep : s.Step asked)
    (hasked : .shutdown ∈ asked.writer.queue) :
    asked.phase = s.phase ∧ asked.taken = s.taken ∧ asked.writer.queue = s.writer.queue ++ [.shutdown] := by
  cases hstep with
  | request caller command => exact absurd (s.writer_request caller command ▸ hasked) hnone
  | enqueue q hq hstage hopen hroom =>
    rw [phase_enqueue, taken_enqueue, writer_enqueue]
    rw [writer_enqueue] at hasked
    rcases List.mem_append.mp hasked with hasked | hasked
    · exact absurd hasked hnone
    · rw [← List.mem_singleton.mp hasked]
      exact ⟨rfl, rfl, rfl⟩
  | dropHandle hclone hopen hroom => exact ⟨rfl, rfl, rfl⟩
  | receive command left hphase hqueue =>
    refine absurd ?_ hnone
    rw [hqueue]
    cases command <;> exact List.mem_cons_of_mem _ hasked
  | flush number hphase =>
    rcases s.flush_cases number with heq | ⟨q, -, report, -, heq⟩ <;> rw [heq] at hasked <;>
      exact absurd hasked hnone
  | close hphase => cases hasked
  | _ => exact absurd hasked hnone

theorem endsWith_of_asked {s asked : System} (hordered : s.Ordered) (hunasked : s.Unasked)
    (hstep : s.Step asked) (hasked : .shutdown ∈ asked.writer.queue) :
    asked.EndsWith (s.accepted.map (·.2)) := by
  obtain ⟨hgoes, hnone⟩ := hunasked
  obtain ⟨hphase, htaken, hqueue⟩ := asked_step hnone hstep hasked
  obtain ⟨rest, haccepted, hrest⟩ := hordered
  refine .inr ⟨hphase ▸ hgoes, s.writer.queue, [], hqueue, hnone, ?_⟩
  rw [hphase, htaken, haccepted, hrest hgoes]

/-- The next command is the request to stop itself, or it was queued before. -/
theorem endsWith_receive {blocks : List String} {s : System} {command : Command} {left : List Command}
    (hphase : s.phase = .receiving) (hreceived : s.writer.queue = command :: left) (h : s.EndsWith blocks) :
    (s.receive command left).EndsWith blocks := by
  rcases h with ⟨hgone, -⟩ | ⟨-, before, after, hqueue, hfirst, hblocks⟩
  · rw [hphase] at hgone
    cases hgone
  rw [hphase] at hblocks
  rw [hqueue] at hreceived
  cases before with
  | nil =>
    rw [List.nil_append, List.cons.injEq] at hreceived
    obtain ⟨rfl, rfl⟩ := hreceived
    have htaken : s.taken = blocks := by simpa [Phase.inHand] using hblocks
    exact .inl ⟨rfl, htaken⟩
  | cons first before =>
    rw [List.cons_append, List.cons.injEq] at hreceived
    obtain ⟨rfl, rfl⟩ := hreceived
    rw [List.mem_cons, not_or] at hfirst
    cases first with
    | shutdown => exact absurd rfl hfirst.1
    | write block => exact .inr ⟨rfl, before, after, rfl, hfirst.2, hblocks⟩
    | flush => exact .inr ⟨rfl, before, after, rfl, hfirst.2, hblocks⟩

theorem endsWith_step {blocks : List String} {s s' : System} (hfaults : s.writer.sink.faults.Absent)
    (h : s.EndsWith blocks) (hstep : s.Step s') : s'.EndsWith blocks := by
  rcases h with ⟨hgone, htaken⟩ | ⟨hgoes, before, after, hqueue, hfirst, hblocks⟩
  · obtain ⟨hstill, hsame⟩ := gone_step hgone hstep
    exact .inl ⟨hstill, hsame.trans htaken⟩
  cases hstep with
  | request caller command =>
    unfold System.request
    split <;> exact .inr ⟨hgoes, before, after, hqueue, hfirst, hblocks⟩
  | enqueue q hq hstage hopen hroom =>
    refine .inr ⟨by rwa [phase_enqueue], before, after ++ [q.command], ?_, hfirst, ?_⟩
    · rw [writer_enqueue, hqueue]
      simp
    · rwa [phase_enqueue, taken_enqueue]
  | dropHandle hclone hopen hroom =>
    refine .inr ⟨hgoes, before, after ++ [.shutdown], ?_, hfirst, hblocks⟩
    simp [push, hqueue]
  | receive command left hphase hreceived =>
    exact endsWith_receive hphase hreceived (.inr ⟨hgoes, before, after, hqueue, hfirst, hblocks⟩)
  | write block hphase =>
    rw [hphase] at hblocks
    have hwrite := Sink.write_of_absent hfaults block
    refine .inr ⟨?_, before, after, hqueue, hfirst, ?_⟩
    · rw [phase_write, hwrite]
      rfl
    · rw [phase_write, taken_write, hwrite, if_pos rfl, if_pos rfl, List.append_assoc]
      exact hblocks
  | settle hphase =>
    rw [hphase] at hblocks
    have hflush := Sink.flush_of_absent hfaults
    refine .inr ⟨?_, before, after, hqueue, hfirst, ?_⟩
    · rw [phase_settle, hflush]
      rfl
    · rw [phase_settle, hflush]
      exact hblocks
  | flush number hphase =>
    rw [hphase] at hblocks
    rcases s.flush_cases number with heq | ⟨q, -, report, -, heq⟩ <;> rw [heq] <;>
      exact .inr ⟨rfl, before, after, hqueue, hfirst, hblocks⟩
  | finish hphase =>
    rw [hphase] at hgoes
    cases hgoes
  | hangUp hphase hempty halone =>
    rw [hempty] at hqueue
    exact absurd hqueue.symm (List.append_ne_nil_of_right_ne_nil before (List.cons_ne_nil _ _))
  | close hphase =>
    rw [hphase] at hgoes
    cases hgoes
  | _ => exact .inr ⟨hgoes, before, after, hqueue, hfirst, hblocks⟩

theorem endsWith_steps {blocks : List String} {s s' : System} (hfaults : s.writer.sink.faults.Absent)
    (h : s.EndsWith blocks) (hsteps : s.Steps s') : s'.EndsWith blocks := by
  induction hsteps with
  | refl => exact h
  | tail hbefore hstep ih => exact endsWith_step (faults_steps hbefore ▸ hfaults) ih hstep

/-! ## What the sink holds in the end -/

/-- Once a writer that was asked to stop is gone, the sink holds the blocks accepted before the first request
to stop was queued, in their order: those of all calls that had got through by then, and none that was accepted
later. -/
theorem taken_at_end {capacity : Nat} {faults : Sink.Faults} (hfaults : faults.Absent) {w : Writer}
    (hw : Writer.ofSink? capacity { faults := faults } = some w) {s asked s' : System}
    (hbefore : System.Steps { writer := w } s) (hunasked : s.Unasked) (hstep : s.Step asked)
    (hasked : .shutdown ∈ asked.writer.queue) (hafter : asked.Steps s') (hstopped : s'.phase = .stopped) :
    s'.taken = s.accepted.map (·.2) ∧
      (∀ a ∈ s.returned, a.2 = .ok () → ∀ block, a.1.command = .write block → block ≠ "" →
        block ∈ s'.taken) ∧
      ∃ lost, s'.accepted = s.accepted ++ lost := by
  have hstart : w.sink.faults = faults := by
    unfold Writer.ofSink? at hw
    split at hw
    · rw [← Option.some.inj hw]
    · cases hw
  have hasked' : asked.writer.sink.faults = faults :=
    (faults_step hstep).trans ((faults_steps hbefore).trans hstart)
  have hend := endsWith_steps (hasked' ▸ hfaults)
    (endsWith_of_asked (kept_steps hw hbefore).1 hunasked hstep hasked) hafter
  have htaken : s'.taken = s.accepted.map (·.2) := by
    rcases hend with ⟨-, htaken⟩ | ⟨hgoes, -⟩
    · exact htaken
    · rw [hstopped] at hgoes
      cases hgoes
  refine ⟨htaken, fun a ha hok block hblock hfull => ?_, ?_⟩
  · rw [htaken]
    exact List.mem_map_of_mem ((acknowledged_steps hbefore).returned a ha hok block hblock hfull)
  · obtain ⟨lost, hlost⟩ := (accepted_step hstep).trans (accepted_steps hafter)
    exact ⟨lost, hlost.symm⟩

/-- A call that has the writer stop. -/
def stopping (number caller : Nat) : Request :=
  { number := number, caller := caller, command := .shutdown }

/-- The state that moves lead to, one after the other. -/
def after (s : System) (moves : List (System → System)) : System :=
  moves.foldl (fun s move => move s) s

/-- A call has got through, and another one is on its way when the writer is to be asked to stop. -/
def aboutToStop : System :=
  after { writer := { capacity := 2 } }
    [(·.request 0 (.write "A\n")), (·.enqueue (handing 0 0 "A\n")),
      (·.count { handing 0 0 "A\n" with stage := .accepted }), (·.receive (.write "A\n") []),
      (·.request 1 (.write "B\n")), (·.enqueue (handing 1 1 "B\n")), (·.request 2 .shutdown)]

/-- A third call comes after the writer is asked to stop. -/
theorem taken_at_end_three_calls :
    ∃ w s asked s', Sink.Faults.Absent {} ∧ Writer.ofSink? 2 {} = some w ∧ System.Steps { writer := w } s ∧
      s.Unasked ∧ s.Step asked ∧ .shutdown ∈ asked.writer.queue ∧ asked.Steps s' ∧ s'.phase = .stopped ∧
      s'.accepted = [(0, "A\n"), (1, "B\n"), (2, "C\n")] ∧ s'.taken = s.accepted.map (·.2) := by
  have hbefore : System.Steps { writer := { capacity := 2 } } aboutToStop :=
    (((((((Relation.ReflTransGen.refl.tail
      (.request 0 (.write "A\n") rfl)).tail
      (.enqueue (handing 0 0 "A\n") (by decide) rfl (by decide) (by decide))).tail
      (.count { handing 0 0 "A\n" with stage := .accepted } "A\n" (by decide) rfl rfl)).tail
      (.receive (.write "A\n") [] rfl rfl)).tail
      (.request 1 (.write "B\n") rfl)).tail
      (.enqueue (handing 1 1 "B\n") (by decide) rfl (by decide) (by decide))).tail
      (.request 2 .shutdown rfl))
  have hstep : aboutToStop.Step (aboutToStop.enqueue (stopping 2 2)) :=
    .enqueue (stopping 2 2) (by decide) rfl (by decide) (by decide)
  have hafter : (aboutToStop.enqueue (stopping 2 2)).Steps _ :=
    ((((((((((Relation.ReflTransGen.refl.tail
      (.write "A\n" rfl)).tail
      (.settle rfl)).tail
      (.receive (.write "B\n") [.shutdown] rfl rfl)).tail
      (.request 2 (.write "C\n") rfl)).tail
      (.enqueue (handing 3 2 "C\n") (by decide) rfl (by decide) (by decide))).tail
      (.write "B\n" rfl)).tail
      (.settle rfl)).tail
      (.receive .shutdown [.write "C\n"] rfl rfl)).tail
      (.finish rfl)).tail
      (.close rfl))
  have hfaults : Sink.Faults.Absent {} := ⟨fun _ => rfl, fun _ => rfl⟩
  have hw : Writer.ofSink? 2 {} = some { capacity := 2 } := rfl
  have hunasked : aboutToStop.Unasked := ⟨rfl, by decide⟩
  exact ⟨{ capacity := 2 }, aboutToStop, _, _, hfaults, hw, hbefore, hunasked, hstep, by decide, hafter, rfl, rfl,
    (taken_at_end hfaults hw hbefore hunasked hstep (by decide) hafter rfl).1⟩

/-- The sink has taken the block of every call that got through. -/
def KeepsAll (s : System) : Prop :=
  ∀ a ∈ s.returned, a.2 = .ok () → ∀ block, a.1.command = .write block → block ≠ "" → block ∈ s.taken

/-- Not every call that got through has its block taken by the time the request to stop has returned and the
writer is gone: the queue takes a block behind the request. -/
theorem accepted_behind_shutdown_lost :
    ¬ ∀ capacity w, Writer.ofSink? capacity {} = some w → ∀ s, System.Steps { writer := w } s →
      s.phase = .stopped → (∃ a ∈ s.returned, a.2 = .ok () ∧ a.1.command = .shutdown) → s.KeepsAll := by
  intro h
  have hsteps : System.Steps { writer := { capacity := 2 } } _ :=
    ((((((((Relation.ReflTransGen.refl.tail
      (.request 0 .shutdown rfl)).tail
      (.enqueue (stopping 0 0) (by decide) rfl (by decide) (by decide))).tail
      (.request 1 (.write "END\n") rfl)).tail
      (.enqueue (handing 1 1 "END\n") (by decide) rfl (by decide) (by decide))).tail
      (.count { handing 1 1 "END\n" with stage := .accepted } "END\n" (by decide) rfl rfl)).tail
      (.receive .shutdown [.write "END\n"] rfl rfl)).tail
      (.finish rfl)).tail
      (.close rfl))
  have hkeeps := h 2 { capacity := 2 } rfl _ hsteps rfl ⟨(stopping 0 0, .ok ()), List.mem_cons_self, rfl, rfl⟩
  have hlate := hkeeps ({ handing 1 1 "END\n" with stage := .accepted }, .ok ())
    (List.mem_cons_of_mem _ List.mem_cons_self) rfl "END\n" rfl (by decide)
  cases hlate

end Writer.System

end ChartStream
