import ChartStream.Proofs.WriterSteps

/-!
# The writer on its own as a schedule

`Writer.work`, `Writer.writeBlock`, `Writer.flush` and `Writer.shutdown` carry out commands one after the other.
What they do to the writer, some steps of the system do as well. So what holds after every step holds of them.
-/

namespace ChartStream.Writer.System

set_option autoImplicit false

/-- The writer is between two commands, or has stopped. -/
structure Rests (s : System) : Prop where
  between : (s.phase = .receiving ∧ s.writer.stopped = false) ∨
    (s.phase = .stopped ∧ s.writer.stopped = true ∧ s.writer.queue = [])
  capacity : 0 < s.writer.capacity
  bounded : s.writer.queue.length ≤ s.writer.capacity

/-- Steps of the writer alone: no call is made, and no block that waits is touched. -/
structure Works (s s' : System) : Prop where
  steps : s.Steps s'
  made : s'.made = s.made
  abandoned : s'.abandoned = s.abandoned
  capacity : s'.writer.capacity = s.writer.capacity
  kept : ∀ q ∈ s.requests, q.stage = .sending → q ∈ s'.requests

theorem Works.refl (s : System) : s.Works s :=
  ⟨.refl, rfl, rfl, rfl, fun _ hq _ => hq⟩

theorem Works.trans {s mid s' : System} (h1 : s.Works mid) (h2 : mid.Works s') : s.Works s' :=
  ⟨Relation.ReflTransGen.trans h1.steps h2.steps, h2.made.trans h1.made, h2.abandoned.trans h1.abandoned,
    h2.capacity.trans h1.capacity, fun q hq hstage => h2.kept q (h1.kept q hq hstage) hstage⟩

theorem works_perform {s : System} (hphase : s.phase = .receiving) (hopen : s.writer.stopped = false)
    {command : Command} {rest : List Command} (hqueue : s.writer.queue = command :: rest) :
    ∃ s', s.Works s' ∧ s'.writer = ({ s.writer with queue := rest }.perform command).1 ∧
      ((s'.phase = .receiving ∧ s'.writer.stopped = false ∧ s'.writer.queue = rest) ∨
        (s'.phase = .stopped ∧ s'.writer.stopped = true ∧ s'.writer.queue = [])) := by
  have hreceive := Step.receive command rest hphase hqueue
  cases command with
  | write block =>
    have hwrite := Step.write (s := s.receive (.write block) rest) block rfl
    cases htaken : (s.writer.sink.write block).2 with
    | false =>
      have hleaving : ((s.receive (.write block) rest).write block).phase = .leaving := by
        simp [receive, System.write, htaken]
      refine ⟨_, ⟨((Relation.ReflTransGen.single hreceive).tail hwrite).tail (.close hleaving), rfl, rfl, rfl,
        fun q hq _ => hq⟩, ?_, .inr ⟨rfl, rfl, rfl⟩⟩
      simp [System.close, System.write, receive, perform, htaken]
    | true =>
      have hsettling : ((s.receive (.write block) rest).write block).phase = .settling := by
        simp [receive, System.write, htaken]
      have hsettle := Step.settle hsettling
      cases hflushed : (s.writer.sink.write block).1.flush.2 with
      | true =>
        refine ⟨_, ⟨((Relation.ReflTransGen.single hreceive).tail hwrite).tail hsettle, rfl, rfl, rfl,
          fun q hq _ => hq⟩, ?_, .inl ⟨?_, hopen, rfl⟩⟩
        · simp [settle, System.write, receive, perform, htaken, hflushed]
        · simp [settle, System.write, receive, hflushed]
      | false =>
        have hleaving : ((s.receive (.write block) rest).write block).settle.phase = .leaving := by
          simp [settle, System.write, receive, hflushed]
        refine ⟨_, ⟨(((Relation.ReflTransGen.single hreceive).tail hwrite).tail hsettle).tail (.close hleaving),
          rfl, rfl, rfl, fun q hq _ => hq⟩, ?_, .inr ⟨rfl, rfl, rfl⟩⟩
        simp [System.close, settle, System.write, receive, perform, htaken, hflushed]
  | flush =>
    have hflush := Step.flush (s := s.receive .flush rest) s.waiting.head? rfl
    have hsteps := (Relation.ReflTransGen.single hreceive).tail hflush
    rcases (s.receive .flush rest).flush_cases s.waiting.head? with heq | ⟨q, -, report, ⟨-, hstage⟩, heq⟩
    · rw [heq] at hsteps
      exact ⟨_, ⟨hsteps, rfl, rfl, rfl, fun p hp _ => hp⟩, rfl, .inl ⟨rfl, hopen, rfl⟩⟩
    · rw [heq] at hsteps
      refine ⟨_, ⟨hsteps, rfl, rfl, rfl, fun p hp hsending => ?_⟩, rfl, .inl ⟨rfl, hopen, rfl⟩⟩
      have hother : p ≠ q := by
        rintro rfl
        rw [hsending] at hstage
        cases hstage
      exact (List.mem_erase_of_ne hother).mpr hp
  | shutdown =>
    have hfinish := Step.finish (s := s.receive .shutdown rest) rfl
    exact ⟨_, ⟨((Relation.ReflTransGen.single hreceive).tail hfinish).tail (.close rfl), rfl, rfl, rfl,
      fun q hq _ => hq⟩, rfl, .inr ⟨rfl, rfl, rfl⟩⟩

/-- Making room is one command if the queue is full, and none otherwise. -/
theorem works_makeRoom {s : System} (hrests : s.Rests) :
    ∃ s', s.Works s' ∧ s'.Rests ∧ s'.writer = s.writer.makeRoom ∧
      s'.writer.queue.length < s'.writer.capacity := by
  by_cases hroom : s.writer.queue.length < s.writer.capacity
  · exact ⟨s, .refl s, hrests, (if_pos hroom).symm, hroom⟩
  · cases hqueue : s.writer.queue with
    | nil =>
      rw [hqueue] at hroom
      exact absurd hrests.capacity hroom
    | cons command rest =>
      rcases hrests.between with ⟨hphase, hopen⟩ | ⟨-, -, hempty⟩
      · obtain ⟨s', hworks, hwriter, hafter⟩ := works_perform hphase hopen hqueue
        have hcapacity := hrests.capacity
        have hlength : rest.length < s.writer.capacity := by
          have hbounded := hrests.bounded
          rw [hqueue, List.length_cons] at hbounded
          omega
        have hmakeRoom : s'.writer = s.writer.makeRoom := by
          rw [hwriter, makeRoom, if_neg hroom, work, hqueue]
        rw [← hworks.capacity] at hcapacity hlength
        rcases hafter with ⟨hphase', hopen', hrest⟩ | ⟨hphase', hstopped, hnone⟩
        · refine ⟨s', hworks, ⟨.inl ⟨hphase', hopen'⟩, hcapacity, ?_⟩, hmakeRoom, hrest ▸ hlength⟩
          exact hrest ▸ Nat.le_of_lt hlength
        · refine ⟨s', hworks, ⟨.inr ⟨hphase', hstopped, hnone⟩, hcapacity, ?_⟩, hmakeRoom,
            hnone ▸ hcapacity⟩
          exact hnone ▸ Nat.zero_le _
      · rw [hempty] at hqueue
        cases hqueue

/-- Handing over a block is a schedule of the system, with the same report. -/
theorem steps_writeBlock {s : System} (hrests : s.Rests) (hclone : s.abandoned = false) (caller : Nat)
    (block : String) :
    ∃ s' q, s.Steps s' ∧ s'.Rests ∧ s'.writer = (s.writer.writeBlock block).1 ∧
      (q.number = s.made ∧ q.caller = caller ∧ q.command = .write block) ∧
      (q, (s.writer.writeBlock block).2) ∈ s'.returned := by
  let q : Request := { number := s.made, caller := caller, command := .write block }
  have hcall := Step.request (s := s) caller (.write block) hclone
  by_cases hempty : block = ""
  · subst hempty
    refine ⟨_, q, .single hcall, ?_, ?_, ⟨rfl, rfl, rfl⟩, ?_⟩
    · simpa [request] using ⟨hrests.between, hrests.capacity, hrests.bounded⟩
    · simp [request, writeBlock]
    · simp [request, writeBlock, q]
  · have hrequest : s.request caller (.write block) =
        { s with made := s.made + 1, requests := s.requests ++ [q] } := by
      simp [request, hempty, q]
    rw [hrequest] at hcall
    have hrests' : System.Rests { s with made := s.made + 1, requests := s.requests ++ [q] } :=
      ⟨hrests.between, hrests.capacity, hrests.bounded⟩
    obtain ⟨mid, hworks, hmid, hroom, hlength⟩ := works_makeRoom hrests'
    have hq : q ∈ mid.requests := hworks.kept q (by simp) rfl
    have hroom : mid.writer = s.writer.makeRoom := hroom
    have hfull : block.isEmpty = false := by simpa using hempty
    rcases hmid.between with ⟨hphase, hopen⟩ | ⟨hphase, hstopped, hnone⟩
    · -- The queue takes the block, and it is counted.
      have henqueue := Step.enqueue q hq rfl (by rw [hphase]; simp) hlength
      have haccepted : { q with stage := .accepted } ∈ (mid.enqueue q).requests := by
        simp [requests_enqueue, q]
      have hcount := Step.count { q with stage := .accepted } block haccepted rfl rfl
      refine ⟨_, { q with stage := .accepted }, ((hworks.steps.head hcall).tail henqueue).tail hcount,
        ⟨.inl ⟨hphase, hopen⟩, hmid.capacity, ?_⟩, ?_, ⟨rfl, rfl, rfl⟩, ?_⟩
      · simpa [System.count, give, enqueue, push, q] using Nat.succ_le_of_lt hlength
      · simp [System.count, give, enqueue, push, q, writeBlock, send, hfull, ← hroom, hopen]
      · have hreport : (s.writer.writeBlock block).2 = .ok () := by
          simp [writeBlock, send, hfull, ← hroom, hopen]
        rw [hreport]
        exact List.mem_append_right _ (List.mem_singleton_self _)
    · have hrefuse := Step.refuse q hq hphase (.inl rfl)
      refine ⟨_, q, (hworks.steps.head hcall).tail hrefuse, ⟨.inr ⟨hphase, hstopped, hnone⟩, hmid.capacity,
        hmid.bounded⟩, ?_, ⟨rfl, rfl, rfl⟩, ?_⟩
      · simp [give, writeBlock, send, hfull, ← hroom, hstopped]
      · have hreport : (s.writer.writeBlock block).2 = .error .closed := by
          simp [writeBlock, send, hfull, ← hroom, hstopped]
        rw [hreport]
        exact List.mem_append_right _ (List.mem_singleton_self _)

theorem steps_send {s : System} (hrests : s.Rests) (hclone : s.abandoned = false) (caller : Nat)
    {command : Command} (hcommand : command.block? = none) :
    ∃ s', s.Steps s' ∧ s'.Rests ∧ s'.writer = (s.writer.send command).1 := by
  let q : Request := { number := s.made, caller := caller, command := command }
  have hcall := Step.request (s := s) caller command hclone
  have hrequest : s.request caller command =
      { s with made := s.made + 1, requests := s.requests ++ [q] } := by
    refine if_neg fun hwrite => ?_
    rw [hwrite] at hcommand
    cases hcommand
  rw [hrequest] at hcall
  have hrests' : System.Rests { s with made := s.made + 1, requests := s.requests ++ [q] } :=
    ⟨hrests.between, hrests.capacity, hrests.bounded⟩
  obtain ⟨mid, hworks, hmid, hroom, hlength⟩ := works_makeRoom hrests'
  have hroom : mid.writer = s.writer.makeRoom := hroom
  have hq : q ∈ mid.requests := hworks.kept q (by simp) rfl
  rcases hmid.between with ⟨hphase, hopen⟩ | ⟨hphase, hstopped, hnone⟩
  · have henqueue := Step.enqueue q hq rfl (by rw [hphase]; simp) hlength
    refine ⟨_, (hworks.steps.head hcall).tail henqueue, ⟨.inl ⟨?_, ?_⟩, ?_, ?_⟩, ?_⟩
    · rw [phase_enqueue, hphase]
    · rw [writer_enqueue]
      exact hopen
    · rw [writer_enqueue]
      exact hmid.capacity
    · simpa using Nat.succ_le_of_lt hlength
    · rw [writer_enqueue, send, ← hroom, if_neg (by simp [hopen])]
  · have hrefuse := Step.refuse q hq hphase (.inl rfl)
    refine ⟨_, (hworks.steps.head hcall).tail hrefuse, ⟨.inr ⟨hphase, hstopped, hnone⟩, hmid.capacity,
      hmid.bounded⟩, ?_⟩
    simp [give, send, ← hroom, hstopped]

theorem perform_of_queue {w : Writer} (hopen : w.stopped = false) (command : Command) (rest : List Command) :
    ({ w with queue := rest }.perform command).1 =
      if (w.perform command).1.stopped then (w.perform command).1
      else { (w.perform command).1 with queue := rest } := by
  cases command with
  | write block =>
    cases htaken : (w.sink.write block).2 <;> cases hflushed : (w.sink.write block).1.flush.2 <;>
      simp [perform, htaken, hflushed, stop, hopen]
  | flush => simp [perform, hopen]
  | shutdown => simp [perform, stop]

theorem queue_perform {w : Writer} (hempty : w.queue = []) (command : Command) :
    (w.perform command).1.queue = [] := by
  cases command with
  | write block =>
    cases htaken : (w.sink.write block).2 <;> cases hflushed : (w.sink.write block).1.flush.2 <;>
      simp [perform, htaken, hflushed, stop, hempty]
  | flush => exact hempty
  | shutdown => rfl

theorem workThrough_of_stopped {w : Writer} (h : w.stopped = true) (report : Option Report)
    (commands : List Command) : (w.workThrough report commands).1 = w := by
  cases commands <;> simp [workThrough, h]

theorem works_workThrough (commands : List Command) {s : System} {w : Writer} (report : Option Report)
    (hbetween : (s.phase = .receiving ∧ s.writer.stopped = false) ∨
      (s.phase = .stopped ∧ s.writer.stopped = true ∧ s.writer.queue = []))
    (hw : s.writer = { w with queue := commands }) (hempty : w.queue = []) :
    ∃ s', s.Works s' ∧ s'.writer = (w.workThrough report commands).1 := by
  induction commands generalizing s w report with
  | nil =>
    refine ⟨s, .refl s, ?_⟩
    rw [hw, workThrough, ← hempty]
  | cons command rest ih =>
    rcases hbetween with ⟨hphase, hopen⟩ | ⟨-, -, hnone⟩
    · have hopen' : w.stopped = false := by rwa [hw] at hopen
      obtain ⟨mid, hworks, hwriter, hafter⟩ := works_perform hphase hopen (by rw [hw])
      have hperform : mid.writer = if (w.perform command).1.stopped then (w.perform command).1
          else { (w.perform command).1 with queue := rest } := by
        rw [hwriter, hw]
        exact perform_of_queue hopen' command rest
      have hthrough : (w.workThrough report (command :: rest)).1 =
          ((w.perform command).1.workThrough ((w.perform command).2 <|> report) rest).1 := by
        rw [workThrough, if_neg (by simp [hopen'])]
      rw [hthrough]
      cases hstopped : (w.perform command).1.stopped with
      | true =>
        rw [if_pos hstopped] at hperform
        exact ⟨mid, hworks, by rw [hperform, workThrough_of_stopped hstopped]⟩
      | false =>
        rw [if_neg (by simp [hstopped])] at hperform
        have hbetween : (mid.phase = .receiving ∧ mid.writer.stopped = false) ∨
            (mid.phase = .stopped ∧ mid.writer.stopped = true ∧ mid.writer.queue = []) :=
          hafter.imp_left fun h => ⟨h.1, h.2.1⟩
        obtain ⟨s', hmore, hwriter'⟩ := ih _ hbetween hperform (queue_perform hempty command)
        exact ⟨s', hworks.trans hmore, hwriter'⟩
    · rw [hw] at hnone
      cases hnone

theorem works_drain {s : System} (hrests : s.Rests) : ∃ s', s.Works s' ∧ s'.writer = s.writer.drain.1 := by
  have hqueue : s.writer = { { s.writer with queue := [] } with queue := s.writer.queue } := rfl
  exact works_workThrough s.writer.queue none hrests.between hqueue rfl

/-- Flushing does to the writer what a schedule of the system does. -/
theorem steps_flush {s : System} (hrests : s.Rests) (hclone : s.abandoned = false) (caller : Nat) :
    ∃ s', s.Steps s' ∧ s'.writer = s.writer.flush.1 := by
  have hblock : Command.flush.block? = none := rfl
  obtain ⟨mid, hsteps, hmid, hwriter⟩ := steps_send hrests hclone caller hblock
  cases hsend : s.writer.send .flush with
  | mk w report =>
    rw [hsend] at hwriter
    cases report with
    | error e => exact ⟨mid, hsteps, by rw [hwriter, Writer.flush, hsend]⟩
    | ok _ =>
      obtain ⟨s', hworks, hdrained⟩ := works_drain hmid
      exact ⟨s', hsteps.trans hworks.steps, by rw [hdrained, hwriter, Writer.flush, hsend]⟩

/-- Having the writer stop does to it what a schedule of the system does. -/
theorem steps_shutdown {s : System} (hrests : s.Rests) (hclone : s.abandoned = false) (caller : Nat) :
    ∃ s', s.Steps s' ∧ s'.writer = s.writer.shutdown := by
  have hblock : Command.shutdown.block? = none := rfl
  obtain ⟨mid, hsteps, hmid, hwriter⟩ := steps_send hrests hclone caller hblock
  obtain ⟨s', hworks, hdrained⟩ := works_drain hmid
  exact ⟨s', hsteps.trans hworks.steps, by rw [hdrained, hwriter, shutdown]⟩

end ChartStream.Writer.System
