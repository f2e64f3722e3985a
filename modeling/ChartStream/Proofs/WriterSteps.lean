import ChartStream.Output.Writer
import Mathlib.Data.List.Basic
import Mathlib.Data.List.Count
import Mathlib.Logic.Relation

/-!
# The writer among its callers

The writer and all calls in progress as one system that takes one step at a time, in any order: calls are
made, wait for room in the queue, are refused or given up, while the writer takes a command off its queue,
hands a block to the sink, flushes it and goes on or stops. Main definitions: `System`, `System.Step`. Main
result: `System.delivers`.
-/

namespace ChartStream.Writer

set_option autoImplicit false

/-! ## The system -/

/-- How far a request has come. -/
inductive Request.Stage where
  /-- The command waits for room in the queue. -/
  | sending
  /-- The queue has taken the command. A block is still to be counted, a flush to be reported. -/
  | accepted
  deriving DecidableEq, Repr

/-- A call of a clone of the writer that is in progress. Calls are numbered as they are made. -/
structure Request where
  number : Nat
  caller : Nat
  command : Command
  stage : Request.Stage := .sending
  deriving DecidableEq, Repr

/-- Where the writer is in its loop. -/
inductive Phase where
  | receiving
  /-- It has taken a block off the queue. -/
  | writing (block : String)
  /-- The sink has taken the block and is to be flushed. -/
  | settling
  /-- It has taken a request to flush off the queue, of the call with the number. -/
  | flushing (number : Option Nat)
  /-- It was asked to stop and flushes the sink before. -/
  | ending
  /-- It has left the loop and still holds the queue. -/
  | leaving
  | stopped
  deriving DecidableEq, Repr

/-- The writer with the calls in progress. -/
structure System where
  writer : Writer
  phase : Phase := .receiving
  /-- The calls whose requests to flush are in the queue, in its order. -/
  waiting : List Nat := []
  requests : List Request := []
  /-- How many calls have been made. -/
  made : Nat := 0
  /-- The calls that have returned, with what they returned. -/
  returned : List (Request × Report) := []
  /-- The blocks that the queue has taken, each with its caller. -/
  accepted : List (Nat × String) := []
  /-- No clone of the writer is left. -/
  abandoned : Bool := false

namespace System

/-- A call returns. -/
def give (s : System) (q : Request) (report : Report) : System :=
  { s with requests := s.requests.erase q, returned := s.returned ++ [(q, report)] }

/-- A call is made. That of an empty block returns at once. -/
def request (s : System) (caller : Nat) (command : Command) : System :=
  let q : Request := { number := s.made, caller := caller, command := command }
  if command = .write "" then
    { s with made := s.made + 1, returned := s.returned ++ [(q, .ok ())] }
  else { s with made := s.made + 1, requests := s.requests ++ [q] }

/-- The queue takes a command. -/
def push (s : System) (command : Command) : System :=
  { s with writer := { s.writer with queue := s.writer.queue ++ [command] } }

/-- The queue takes the command of a call. The call waits for more unless it has the writer stop. -/
def enqueue (s : System) (q : Request) : System :=
  match q.command with
  | .write block =>
    { s.push (.write block) with
      requests := s.requests.erase q ++ [{ q with stage := .accepted }]
      accepted := s.accepted ++ [(q.caller, block)] }
  | .flush =>
    { s.push .flush with
      requests := s.requests.erase q ++ [{ q with stage := .accepted }]
      waiting := s.waiting ++ [q.number] }
  | .shutdown => (s.push .shutdown).give q (.ok ())

/-- A block that the queue has taken is counted, and its call returns. -/
def count (s : System) (q : Request) : System :=
  { s with writer := { s.writer with blocksSent := s.writer.blocksSent + 1 } }.give q (.ok ())

/-- The writer takes a command off its queue, which leaves `rest`. -/
def receive (s : System) (command : Command) (rest : List Command) : System :=
  let s := { s with writer := { s.writer with queue := rest } }
  match command with
  | .write block => { s with phase := .writing block }
  | .flush => { s with phase := .flushing s.waiting.head?, waiting := s.waiting.tail }
  | .shutdown => { s with phase := .ending }

/-- The writer hands its block to the sink. -/
def write (s : System) (block : String) : System :=
  let (sink, taken) := s.writer.sink.write block
  { s with
    writer := { s.writer with sink := sink }
    phase := if taken then .settling else .leaving }

/-- The writer flushes the sink after a block. -/
def settle (s : System) : System :=
  let (sink, flushed) := s.writer.sink.flush
  { s with
    writer := { s.writer with sink := sink }
    phase := if flushed then .receiving else .leaving }

/-- The writer flushes the sink for a call and reports, if the call has not been given up. -/
def flush (s : System) (number : Option Nat) : System :=
  let (sink, flushed) := s.writer.sink.flush
  let report := if flushed then .ok () else .error (.sink s.writer.sink.faults.reason)
  let s := { s with writer := { s.writer with sink := sink }, phase := .receiving }
  match s.requests.find? fun q =>
      some q.number = number ∧ q.command = .flush ∧ q.stage = .accepted with
  | some q => s.give q report
  | none => s

/-- The writer flushes the sink before it stops. -/
def finish (s : System) : System :=
  { s with writer := { s.writer with sink := s.writer.sink.flush.1 }, phase := .leaving }

/-- The writer is gone, and with it what is queued. -/
def close (s : System) : System :=
  { s with writer := s.writer.stop, phase := .stopped, waiting := [] }

/-- One step. A call can be given up while it waits, but not between the acceptance of its block and the
count. -/
inductive Step (s : System) : System → Prop
  | request (caller : Nat) (command : Command) (hclone : s.abandoned = false) :
      Step s (s.request caller command)
  | enqueue (q : Request) (hq : q ∈ s.requests) (hstage : q.stage = .sending) (hopen : s.phase ≠ .stopped)
      (hroom : s.writer.queue.length < s.writer.capacity) : Step s (s.enqueue q)
  | refuse (q : Request) (hq : q ∈ s.requests) (hstopped : s.phase = .stopped)
      (hwait : q.stage = .sending ∨ q.command = .flush) : Step s (s.give q (.error .closed))
  | count (q : Request) (block : String) (hq : q ∈ s.requests) (hstage : q.stage = .accepted)
      (hcommand : q.command = .write block) : Step s (s.count q)
  | cancel (q : Request) (hq : q ∈ s.requests) (hwait : q.stage = .sending ∨ q.command = .flush) :
      Step s { s with requests := s.requests.erase q }
  /-- The handle of the writer goes, and asks it to stop if there is room. -/
  | dropHandle (hclone : s.abandoned = false) (hopen : s.phase ≠ .stopped)
      (hroom : s.writer.queue.length < s.writer.capacity) : Step s (s.push .shutdown)
  | abandon (hrequests : s.requests = []) : Step s { s with abandoned := true }
  | receive (command : Command) (rest : List Command) (hphase : s.phase = .receiving)
      (hqueue : s.writer.queue = command :: rest) : Step s (s.receive command rest)
  | write (block : String) (hphase : s.phase = .writing block) : Step s (s.write block)
  | settle (hphase : s.phase = .settling) : Step s s.settle
  | flush (number : Option Nat) (hphase : s.phase = .flushing number) : Step s (s.flush number)
  | finish (hphase : s.phase = .ending) : Step s s.finish
  | hangUp (hphase : s.phase = .receiving) (hqueue : s.writer.queue = []) (halone : s.abandoned = true) :
      Step s { s with phase := .leaving }
  | close (hphase : s.phase = .leaving) : Step s s.close

/-- Any number of steps. -/
def Steps : System → System → Prop :=
  Relation.ReflTransGen Step

/-- The texts that the sink has taken. -/
def taken (s : System) : List String :=
  s.writer.sink.taken

end System

/-! ## The invariant -/

/-- The block that the writer holds. -/
def Phase.inHand : Phase → List String
  | .writing block => [block]
  | _ => []

/-- The writer is going to take what is queued. -/
def Phase.goesOn : Phase → Bool
  | .ending => false
  | .leaving => false
  | .stopped => false
  | _ => true

/-- The block that a command hands over. -/
def Command.block? : Command → Option String
  | .write block => some block
  | _ => none

/-- The block of the request is in the queue and has not been counted. -/
def Request.uncounted (q : Request) : Bool :=
  q.stage = .accepted && q.command.block?.isSome

namespace System

/-- What the sink has taken are the first accepted blocks. As long as the writer goes on, the others are the
block in hand and the queued ones. -/
def Ordered (s : System) : Prop :=
  ∃ rest, s.accepted.map (·.2) = s.taken ++ rest ∧
    (s.phase.goesOn = true → rest = s.phase.inHand ++ s.writer.queue.filterMap Command.block?)

/-- The accepted blocks are those counted and those of calls that are about to count theirs. -/
def Counted (s : System) : Prop :=
  s.accepted.length = s.writer.blocksSent + s.requests.countP Request.uncounted

/-- Calls have the numbers of calls that were made, and blocks are not empty. -/
def Numbered (s : System) : Prop :=
  (∀ q ∈ s.requests, q.number < s.made ∧ q.command ≠ .write "") ∧
    (∀ a ∈ s.returned, a.1.number < s.made) ∧ ∀ b ∈ s.accepted, b.2 ≠ ""

/-- The writer has stopped if it is gone. -/
def Halted (s : System) : Prop :=
  s.writer.stopped = true ↔ s.phase = .stopped

@[simp] theorem phase_enqueue (s : System) (q : Request) : (s.enqueue q).phase = s.phase := by
  unfold enqueue
  cases q.command <;> rfl

@[simp] theorem writer_enqueue (s : System) (q : Request) :
    (s.enqueue q).writer = { s.writer with queue := s.writer.queue ++ [q.command] } := by
  unfold enqueue
  cases q.command <;> rfl

@[simp] theorem taken_enqueue (s : System) (q : Request) : (s.enqueue q).taken = s.taken := by
  rw [taken, writer_enqueue]
  rfl

@[simp] theorem accepted_enqueue (s : System) (q : Request) :
    (s.enqueue q).accepted = s.accepted ++ (q.command.block?.map (q.caller, ·)).toList := by
  unfold enqueue
  cases q.command <;> simp [Command.block?, push, give]

@[simp] theorem made_enqueue (s : System) (q : Request) : (s.enqueue q).made = s.made := by
  unfold enqueue
  cases q.command <;> rfl

@[simp] theorem abandoned_enqueue (s : System) (q : Request) : (s.enqueue q).abandoned = s.abandoned := by
  unfold enqueue
  cases q.command <;> rfl

/-- The calls in progress after one of them was admitted: it waits for more or has returned. -/
theorem requests_enqueue (s : System) (q : Request) :
    (s.enqueue q).requests = s.requests.erase q ++
      if q.command = .shutdown then [] else [{ q with stage := .accepted }] := by
  unfold enqueue
  cases q.command <;> simp [push, give]

theorem mem_requests_enqueue {s : System} {p q : Request} (h : p ∈ (s.enqueue q).requests) :
    p ∈ s.requests ∨ q.command ≠ .shutdown ∧ p = { q with stage := .accepted } := by
  rw [requests_enqueue, List.mem_append] at h
  rcases h with h | h
  · exact .inl (List.mem_of_mem_erase h)
  · split at h
    · cases h
    · next hcommand => exact .inr ⟨hcommand, List.mem_singleton.mp h⟩

theorem mem_requests_request {s : System} {caller : Nat} {command : Command} {q : Request}
    (h : q ∈ (s.request caller command).requests) :
    q ∈ s.requests ∨
      command ≠ .write "" ∧ q = { number := s.made, caller := caller, command := command } := by
  unfold request at h
  split at h
  · exact .inl h
  · next hfull =>
    rcases List.mem_append.mp h with h | h
    · exact .inl h
    · exact .inr ⟨hfull, List.mem_singleton.mp h⟩

theorem mem_returned_request {s : System} {caller : Nat} {command : Command} {a : Request × Report}
    (h : a ∈ (s.request caller command).returned) :
    a ∈ s.returned ∨ command = .write "" ∧
      a = ({ number := s.made, caller := caller, command := command }, .ok ()) := by
  unfold request at h
  split at h
  · next hempty =>
    rcases List.mem_append.mp h with h | h
    · exact .inl h
    · exact .inr ⟨hempty, List.mem_singleton.mp h⟩
  · exact .inl h

@[simp] theorem accepted_request (s : System) (caller : Nat) (command : Command) :
    (s.request caller command).accepted = s.accepted := by
  unfold request
  split <;> rfl

@[simp] theorem phase_request (s : System) (caller : Nat) (command : Command) :
    (s.request caller command).phase = s.phase := by
  unfold request
  split <;> rfl

@[simp] theorem writer_request (s : System) (caller : Nat) (command : Command) :
    (s.request caller command).writer = s.writer := by
  unfold request
  split <;> rfl

@[simp] theorem abandoned_request (s : System) (caller : Nat) (command : Command) :
    (s.request caller command).abandoned = s.abandoned := by
  unfold request
  split <;> rfl

@[simp] theorem made_request (s : System) (caller : Nat) (command : Command) :
    (s.request caller command).made = s.made + 1 := by
  unfold request
  split <;> rfl

theorem mem_accepted_enqueue {s : System} {q : Request} {b : Nat × String} (h : b ∈ (s.enqueue q).accepted) :
    b ∈ s.accepted ∨ b.1 = q.caller ∧ q.command = .write b.2 := by
  rw [accepted_enqueue, List.mem_append] at h
  rcases h with h | h
  · exact .inl h
  · cases hcommand : q.command with
    | write block =>
      rw [hcommand] at h
      cases List.mem_singleton.mp h
      exact .inr ⟨rfl, rfl⟩
    | flush =>
      rw [hcommand] at h
      cases h
    | shutdown =>
      rw [hcommand] at h
      cases h

theorem returned_enqueue (s : System) (q : Request) :
    (s.enqueue q).returned = s.returned ++ if q.command = .shutdown then [(q, .ok ())] else [] := by
  unfold enqueue
  cases q.command <;> simp [push, give]

theorem phase_settle (s : System) :
    s.settle.phase = if s.writer.sink.flush.2 then .receiving else .leaving := rfl

theorem taken_write (s : System) (block : String) :
    (s.write block).taken = if (s.writer.sink.write block).2 then s.taken ++ [block] else s.taken :=
  s.writer.sink.taken_write block

theorem phase_write (s : System) (block : String) :
    (s.write block).phase = if (s.writer.sink.write block).2 then .settling else .leaving := rfl

/-- The report of a flush leaves all but the calls as it is. -/
theorem flush_cases (s : System) (number : Option Nat) :
    s.flush number = { s with writer := { s.writer with sink := s.writer.sink.flush.1 }, phase := .receiving } ∨
      ∃ q ∈ s.requests, ∃ report, (q.command = .flush ∧ q.stage = .accepted) ∧ s.flush number =
        { s with writer := { s.writer with sink := s.writer.sink.flush.1 }, phase := .receiving }.give q
          report := by
  unfold flush
  dsimp only
  split
  · next q hfind =>
    have hq := List.find?_some hfind
    exact .inr ⟨q, List.mem_of_find?_eq_some hfind, _, (of_decide_eq_true hq).2, rfl⟩
  · exact .inl rfl

theorem ordered_step {s s' : System} (h : s.Ordered) (hstep : s.Step s') : s'.Ordered := by
  obtain ⟨rest, haccepted, hrest⟩ := h
  cases hstep with
  | request caller command =>
    unfold System.request
    split <;> exact ⟨rest, haccepted, hrest⟩
  | enqueue q hq hstage hopen hroom =>
    refine ⟨rest ++ q.command.block?.toList, ?_, fun hgoes => ?_⟩
    · rw [accepted_enqueue, taken_enqueue, List.map_append, haccepted, List.append_assoc]
      cases q.command.block? <;> rfl
    · rw [phase_enqueue] at hgoes ⊢
      rw [writer_enqueue, hrest hgoes, List.filterMap_append, List.append_assoc]
      cases hblock : q.command.block? <;> simp [hblock]
  | refuse q hq hstopped hwait => exact ⟨rest, haccepted, hrest⟩
  | count q block hq hstage hcommand => exact ⟨rest, haccepted, hrest⟩
  | cancel q hq hwait => exact ⟨rest, haccepted, hrest⟩
  | dropHandle hclone hopen hroom =>
    refine ⟨rest, haccepted, fun hgoes => ?_⟩
    have hkept := hrest hgoes
    simp [hkept, push, Command.block?]
  | abandon hrequests => exact ⟨rest, haccepted, hrest⟩
  | receive command left hphase hqueue =>
    have hkept := hrest (by rw [hphase]; rfl)
    rw [hphase, hqueue] at hkept
    cases command with
    | write block => exact ⟨rest, haccepted, fun _ => hkept⟩
    | flush => exact ⟨rest, haccepted, fun _ => hkept⟩
    | shutdown => exact ⟨rest, haccepted, fun hgoes => by cases hgoes⟩
  | write block hphase =>
    have hkept := hrest (by rw [hphase]; rfl)
    rw [hphase] at hkept
    cases hwrite : (s.writer.sink.write block).2 with
    | true =>
      refine ⟨s.writer.queue.filterMap Command.block?, ?_, fun _ => ?_⟩
      · rw [taken_write, hwrite, if_pos rfl, List.append_assoc]
        exact hkept ▸ haccepted
      · rw [phase_write, hwrite]
        rfl
    | false =>
      refine ⟨rest, ?_, fun hgoes => ?_⟩
      · rw [taken_write, hwrite]
        exact haccepted
      · rw [phase_write, hwrite] at hgoes
        cases hgoes
  | settle hphase =>
    have hkept := hrest (by rw [hphase]; rfl)
    rw [hphase] at hkept
    refine ⟨rest, haccepted, fun hgoes => ?_⟩
    cases hflush : s.writer.sink.flush.2 with
    | true =>
      rw [phase_settle, hflush]
      exact hkept
    | false =>
      rw [phase_settle, hflush] at hgoes
      cases hgoes
  | flush number hphase =>
    have hkept := hrest (by rw [hphase]; rfl)
    rw [hphase] at hkept
    rcases s.flush_cases number with heq | ⟨q, -, report, -, heq⟩ <;> rw [heq]
    · exact ⟨rest, haccepted, fun _ => hkept⟩
    · exact ⟨rest, haccepted, fun _ => hkept⟩
  | finish hphase => exact ⟨rest, haccepted, fun hgoes => by cases hgoes⟩
  | hangUp hphase hqueue halone => exact ⟨rest, haccepted, fun hgoes => by cases hgoes⟩
  | close hphase => exact ⟨rest, haccepted, fun hgoes => by cases hgoes⟩

theorem Counted.erase {s : System} (h : s.Counted) {q : Request} (hwait : q.stage = .sending ∨ q.command = .flush) :
    s.accepted.length = s.writer.blocksSent + (s.requests.erase q).countP Request.uncounted := by
  have hcounted : q.uncounted = false := by
    rcases hwait with hwait | hwait <;> simp [Request.uncounted, hwait, Command.block?]
  rw [List.countP_erase, hcounted, h]
  simp

theorem counted_step {s s' : System} (h : s.Counted) (hstep : s.Step s') : s'.Counted := by
  cases hstep with
  | request caller command =>
    unfold Counted at h ⊢
    unfold System.request
    split
    · exact h
    · simpa [List.countP_append, Request.uncounted] using h
  | enqueue q hq hstage hopen hroom =>
    have hkept := h.erase (.inl hstage)
    unfold Counted
    rw [accepted_enqueue, writer_enqueue, requests_enqueue, List.length_append, List.countP_append, hkept]
    cases q.command <;> simp [Command.block?, Request.uncounted]
    omega
  | refuse q hq hstopped hwait => exact h.erase hwait
  | count q block hq hstage hcommand =>
    have hcounted : q.uncounted = true := by simp [Request.uncounted, hstage, hcommand, Command.block?]
    have hpos : 0 < s.requests.countP Request.uncounted := List.countP_pos_iff.mpr ⟨q, hq, hcounted⟩
    change s.accepted.length = s.writer.blocksSent + 1 + (s.requests.erase q).countP Request.uncounted
    rw [h, List.countP_erase, if_pos ⟨hq, hcounted⟩]
    omega
  | cancel q hq hwait => exact h.erase hwait
  | receive command left hphase hqueue => cases command <;> exact h
  | flush number hphase =>
    rcases s.flush_cases number with heq | ⟨q, -, report, ⟨hcommand, -⟩, heq⟩ <;> rw [heq]
    · exact h
    · exact h.erase (.inr hcommand)
  | _ => exact h

theorem Numbered.give {s : System} (h : s.Numbered) {q : Request} (hq : q ∈ s.requests) (report : Report) :
    (s.give q report).Numbered := by
  refine ⟨fun p hp => h.1 p (List.mem_of_mem_erase hp), fun a ha => ?_, h.2.2⟩
  rcases List.mem_append.mp ha with ha | ha
  · exact h.2.1 a ha
  · cases List.mem_singleton.mp ha
    exact (h.1 q hq).1

theorem numbered_step {s s' : System} (h : s.Numbered) (hstep : s.Step s') : s'.Numbered := by
  cases hstep with
  | request caller command =>
    have hmore : ∀ n, n < s.made → n < s.made + 1 := fun n hn => Nat.lt_succ_of_lt hn
    refine ⟨fun q hq => ?_, fun a ha => ?_, fun b hb => ?_⟩
    · rw [made_request]
      rcases mem_requests_request hq with hq | ⟨hfull, rfl⟩
      · exact ⟨hmore _ (h.1 q hq).1, (h.1 q hq).2⟩
      · exact ⟨Nat.lt_succ_self s.made, hfull⟩
    · rw [made_request]
      rcases mem_returned_request ha with ha | ⟨-, rfl⟩
      · exact hmore _ (h.2.1 a ha)
      · exact Nat.lt_succ_self s.made
    · exact h.2.2 b (accepted_request s caller command ▸ hb)
  | enqueue q hq hstage hopen hroom =>
    obtain ⟨hnumber, hfull⟩ := h.1 q hq
    refine ⟨fun p hp => ?_, fun a ha => ?_, fun b hb => ?_⟩
    · rw [made_enqueue]
      rcases mem_requests_enqueue hp with hp | ⟨-, rfl⟩
      · exact h.1 p hp
      · exact ⟨hnumber, hfull⟩
    · rw [made_enqueue]
      rw [returned_enqueue, List.mem_append] at ha
      rcases ha with ha | ha
      · exact h.2.1 a ha
      · split at ha
        · cases List.mem_singleton.mp ha
          exact hnumber
        · cases ha
    · rcases mem_accepted_enqueue hb with hb | ⟨-, hblock⟩
      · exact h.2.2 b hb
      · exact fun hempty => hfull (by rw [hblock, hempty])
  | refuse q hq hstopped hwait => exact h.give hq _
  | count q block hq hstage hcommand => exact h.give hq (.ok ())
  | cancel q hq hwait =>
    exact ⟨fun p hp => h.1 p (List.mem_of_mem_erase hp), h.2.1, h.2.2⟩
  | receive command left hphase hqueue => cases command <;> exact h
  | flush number hphase =>
    rcases s.flush_cases number with heq | ⟨q, hq, report, -, heq⟩ <;> rw [heq]
    · exact h
    · exact h.give hq report
  | _ => exact h

theorem halted_step {s s' : System} (h : s.Halted) (hstep : s.Step s') : s'.Halted := by
  -- A step of the writer begins and ends in a phase in which it has not stopped.
  have hrunning : ∀ phase, s.phase = phase → phase ≠ .stopped → s.writer.stopped = false := by
    intro phase hphase hne
    rw [Bool.eq_false_iff]
    exact fun hstopped => hne (hphase ▸ h.mp hstopped)
  cases hstep with
  | request caller command =>
    unfold System.request
    split <;> exact h
  | enqueue q hq hstage hopen hroom =>
    rw [Halted, writer_enqueue, phase_enqueue]
    exact h
  | receive command left hphase hqueue =>
    have hstopped := hrunning _ hphase (by simp)
    cases command <;> simp [Halted, System.receive, hstopped]
  | write block hphase =>
    have hstopped := hrunning _ hphase (by simp)
    cases hwrite : (s.writer.sink.write block).2 <;> simp [Halted, System.write, hstopped, hwrite]
  | settle hphase =>
    have hstopped := hrunning _ hphase (by simp)
    cases hflush : s.writer.sink.flush.2 <;> simp [Halted, System.settle, hstopped, hflush]
  | flush number hphase =>
    have hstopped := hrunning _ hphase (by simp)
    rcases s.flush_cases number with heq | ⟨q, hq, report, -, heq⟩ <;> rw [heq] <;>
      simp [Halted, give, hstopped]
  | finish hphase => simp [Halted, System.finish, hrunning _ hphase (by simp)]
  | hangUp hphase hqueue halone => simp [Halted, hrunning _ hphase (by simp)]
  | close hphase => simp [Halted, System.close, stop]
  | _ => exact h

/-! ## After a failure and after the end -/

theorem gone_step {s s' : System} (h : s.phase.goesOn = false) (hstep : s.Step s') :
    s'.phase.goesOn = false ∧ s'.taken = s.taken := by
  cases hstep with
  | request caller command =>
    unfold System.request
    split <;> exact ⟨h, rfl⟩
  | enqueue q hq hstage hopen hroom =>
    rw [phase_enqueue, taken_enqueue]
    exact ⟨h, rfl⟩
  | finish hphase => exact ⟨rfl, rfl⟩
  | close hphase => exact ⟨rfl, rfl⟩
  | receive command left hphase hqueue =>
    rw [hphase] at h
    cases h
  | write block hphase =>
    rw [hphase] at h
    cases h
  | settle hphase =>
    rw [hphase] at h
    cases h
  | flush number hphase =>
    rw [hphase] at h
    cases h
  | hangUp hphase hqueue halone =>
    rw [hphase] at h
    cases h
  | _ => exact ⟨h, rfl⟩

theorem gone_steps {s s' : System} (h : s.phase.goesOn = false) (hsteps : s.Steps s') :
    s'.taken = s.taken := by
  have hboth : s'.phase.goesOn = false ∧ s'.taken = s.taken := by
    induction hsteps with
    | refl => exact ⟨h, rfl⟩
    | tail _ hstep ih =>
      obtain ⟨hgone, htaken⟩ := gone_step ih.1 hstep
      exact ⟨hgone, htaken.trans ih.2⟩
  exact hboth.2

/-- The writer has stopped, and of the calls from `first` on none has come further than to wait, nor has any
got through with a block. -/
def Refusing (first : Nat) (s : System) : Prop :=
  s.phase = .stopped ∧ (∀ q ∈ s.requests, first ≤ q.number → q.stage = .sending) ∧
    ∀ a ∈ s.returned, first ≤ a.1.number → ∀ block, a.1.command = .write block → block ≠ "" →
      a.2 = .error .closed

theorem refusing_step {first : Nat} {s s' : System} (h : s.Refusing first) (hstep : s.Step s') :
    s'.Refusing first ∧ s'.accepted = s.accepted := by
  obtain ⟨hphase, hwaiting, hrefused⟩ := h
  cases hstep with
  | request caller command =>
    refine ⟨⟨by rw [phase_request, hphase], fun q hq hlate => ?_, fun a ha hlate block hblock hfull => ?_⟩,
      accepted_request s caller command⟩
    · rcases mem_requests_request hq with hq | ⟨-, rfl⟩
      · exact hwaiting q hq hlate
      · rfl
    · rcases mem_returned_request ha with ha | ⟨hempty, rfl⟩
      · exact hrefused a ha hlate block hblock hfull
      · rw [hempty, Command.write.injEq] at hblock
        exact absurd hblock.symm hfull
  | enqueue q hq hstage hopen hroom => exact absurd hphase hopen
  | refuse q hq hstopped hwait =>
    refine ⟨⟨hphase, fun p hp => hwaiting p (List.mem_of_mem_erase hp),
      fun a ha hlate block hblock hfull => ?_⟩, rfl⟩
    rcases List.mem_append.mp ha with ha | ha
    · exact hrefused a ha hlate block hblock hfull
    · cases List.mem_singleton.mp ha
      rfl
  | count q block hq hstage hcommand =>
    refine ⟨⟨hphase, fun p hp => hwaiting p (List.mem_of_mem_erase hp),
      fun a ha hlate other hother hfull => ?_⟩, rfl⟩
    rcases List.mem_append.mp ha with ha | ha
    · exact hrefused a ha hlate other hother hfull
    · cases List.mem_singleton.mp ha
      rw [hwaiting q hq hlate] at hstage
      cases hstage
  | cancel q hq hwait =>
    exact ⟨⟨hphase, fun p hp => hwaiting p (List.mem_of_mem_erase hp), hrefused⟩, rfl⟩
  | dropHandle hclone hopen hroom => exact absurd hphase hopen
  | abandon hrequests => exact ⟨⟨hphase, hwaiting, hrefused⟩, rfl⟩
  | receive command left hother hqueue => rw [hphase] at hother; cases hother
  | write block hother => rw [hphase] at hother; cases hother
  | settle hother => rw [hphase] at hother; cases hother
  | flush number hother => rw [hphase] at hother; cases hother
  | finish hother => rw [hphase] at hother; cases hother
  | hangUp hother hqueue halone => rw [hphase] at hother; cases hother
  | close hother => rw [hphase] at hother; cases hother

theorem refusing_steps {first : Nat} {s s' : System} (h : s.Refusing first) (hsteps : s.Steps s') :
    s'.Refusing first ∧ s'.accepted = s.accepted := by
  induction hsteps with
  | refl => exact ⟨h, rfl⟩
  | tail _ hstep ih =>
    obtain ⟨hrefusing, haccepted⟩ := refusing_step ih.1 hstep
    exact ⟨hrefusing, haccepted.trans ih.2⟩

/-! ## Delivery -/

/-- What holds of the system at every moment. -/
structure Delivers (s : System) : Prop where
  /-- The sink holds the first accepted blocks in their order, each whole and once. -/
  whole : ∃ k ≤ s.accepted.length, s.taken = (s.accepted.map (·.2)).take k ∧
    s.writer.sink.contents = String.join ((s.accepted.map (·.2)).take k)
  /-- After a failed write the sink takes nothing more. -/
  failedWrite : ∀ block, s.phase = .writing block → (s.writer.sink.write block).2 = false →
    ∀ s', (s.write block).Steps s' → s'.taken = s.taken
  /-- Nor does it after a failed flush of a block. -/
  failedFlush : s.phase = .settling → s.writer.sink.flush.2 = false →
    ∀ s', s.settle.Steps s' → s'.taken = s.taken
  /-- Once the writer has stopped, no block is accepted, and a call of a block that is made from then on can
  be refused at once and returns nothing else. -/
  refuses : s.phase = .stopped → ∀ s', s.Steps s' → s'.accepted = s.accepted ∧
    (∀ q ∈ s'.requests, s.made ≤ q.number → s'.Step (s'.give q (.error .closed))) ∧
    ∀ a ∈ s'.returned, s.made ≤ a.1.number → ∀ block, a.1.command = .write block → block ≠ "" →
      a.2 = .error .closed
  /-- A flush that a call asked for does not stop the writer, whether it fails or not. -/
  keepsOn : ∀ number, s.phase = .flushing number →
    (s.flush number).phase = .receiving ∧ (s.flush number).writer.stopped = false
  full : ∀ b ∈ s.accepted, b.2 ≠ ""
  atMost : s.writer.blocksSent ≤ s.accepted.length
  /-- The count is exact when no call of a block is in progress. -/
  exact : (∀ q ∈ s.requests, ∀ block, q.command ≠ .write block) → s.writer.blocksSent = s.accepted.length

theorem delivers_of_kept {s : System} (hordered : s.Ordered) (hcounted : s.Counted) (hnumbered : s.Numbered)
    (hhalted : s.Halted) : s.Delivers := by
  obtain ⟨rest, haccepted, -⟩ := hordered
  obtain ⟨hrequests, hreturned, hfull⟩ := hnumbered
  have htake : s.taken = (s.accepted.map (·.2)).take s.taken.length := by
    rw [haccepted, List.take_left']
    rfl
  refine ⟨⟨s.taken.length, ?_, htake, htake ▸ rfl⟩, fun block hphase hfails s' hsteps => ?_,
    fun hphase hfails s' hsteps => ?_, fun hphase s' hsteps => ?_, fun number hphase => ?_, hfull, ?_,
    fun hidle => ?_⟩
  · have hlength := congrArg List.length haccepted
    rw [List.length_map, List.length_append] at hlength
    omega
  · have hgone : (s.write block).phase.goesOn = false := by
      rw [phase_write, hfails]
      rfl
    rw [gone_steps hgone hsteps, taken_write, hfails]
    rfl
  · have hgone : s.settle.phase.goesOn = false := by
      rw [phase_settle, hfails]
      rfl
    have hkept := gone_steps hgone hsteps
    exact hkept
  · have hstart : s.Refusing s.made := by
      refine ⟨hphase, fun q hq hlate => ?_, fun a ha hlate => ?_⟩
      · exact absurd (hrequests q hq).1 (Nat.not_lt.mpr hlate)
      · exact absurd (hreturned a ha) (Nat.not_lt.mpr hlate)
    obtain ⟨⟨hstopped, hwaiting, hrefused⟩, hsame⟩ := refusing_steps hstart hsteps
    exact ⟨hsame, fun q hq hlate => .refuse q hq hstopped (.inl (hwaiting q hq hlate)), hrefused⟩
  · have hstopped : s.writer.stopped = false := by
      rw [Bool.eq_false_iff]
      intro hstopped
      rw [hhalted.mp hstopped] at hphase
      cases hphase
    rcases s.flush_cases number with heq | ⟨q, -, report, -, heq⟩ <;> rw [heq]
    · exact ⟨rfl, hstopped⟩
    · exact ⟨rfl, hstopped⟩
  · rw [hcounted]
    exact Nat.le_add_right _ _
  · have hnone : s.requests.countP Request.uncounted = 0 := by
      rw [List.countP_eq_zero]
      intro q hq hcounted
      rw [Request.uncounted, Bool.and_eq_true] at hcounted
      cases hcommand : q.command with
      | write block => exact hidle q hq block hcommand
      | _ => simp [hcommand, Command.block?] at hcounted
    rw [hcounted, hnone, Nat.add_zero]

theorem kept_steps {w : Writer} {capacity : Nat} {faults : Sink.Faults}
    (hw : Writer.ofSink? capacity { faults := faults } = some w) {s : System}
    (hsteps : System.Steps { writer := w } s) : s.Ordered ∧ s.Counted ∧ s.Numbered ∧ s.Halted := by
  have hstart : w = { capacity := max capacity 1, sink := { faults := faults } } := by
    unfold Writer.ofSink? at hw
    split at hw
    · exact (Option.some.inj hw).symm
    · cases hw
  induction hsteps with
  | refl =>
    subst hstart
    exact ⟨⟨[], rfl, fun _ => rfl⟩, rfl, by simp [Numbered], by simp [Halted]⟩
  | tail _ hstep ih =>
    obtain ⟨hordered, hcounted, hnumbered, hhalted⟩ := ih
    exact ⟨ordered_step hordered hstep, counted_step hcounted hstep, numbered_step hnumbered hstep,
      halted_step hhalted hstep⟩

/-- Whatever the capacity, the faults of the sink and the order of steps, the writer delivers the blocks that
it accepted in their order until it fails, and none after that. -/
theorem delivers {capacity : Nat} {faults : Sink.Faults} {w : Writer}
    (hw : Writer.ofSink? capacity { faults := faults } = some w) {s : System}
    (hsteps : System.Steps { writer := w } s) : s.Delivers := by
  obtain ⟨hordered, hcounted, hnumbered, hhalted⟩ := kept_steps hw hsteps
  exact delivers_of_kept hordered hcounted hnumbered hhalted

/-- A call that hands over a block. -/
def handing (number caller : Nat) (block : String) : Request :=
  { number := number, caller := caller, command := .write block }

theorem delivers_broken_pipe :
    ∃ w s, Writer.ofSink? 0 { faults := { write := fun n => n = 2 } } = some w ∧
      System.Steps { writer := w } s ∧ s.phase = .stopped ∧ s.taken = ["END\n"] ∧
      s.accepted = [(0, "END\n"), (1, "DISABLE\n")] ∧ s.Delivers := by
  let w : Writer := { capacity := 1, sink := { faults := { write := fun n => n = 2 } } }
  have hw : Writer.ofSink? 0 { faults := { write := fun n => n = 2 } } = some w := rfl
  have hsteps : System.Steps { writer := w } _ :=
    ((((((((((Relation.ReflTransGen.refl.tail
      (.request 0 (.write "END\n") rfl)).tail
      (.enqueue (handing 0 0 "END\n") (by decide) rfl (by decide) (by decide))).tail
      (.receive (.write "END\n") [] rfl rfl)).tail
      (.request 1 (.write "DISABLE\n") rfl)).tail
      (.enqueue (handing 1 1 "DISABLE\n") (by decide) rfl (by decide) (by decide))).tail
      (.write "END\n" rfl)).tail
      (.settle rfl)).tail
      (.receive (.write "DISABLE\n") [] rfl rfl)).tail
      (.write "DISABLE\n" rfl)).tail
      (.close rfl))
  exact ⟨w, _, hw, hsteps, rfl, rfl, rfl, delivers hw hsteps⟩

end System

end ChartStream.Writer
