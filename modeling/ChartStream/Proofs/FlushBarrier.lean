import ChartStream.Proofs.WriterShutdown
import Mathlib.Data.List.Nodup

/-!
# A flush as a barrier

A call that asks for a flush gets its report only after all blocks are in the sink that the queue took before its
request, and gets none if one of these was lost. Main definitions: `System.IsRun`, `System.Enqueues`, `System.Fails`,
`System.Answers`, `System.Approaching`. Main result: `System.flush_barrier`.
-/

namespace ChartStream.Writer

set_option autoImplicit false

/-- The call to which the writer is about to report. -/
def Phase.answers : Phase → List Nat
  | .flushing number => number.toList
  | _ => []

namespace System

/-! ## Runs -/

/-- The states of the system over time: at each moment it takes one step or none. -/
structure IsRun (w : Writer) (r : Nat → System) : Prop where
  start : r 0 = { writer := w }
  next : ∀ i, r (i + 1) = r i ∨ (r i).Step (r (i + 1))

/-- What every step keeps from some moment on holds from then on. -/
theorem IsRun.kept {w : Writer} {r : Nat → System} (h : IsRun w r) {P : System → Prop} {i : Nat} (hi : P (r i))
    (hstep : ∀ m, i ≤ m → P (r m) → (r m).Step (r (m + 1)) → P (r (m + 1))) {k : Nat} (hk : i ≤ k) : P (r k) := by
  induction hk with
  | refl => exact hi
  | @step m hm ih =>
    rcases h.next m with hidle | hnext
    · exact (congrArg P hidle).mpr ih
    · exact hstep m hm ih hnext

theorem IsRun.reachable {w : Writer} {r : Nat → System} (h : IsRun w r) (k : Nat) :
    System.Steps { writer := w } (r k) := by
  have hstart : System.Steps { writer := w } (r 0) := h.start ▸ .refl
  exact h.kept hstart (fun m _ hm hstep => hm.tail hstep) (Nat.zero_le k)

/-- What holds at some moment and not at the start came about by a step. -/
theorem IsRun.exists_step {w : Writer} {r : Nat → System} (h : IsRun w r) {P : System → Prop}
    (hstart : ¬ P { writer := w }) {k : Nat} (hk : P (r k)) :
    ∃ j < k, ¬ P (r j) ∧ P (r (j + 1)) ∧ (r j).Step (r (j + 1)) := by
  induction k with
  | zero => exact absurd (h.start ▸ hk) hstart
  | succ k ih =>
    by_cases hbefore : P (r k)
    · obtain ⟨j, hj, hstep⟩ := ih hbefore
      exact ⟨j, Nat.lt_succ_of_lt hj, hstep⟩
    · rcases h.next k with hidle | hstep
      · exact absurd ((congrArg P hidle).mp hk) hbefore
      · exact ⟨k, Nat.lt_succ_self k, hbefore, hk, hstep⟩

/-! ## Calls in progress -/

/-- The calls that the writer is going to report to: the one it flushes the sink for, and those queued. -/
def called (s : System) : List Nat :=
  s.phase.answers ++ s.waiting

/-- What the writer reports after it flushed the sink for a call. -/
def flushReport (s : System) : Report :=
  if s.writer.sink.flush.2 then .ok () else .error (.sink s.writer.sink.faults.reason)

theorem waiting_request (s : System) (caller : Nat) (command : Command) :
    (s.request caller command).waiting = s.waiting := by
  unfold request
  split <;> rfl

theorem waiting_enqueue (s : System) (q : Request) :
    (s.enqueue q).waiting = s.waiting ++ if q.command = .flush then [q.number] else [] := by
  unfold enqueue
  cases q.command <;> simp [push, give]

/-- The writer reports to the call it flushes for, if that call still waits. -/
theorem flush_reports (s : System) (number : Option Nat) :
    (s.flush number = { s with writer := { s.writer with sink := s.writer.sink.flush.1 }, phase := .receiving } ∧
      ∀ q ∈ s.requests, ¬ (some q.number = number ∧ q.command = .flush ∧ q.stage = .accepted)) ∨
    ∃ q ∈ s.requests, (some q.number = number ∧ q.command = .flush ∧ q.stage = .accepted) ∧
      s.flush number = { s with
        writer := { s.writer with sink := s.writer.sink.flush.1 }, phase := .receiving }.give q s.flushReport := by
  unfold flush
  dsimp only
  split
  · next q hfind =>
    have hwaits := List.find?_some hfind
    exact .inr ⟨q, List.mem_of_find?_eq_some hfind, of_decide_eq_true hwaits, rfl⟩
  · next hfind =>
    refine .inl ⟨rfl, fun q hq hwaits => ?_⟩
    have hother := List.find?_eq_none.mp hfind q hq
    exact hother (decide_eq_true hwaits)

/-- A call in progress was so before, or has just been made or admitted to the queue. -/
theorem mem_requests_step {s s' : System} (hstep : s.Step s') {q : Request} (hq : q ∈ s'.requests) :
    q ∈ s.requests ∨ (q.number = s.made ∧ q.stage = .sending) ∨
      ∃ p ∈ s.requests, p.stage = .sending ∧ s' = s.enqueue p ∧ q = { p with stage := .accepted } := by
  cases hstep with
  | request caller command =>
    rcases mem_requests_request hq with hq | ⟨-, rfl⟩
    · exact .inl hq
    · exact .inr (.inl ⟨rfl, rfl⟩)
  | enqueue p hp hstage hopen hroom =>
    rcases mem_requests_enqueue hq with hq | ⟨-, rfl⟩
    · exact .inl hq
    · exact .inr (.inr ⟨p, hp, hstage, rfl, rfl⟩)
  | refuse p hp hstopped hwait => exact .inl (List.mem_of_mem_erase hq)
  | count p block hp hstage hcommand => exact .inl (List.mem_of_mem_erase hq)
  | cancel p hp hwait => exact .inl (List.mem_of_mem_erase hq)
  | receive command left hphase hqueue => cases command <;> exact .inl hq
  | flush number hphase =>
    rcases s.flush_cases number with heq | ⟨p, -, report, -, heq⟩ <;> rw [heq] at hq
    · exact .inl hq
    · exact .inl (List.mem_of_mem_erase hq)
  | _ => exact .inl hq

/-- Calls in progress have numbers of their own, and the writer is to report to none that is not yet admitted. -/
structure Apart (s : System) : Prop where
  numbers : (s.requests.map Request.number).Nodup
  unannounced : ∀ q ∈ s.requests, q.stage = .sending → q.number ∉ s.called
  made : ∀ n ∈ s.called, n < s.made

theorem Apart.eq_of_number {s : System} (h : s.Apart) {p q : Request} (hp : p ∈ s.requests) (hq : q ∈ s.requests)
    (hnumber : p.number = q.number) : p = q :=
  List.inj_on_of_nodup_map h.numbers hp hq hnumber

/-- No other call has the number of a call. -/
theorem Apart.ne_of_mem_erase {s : System} (h : s.Apart) {p q : Request} (hq : q ∈ s.requests)
    (hp : p ∈ s.requests.erase q) : p.number ≠ q.number := by
  have hnodup := (List.perm_cons_erase hq).map Request.number |>.nodup_iff.mp h.numbers
  exact fun heq => (List.nodup_cons.mp hnodup).1 (List.mem_map.mpr ⟨p, hp, heq⟩)

/-- Calls that go and reports that are given do not bring numbers together. -/
theorem Apart.of_subset {s s' : System} (h : s.Apart) (hrequests : s'.requests.Sublist s.requests)
    (hcalled : s'.called ⊆ s.called) (hmade : s.made ≤ s'.made) : s'.Apart where
  numbers := (hrequests.map _).nodup h.numbers
  unannounced q hq hstage hcalled' := h.unannounced q (hrequests.subset hq) hstage (hcalled hcalled')
  made n hn := Nat.lt_of_lt_of_le (h.made n (hcalled hn)) hmade

theorem called_receive {s : System} {command : Command} {rest : List Command} :
    (s.receive command rest).called ⊆ s.waiting := by
  cases command with
  | write block => exact List.Subset.refl _
  | shutdown => exact List.Subset.refl _
  | flush =>
    cases hwaiting : s.waiting with
    | nil => simp [called, receive, Phase.answers, hwaiting]
    | cons n later => simp [called, receive, Phase.answers, hwaiting]

theorem Apart.enqueue {s : System} (h : s.Apart) (hnumbered : s.Numbered) {q : Request} (hq : q ∈ s.requests) :
    (s.enqueue q).Apart := by
  have hothers : ((s.requests.erase q).map Request.number).Nodup := (List.erase_sublist.map _).nodup h.numbers
  have hcalled (n : Nat) : n ∈ (s.enqueue q).called → n ∈ s.called ∨ n = q.number := by
    rw [called, phase_enqueue, waiting_enqueue, ← List.append_assoc, List.mem_append]
    refine Or.imp_right fun hn => ?_
    split at hn
    · exact List.mem_singleton.mp hn
    · cases hn
  refine ⟨?_, fun p hp hsending hmem => ?_, fun n hn => ?_⟩
  · rw [requests_enqueue, List.map_append]
    split
    · simpa using hothers
    · refine List.nodup_append'.mpr ⟨hothers, List.nodup_singleton _, ?_⟩
      simpa using fun p hp => h.ne_of_mem_erase hq hp
  · have hp' : p ∈ s.requests.erase q := by
      rw [requests_enqueue, List.mem_append] at hp
      refine hp.resolve_right fun hp => ?_
      split at hp
      · cases hp
      · rw [List.mem_singleton.mp hp] at hsending
        cases hsending
    rcases hcalled p.number hmem with hmem | heq
    · exact h.unannounced p (List.mem_of_mem_erase hp') hsending hmem
    · exact h.ne_of_mem_erase hq hp' heq
  · rw [made_enqueue]
    rcases hcalled n hn with hn | rfl
    · exact h.made n hn
    · exact (hnumbered.1 q hq).1

theorem apart_step {s s' : System} (h : s.Apart) (hnumbered : s.Numbered) (hstep : s.Step s') : s'.Apart := by
  have hsame : s.called ⊆ s.called := List.Subset.refl _
  cases hstep with
  | request caller command =>
    have hcalled : (s.request caller command).called = s.called := by
      rw [called, phase_request, waiting_request, called]
    refine ⟨?_, fun q hq hstage => ?_, fun n hn => ?_⟩
    · unfold request
      split
      · exact h.numbers
      · rw [List.map_append, List.nodup_append']
        refine ⟨h.numbers, List.nodup_singleton _, ?_⟩
        simp only [List.map_cons, List.map_nil, List.disjoint_singleton, List.mem_map, not_exists, not_and]
        exact fun q hq heq => absurd (hnumbered.1 q hq).1 (heq ▸ Nat.lt_irrefl _)
    · rw [hcalled]
      rcases mem_requests_request hq with hq | ⟨-, rfl⟩
      · exact h.unannounced q hq hstage
      · exact fun hmem => Nat.lt_irrefl _ (h.made s.made hmem)
    · rw [made_request]
      exact Nat.lt_succ_of_lt (h.made n (hcalled ▸ hn))
  | enqueue q hq hstage hopen hroom => exact h.enqueue hnumbered hq
  | refuse q hq hstopped hwait => exact h.of_subset List.erase_sublist hsame (Nat.le_refl _)
  | count q block hq hstage hcommand => exact h.of_subset List.erase_sublist hsame (Nat.le_refl _)
  | cancel q hq hwait => exact h.of_subset List.erase_sublist hsame (Nat.le_refl _)
  | receive command left hphase hqueue =>
    have hwaiting : s.called = s.waiting := by rw [called, hphase]; rfl
    have hrequests : (s.receive command left).requests = s.requests := by cases command <;> rfl
    have hmade : (s.receive command left).made = s.made := by cases command <;> rfl
    exact h.of_subset (hrequests ▸ List.Sublist.refl _) (hwaiting ▸ called_receive) (Nat.le_of_eq hmade.symm)
  | write block hphase =>
    have hcalled : (s.write block).called = s.called := by
      rw [called, called, phase_write, hphase]
      split <;> rfl
    exact h.of_subset (List.Sublist.refl _) (hcalled ▸ hsame) (Nat.le_refl _)
  | settle hphase =>
    have hcalled : s.settle.called = s.called := by
      rw [called, called, phase_settle, hphase]
      split <;> rfl
    exact h.of_subset (List.Sublist.refl _) (hcalled ▸ hsame) (Nat.le_refl _)
  | flush number hphase =>
    have hcalled : (s.flush number).called ⊆ s.called := by
      rcases s.flush_cases number with heq | ⟨q, -, report, -, heq⟩ <;> rw [heq] <;>
        exact List.subset_append_right _ _
    rcases s.flush_cases number with heq | ⟨q, -, report, -, heq⟩ <;> rw [heq] at hcalled ⊢
    · exact h.of_subset (List.Sublist.refl _) hcalled (Nat.le_refl _)
    · exact h.of_subset List.erase_sublist hcalled (Nat.le_refl _)
  | close hphase => exact h.of_subset (List.Sublist.refl _) (List.nil_subset _) (Nat.le_refl _)
  | finish hphase => exact h.of_subset (List.Sublist.refl _) (List.subset_append_right _ _) (Nat.le_refl _)
  | hangUp hphase hqueue halone =>
    exact h.of_subset (List.Sublist.refl _) (List.subset_append_right _ _) (Nat.le_refl _)
  | dropHandle hclone hopen hroom => exact h.of_subset (List.Sublist.refl _) hsame (Nat.le_refl _)
  | abandon hrequests => exact h.of_subset (List.Sublist.refl _) hsame (Nat.le_refl _)

/-! ## On the way to a report -/

/-- As many calls wait for a report as there are requests for one in the queue. -/
def Lined (s : System) : Prop :=
  s.writer.queue.count .flush = s.waiting.length

theorem lined_step {s s' : System} (h : s.Lined) (hstep : s.Step s') : s'.Lined := by
  cases hstep with
  | request caller command =>
    rw [Lined, writer_request, waiting_request]
    exact h
  | enqueue q hq hstage hopen hroom =>
    rw [Lined, writer_enqueue, waiting_enqueue, List.count_append, List.length_append, h]
    cases q.command <;> rfl
  | dropHandle hclone hopen hroom =>
    have hcount : (s.writer.queue ++ [Command.shutdown]).count Command.flush = s.writer.queue.count .flush := by
      rw [List.count_append]
      rfl
    exact hcount.trans h
  | receive command left hphase hqueue =>
    rw [Lined, hqueue, List.count_cons] at h
    cases command with
    | write block => exact h
    | shutdown => exact h
    | flush =>
      have hcount : left.count .flush + 1 = s.waiting.length := h
      show left.count .flush = s.waiting.tail.length
      rw [List.length_tail]
      omega
  | flush number hphase =>
    rcases s.flush_cases number with heq | ⟨q, -, report, -, heq⟩ <;> rw [heq] <;> exact h
  | close hphase => rfl
  | _ => exact h

/-- The writer comes to the request of call `n` when the sink has taken just these blocks. It has come to it, or the
request is queued behind `before`, and the calls `earlier` get their reports first. -/
inductive Approaching (blocks : List String) (n : Nat) (s : System) : Prop
  | now (hphase : s.phase = .flushing (some n)) (htaken : s.taken = blocks)
  | queued (before after : List Command) (earlier later : List Nat)
      (hqueue : s.writer.queue = before ++ .flush :: after) (hwaiting : s.waiting = earlier ++ n :: later)
      (hcount : before.count .flush = earlier.length) (hnext : n ∉ s.phase.answers ++ earlier)
      (hblocks : s.taken ++ (s.phase.inHand ++ before.filterMap Command.block?) = blocks)

theorem approaching_enqueue {s : System} (hordered : s.Ordered) (hapart : s.Apart) (hlined : s.Lined) {q : Request}
    (hq : q ∈ s.requests) (hstage : q.stage = .sending) (hcommand : q.command = .flush)
    (hgoes : s.phase.goesOn = true) : (s.enqueue q).Approaching (s.accepted.map (·.2)) q.number := by
  obtain ⟨rest, haccepted, hrest⟩ := hordered
  refine .queued s.writer.queue [] s.waiting [] ?_ ?_ hlined ?_ ?_
  · rw [writer_enqueue, hcommand]
  · rw [waiting_enqueue, if_pos hcommand]
  · rw [phase_enqueue]
    exact hapart.unannounced q hq hstage
  · rw [phase_enqueue, taken_enqueue, haccepted, hrest hgoes]

theorem approaching_receive {blocks : List String} {n : Nat} {s : System} {command : Command} {left : List Command}
    (h : s.Approaching blocks n) (hphase : s.phase = .receiving) (hreceived : s.writer.queue = command :: left)
    (hgoes : (s.receive command left).phase.goesOn = true) : (s.receive command left).Approaching blocks n := by
  cases h with
  | now hother htaken =>
    rw [hphase] at hother
    cases hother
  | queued before after earlier later hqueue hwaiting hcount hnext hblocks =>
    rw [hphase] at hnext hblocks
    rw [hqueue] at hreceived
    cases before with
    | nil =>
      -- It is the request itself, and no call is to get a report before.
      obtain ⟨rfl, rfl⟩ := List.cons.inj hreceived
      have hfirst : earlier = [] := List.length_eq_zero_iff.mp hcount.symm
      have htaken : s.taken = blocks := by simpa [Phase.inHand] using hblocks
      rw [hfirst] at hwaiting
      exact .now (by simp [receive, hwaiting]) htaken
    | cons first before =>
      obtain ⟨rfl, rfl⟩ := List.cons.inj hreceived
      cases first with
      | write block =>
        have hbefore : before.count .flush = earlier.length := by simpa [List.count_cons] using hcount
        exact .queued before after earlier later rfl hwaiting hbefore hnext hblocks
      | shutdown => cases hgoes
      | flush =>
        cases earlier with
        | nil => simp at hcount
        | cons m earlier =>
          have hbefore : before.count .flush = earlier.length := by simpa [List.count_cons] using hcount
          refine .queued before after earlier later rfl ?_ hbefore ?_ hblocks
          · simp [receive, hwaiting]
          · simpa [receive, hwaiting, Phase.answers] using hnext

/-- What is queued later does not change how far off the request is. -/
theorem Approaching.of_appended {blocks : List String} {n : Nat} {s s' : System} (h : s.Approaching blocks n)
    {commands : List Command} {calls : List Nat} (hphase : s'.phase = s.phase) (htaken : s'.taken = s.taken)
    (hqueue : s'.writer.queue = s.writer.queue ++ commands) (hwaiting : s'.waiting = s.waiting ++ calls) :
    s'.Approaching blocks n := by
  cases h with
  | now hnow hblocks => exact .now (hphase.trans hnow) (htaken.trans hblocks)
  | queued before after earlier later hqueued hcalls hcount hnext hblocks =>
    refine .queued before (after ++ commands) earlier (later ++ calls) ?_ ?_ hcount (hphase ▸ hnext) ?_
    · rw [hqueue, hqueued, List.append_assoc, List.cons_append]
    · rw [hwaiting, hcalls, List.append_assoc, List.cons_append]
    · rw [hphase, htaken, hblocks]

theorem Approaching.of_same {blocks : List String} {n : Nat} {s s' : System} (h : s.Approaching blocks n)
    (hphase : s'.phase = s.phase) (htaken : s'.taken = s.taken) (hqueue : s'.writer.queue = s.writer.queue)
    (hwaiting : s'.waiting = s.waiting) : s'.Approaching blocks n :=
  h.of_appended hphase htaken (hqueue.trans (List.append_nil _).symm) (hwaiting.trans (List.append_nil _).symm)

/-- A step leaves the request as far off, or brings the writer nearer to it, or is the flush that it asks for. -/
theorem approaching_step {blocks : List String} {n : Nat} {s s' : System} (h : s.Approaching blocks n)
    (hstep : s.Step s') (hgoes : s'.phase.goesOn = true) :
    s'.Approaching blocks n ∨ s' = s.flush (some n) := by
  cases hstep with
  | request caller command =>
    have hwriter := writer_request s caller command
    exact .inl (h.of_same (phase_request ..) (congrArg (·.sink.taken) hwriter) (congrArg (·.queue) hwriter)
      (waiting_request ..))
  | enqueue q hq hstage hopen hroom =>
    exact .inl (h.of_appended (phase_enqueue s q) (taken_enqueue s q) (congrArg _ (writer_enqueue s q))
      (waiting_enqueue s q))
  | dropHandle hclone hopen hroom =>
    exact .inl (h.of_appended rfl rfl rfl (List.append_nil _).symm)
  | receive command left hphase hqueue => exact .inl (approaching_receive h hphase hqueue hgoes)
  | write block hphase =>
    rw [phase_write] at hgoes
    cases hwrite : (s.writer.sink.write block).2 with
    | false =>
      rw [hwrite] at hgoes
      cases hgoes
    | true =>
      cases h with
      | now hother htaken =>
        rw [hphase] at hother
        cases hother
      | queued before after earlier later hqueue hwaiting hcount hnext hblocks =>
        rw [hphase] at hnext hblocks
        refine .inl (.queued before after earlier later hqueue hwaiting hcount ?_ ?_)
        · rw [phase_write, hwrite]
          exact hnext
        · rw [phase_write, taken_write, hwrite, if_pos rfl, if_pos rfl, List.append_assoc]
          exact hblocks
  | settle hphase =>
    rw [phase_settle] at hgoes
    cases hflush : s.writer.sink.flush.2 with
    | false =>
      rw [hflush] at hgoes
      cases hgoes
    | true =>
      cases h with
      | now hother htaken =>
        rw [hphase] at hother
        cases hother
      | queued before after earlier later hqueue hwaiting hcount hnext hblocks =>
        rw [hphase] at hnext hblocks
        refine .inl (.queued before after earlier later hqueue hwaiting hcount ?_ ?_)
        · rw [phase_settle, hflush]
          exact hnext
        · rw [phase_settle, hflush]
          exact hblocks
  | flush number hphase =>
    cases h with
    | now hnow htaken =>
      rw [hphase, Phase.flushing.injEq] at hnow
      exact .inr (by rw [hnow])
    | queued before after earlier later hqueue hwaiting hcount hnext hblocks =>
      rw [hphase] at hblocks
      have hnext' : n ∉ Phase.receiving.answers ++ earlier := fun hmem => hnext (List.mem_append_right _ hmem)
      left
      rcases s.flush_cases number with heq | ⟨q, -, report, -, heq⟩ <;> rw [heq] <;>
        exact .queued before after earlier later hqueue hwaiting hcount hnext' hblocks
  | finish hphase => cases hgoes
  | hangUp hphase hqueue halone => cases hgoes
  | close hphase => cases hgoes
  | _ => exact .inl (h.of_same rfl rfl rfl rfl)

/-! ## Calls that were admitted -/

/-- At the moment `i` the queue takes the request of the call `a`. -/
def Enqueues (r : Nat → System) (i : Nat) (a : Request) : Prop :=
  ∃ q ∈ (r i).requests, q.stage = .sending ∧ a = { q with stage := .accepted } ∧ r (i + 1) = (r i).enqueue q

/-- A call that was admitted is not admitted again, and as long as it waits for its report, the writer is on the way
to it with just these blocks before. -/
structure Pending (blocks : List String) (a : Request) (s : System) : Prop where
  made : a.number < s.made
  admitted : ∀ q ∈ s.requests, q.number = a.number → q.stage = .accepted
  approaching : a ∈ s.requests → s.phase.goesOn = true → s.Approaching blocks a.number

/-- The flush that a call asked for ends its wait. -/
theorem not_mem_requests_flush {s : System} (hapart : s.Apart) {a : Request} (ha : a ∈ s.requests)
    (hstage : a.stage = .accepted) (hcommand : a.command = .flush) :
    a ∉ (s.flush (some a.number)).requests := by
  rcases s.flush_reports (some a.number) with ⟨-, hnone⟩ | ⟨q, hq, ⟨hnumber, -⟩, heq⟩
  · exact absurd ⟨rfl, hcommand, hstage⟩ (hnone a ha)
  · obtain rfl := hapart.eq_of_number hq ha (Option.some.inj hnumber)
    rw [heq]
    exact fun hmem => hapart.ne_of_mem_erase hq hmem rfl

theorem made_step {s s' : System} (hstep : s.Step s') : s.made ≤ s'.made := by
  cases hstep with
  | request caller command =>
    rw [made_request]
    exact Nat.le_succ _
  | enqueue q hq hstage hopen hroom => exact Nat.le_of_eq (made_enqueue s q).symm
  | receive command left hphase hqueue => cases command <;> exact Nat.le_refl _
  | flush number hphase =>
    have hmade : (s.flush number).made = s.made := by
      rcases s.flush_cases number with heq | ⟨q, -, report, -, heq⟩ <;> exact (congrArg System.made heq :)
    exact Nat.le_of_eq hmade.symm
  | _ => exact Nat.le_refl _

theorem pending_step {blocks : List String} {a : Request} (hcommand : a.command = .flush)
    (hstage : a.stage = .accepted) {s s' : System} (hapart : s.Apart) (h : s.Pending blocks a) (hstep : s.Step s') :
    s'.Pending blocks a := by
  have hadmitted : ∀ q ∈ s'.requests, q.number = a.number → q.stage = .accepted := by
    intro q hq hnumber
    rcases mem_requests_step hstep hq with hq | ⟨hnew, -⟩ | ⟨p, hp, hsending, -, rfl⟩
    · exact h.admitted q hq hnumber
    · exact absurd h.made (by rw [← hnumber, hnew]; exact Nat.lt_irrefl _)
    · rfl
  refine ⟨Nat.lt_of_lt_of_le h.made (made_step hstep), hadmitted, fun hmem hgoes => ?_⟩
  have hbefore : a ∈ s.requests := by
    rcases mem_requests_step hstep hmem with hmem | ⟨hnew, -⟩ | ⟨p, hp, hsending, -, rfl⟩
    · exact hmem
    · exact absurd h.made (by rw [hnew]; exact Nat.lt_irrefl _)
    · rw [h.admitted p hp rfl] at hsending
      cases hsending
  have hgoing : s.phase.goesOn = true := by
    rw [← Bool.not_eq_false]
    intro hgone
    rw [(gone_step hgone hstep).1] at hgoes
    cases hgoes
  rcases approaching_step (h.approaching hbefore hgoing) hstep hgoes with hnear | heq
  · exact hnear
  · exact absurd (heq ▸ hmem) (not_mem_requests_flush hapart hbefore hstage hcommand)

/-- What holds of the calls at every moment of a run. -/
structure Sound (s : System) : Prop where
  ordered : s.Ordered
  numbered : s.Numbered
  apart : s.Apart
  lined : s.Lined

theorem sound_steps {w : Writer} {capacity : Nat} {faults : Sink.Faults}
    (hw : Writer.ofSink? capacity { faults := faults } = some w) {s : System}
    (hsteps : System.Steps { writer := w } s) : s.Sound := by
  obtain ⟨hordered, -, hnumbered, -⟩ := kept_steps hw hsteps
  have hqueue : w.queue = [] := by
    unfold Writer.ofSink? at hw
    split at hw
    · rw [← Option.some.inj hw]
    · cases hw
  have hboth : s.Apart ∧ s.Lined := by
    clear hordered hnumbered
    induction hsteps with
    | refl =>
      refine ⟨⟨List.nodup_nil, nofun, nofun⟩, ?_⟩
      rw [Lined, hqueue]
      rfl
    | tail hbefore hstep ih =>
      obtain ⟨-, -, hnumbered, -⟩ := kept_steps hw hbefore
      exact ⟨apart_step ih.1 hnumbered hstep, lined_step ih.2 hstep⟩
  exact ⟨hordered, hnumbered, hboth.1, hboth.2⟩

theorem pending_enqueue {s : System} (hs : s.Sound) {q : Request} (hq : q ∈ s.requests) (hstage : q.stage = .sending)
    (hcommand : q.command = .flush) :
    (s.enqueue q).Pending (s.accepted.map (·.2)) { q with stage := .accepted } := by
  refine ⟨?_, fun p hp hnumber => ?_, fun _ hgoes => ?_⟩
  · rw [made_enqueue]
    exact (hs.numbered.1 q hq).1
  · rw [requests_enqueue, List.mem_append] at hp
    rcases hp with hp | hp
    · exact (hs.apart.ne_of_mem_erase hq hp hnumber).elim
    · split at hp
      · cases hp
      · rw [List.mem_singleton.mp hp]
  · rw [phase_enqueue] at hgoes
    exact approaching_enqueue hs.ordered hs.apart hs.lined hq hstage hcommand hgoes

/-- Whoever waits for a report was admitted at some moment. -/
theorem IsRun.enqueued {w : Writer} {r : Nat → System} (h : IsRun w r) {k : Nat} {a : Request}
    (ha : a ∈ (r k).requests) (hstage : a.stage = .accepted) : ∃ i < k, Enqueues r i a := by
  obtain ⟨i, hi, hbefore, hmem, hstep⟩ := h.exists_step (P := fun s => a ∈ s.requests) nofun ha
  rcases mem_requests_step hstep hmem with hmem | ⟨-, hnew⟩ | ⟨q, hq, hsending, heq, hadmitted⟩
  · exact absurd hmem hbefore
  · rw [hstage] at hnew
    cases hnew
  · exact ⟨i, hi, q, hq, hsending, hadmitted, heq⟩

/-! ## Reports -/

/-- In this step the writer flushes the sink for the call `a`, which returns with the report. -/
structure Answers (s s' : System) (a : Request) (report : Report) : Prop where
  phase : s.phase = .flushing (some a.number)
  step : s' = s.flush (some a.number)
  result : report = s.flushReport
  waiting : a ∈ s.requests ∧ (a, report) ∉ s.returned
  returned : a ∉ s'.requests ∧ (a, report) ∈ s'.returned

/-- A flush returns by the report of the writer, or because the writer has stopped. -/
theorem returned_step {s s' : System} (hs : s.Sound) (hstep : s.Step s') {a : Request} {report : Report}
    (hnew : (a, report) ∈ s'.returned) (hold : (a, report) ∉ s.returned) (hcommand : a.command = .flush) :
    (a.stage = .accepted ∧ s.Answers s' a report) ∨
      (s.phase = .stopped ∧ a ∈ s.requests ∧ report = .error .closed) := by
  -- All other steps that end a call end one of another command.
  have hother : ∀ q : Request, q.command ≠ .flush → ∀ other, (a, report) ∈ s.returned ++ [(q, other)] → False := by
    intro q hq other hmem
    rcases List.mem_append.mp hmem with hmem | hmem
    · exact hold hmem
    · cases List.mem_singleton.mp hmem
      exact hq hcommand
  cases hstep with
  | request caller command =>
    rcases mem_returned_request hnew with hmem | ⟨hempty, heq⟩
    · exact absurd hmem hold
    · rw [(Prod.mk.inj heq).1, hempty] at hcommand
      cases hcommand
  | enqueue q hq hstage hopen hroom =>
    rw [returned_enqueue] at hnew
    split at hnew
    · next hshutdown => exact (hother q (by rw [hshutdown]; nofun) _ hnew).elim
    · exact absurd (List.append_nil s.returned ▸ hnew) hold
  | refuse q hq hstopped hwait =>
    rcases List.mem_append.mp hnew with hmem | hmem
    · exact absurd hmem hold
    · cases List.mem_singleton.mp hmem
      exact .inr ⟨hstopped, hq, rfl⟩
  | count q block hq hstage hwrite => exact (hother q (by rw [hwrite]; nofun) _ hnew).elim
  | receive command left hphase hqueue => cases command <;> exact absurd hnew hold
  | flush number hphase =>
    rcases s.flush_reports number with ⟨heq, -⟩ | ⟨q, hq, ⟨rfl, hflush, hstage⟩, heq⟩
    · rw [heq] at hnew
      exact absurd hnew hold
    · have hmem := hnew
      rw [heq] at hmem
      rcases List.mem_append.mp hmem with hmem | hmem
      · exact absurd hmem hold
      · cases List.mem_singleton.mp hmem
        exact .inl ⟨hstage, hphase, rfl, rfl, ⟨hq, hold⟩, not_mem_requests_flush hs.apart hq hstage hflush, hnew⟩
  | _ => exact absurd hnew hold

theorem IsRun.returned {w : Writer} {capacity : Nat} {faults : Sink.Faults}
    (hw : Writer.ofSink? capacity { faults := faults } = some w) {r : Nat → System} (h : IsRun w r) {k : Nat}
    {a : Request} {report : Report} (ha : (a, report) ∈ (r k).returned) (hcommand : a.command = .flush) :
    ∃ j < k, (a.stage = .accepted ∧ (r j).Answers (r (j + 1)) a report) ∨
      ((r j).phase = .stopped ∧ a ∈ (r j).requests ∧ report = .error .closed) := by
  obtain ⟨j, hj, hbefore, hmem, hstep⟩ := h.exists_step (P := fun s => (a, report) ∈ s.returned) nofun ha
  exact ⟨j, hj, returned_step (sound_steps hw (h.reachable j)) hstep hmem hbefore hcommand⟩

section
variable {w : Writer} {capacity : Nat} {faults : Sink.Faults}
  (hw : Writer.ofSink? capacity { faults := faults } = some w) {r : Nat → System} (h : IsRun w r) {a : Request}
  (hcommand : a.command = .flush)
include hw h hcommand

theorem IsRun.pending {i k : Nat} (hi : Enqueues r i a) (hik : i < k) :
    (r k).Pending ((r i).accepted.map (·.2)) a := by
  have hsound (m : Nat) : (r m).Sound := sound_steps hw (h.reachable m)
  obtain ⟨q, hq, hsending, rfl, hnext⟩ := hi
  have hstart : (r (i + 1)).Pending ((r i).accepted.map (·.2)) { q with stage := .accepted } :=
    hnext ▸ pending_enqueue (hsound i) hq hsending hcommand
  exact h.kept hstart (fun m _ hm hstep => pending_step hcommand rfl (hsound m).apart hm hstep)
    (Nat.succ_le_of_lt hik)

/-- A request is not admitted a second time. -/
theorem IsRun.enqueues_le {i i' : Nat} (hi : Enqueues r i a) (hi' : Enqueues r i' a) : i ≤ i' := by
  refine Nat.not_lt.mp fun hlt => ?_
  obtain ⟨q, hq, hsending, heq, -⟩ := hi
  have hadmitted := (h.pending hw hcommand hi' hlt).admitted q hq (by rw [heq])
  rw [hsending] at hadmitted
  cases hadmitted

/-- The report comes when the sink has taken just the blocks that were accepted before the request. -/
theorem IsRun.taken_of_answers {i j : Nat} {report : Report} (hi : Enqueues r i a) (hij : i < j)
    (hj : (r j).Answers (r (j + 1)) a report) : (r j).taken = (r i).accepted.map (·.2) := by
  cases (h.pending hw hcommand hi hij).approaching hj.waiting.1 (by rw [hj.phase]; rfl) with
  | now hphase htaken => exact htaken
  | queued before after earlier later hqueue hwaiting hcount hnot hblocks =>
    rw [hj.phase] at hnot
    exact absurd List.mem_cons_self hnot

end

/-! ## After a block is lost -/

/-- In this step the sink does not take a block, or the flush after it fails. -/
inductive Fails (s s' : System) : Prop
  | write (block : String) (hphase : s.phase = .writing block) (hfails : (s.writer.sink.write block).2 = false)
      (hstep : s' = s.write block)
  | flush (hphase : s.phase = .settling) (hfails : s.writer.sink.flush.2 = false) (hstep : s' = s.settle)

/-- The blocks up to the one that the writer works on. -/
def reached (s : System) : List String :=
  s.taken ++ s.phase.inHand

/-- The writer has left its loop. -/
def Left (s : System) : Prop :=
  s.phase = .leaving ∨ s.phase = .stopped

theorem left_of_fails {s s' : System} (h : s.Fails s') : s'.Left := by
  cases h with
  | write block hphase hfails hstep =>
    rw [hstep, Left, phase_write, hfails]
    exact .inl rfl
  | flush hphase hfails hstep =>
    rw [hstep, Left, phase_settle, hfails]
    exact .inl rfl

theorem left_step {s s' : System} (h : s.Left) (hstep : s.Step s') : s'.Left := by
  have hnot : ∀ phase, s.phase = phase → phase ≠ .leaving → phase ≠ .stopped → s'.Left := by
    rintro phase rfl hleaving hstopped
    exact (h.elim hleaving hstopped).elim
  cases hstep with
  | request caller command =>
    rw [Left, phase_request]
    exact h
  | enqueue q hq hstage hopen hroom =>
    rw [Left, phase_enqueue]
    exact h
  | receive command left hphase hqueue => exact hnot _ hphase nofun nofun
  | write block hphase => exact hnot _ hphase nofun nofun
  | settle hphase => exact hnot _ hphase nofun nofun
  | flush number hphase => exact hnot _ hphase nofun nofun
  | finish hphase => exact hnot _ hphase nofun nofun
  | hangUp hphase hqueue halone => exact hnot _ hphase nofun nofun
  | close hphase => exact .inr rfl
  | _ => exact h

/-- The sink has taken `n` blocks at least, and more if it is to be flushed after one. -/
def Beyond (n : Nat) (s : System) : Prop :=
  n ≤ s.taken.length ∧ (s.phase = .settling → n < s.taken.length)

theorem beyond_step {n : Nat} {s s' : System} (h : s.Beyond n) (hstep : s.Step s') : s'.Beyond n := by
  cases hstep with
  | request caller command =>
    unfold System.request
    split <;> exact h
  | enqueue q hq hstage hopen hroom =>
    rw [Beyond, taken_enqueue, phase_enqueue]
    exact h
  | receive command left hphase hqueue => cases command <;> exact ⟨h.1, nofun⟩
  | write block hphase =>
    rw [Beyond, taken_write, phase_write]
    split
    · have hmore : n < (s.taken ++ [block]).length := by
        rw [List.length_append]
        exact Nat.lt_succ_of_le h.1
      exact ⟨Nat.le_of_lt hmore, fun _ => hmore⟩
    · exact ⟨h.1, nofun⟩
  | settle hphase =>
    refine ⟨h.1, fun hsettling => ?_⟩
    rw [phase_settle] at hsettling
    split at hsettling <;> cases hsettling
  | flush number hphase =>
    rcases s.flush_cases number with heq | ⟨q, -, report, -, heq⟩ <;> rw [heq] <;> exact ⟨h.1, nofun⟩
  | finish hphase => exact ⟨h.1, nofun⟩
  | hangUp hphase hqueue halone => exact ⟨h.1, nofun⟩
  | close hphase => exact ⟨h.1, nofun⟩
  | _ => exact h

/-- A block that is lost after a report was accepted after the request. -/
theorem IsRun.lost_after_answer {w : Writer} {r : Nat → System} (h : IsRun w r) {j m : Nat} {a : Request}
    {report : Report} (hj : (r j).Answers (r (j + 1)) a report) (hm : (r m).Fails (r (m + 1))) (hjm : j < m) :
    (r j).taken.length < (r m).reached.length := by
  have hstart : (r (j + 1)).Beyond (r j).taken.length := by
    rw [hj.step]
    rcases (r j).flush_cases (some a.number) with heq | ⟨q, -, report, -, heq⟩ <;> rw [heq] <;>
      exact ⟨Nat.le_refl _, nofun⟩
  obtain ⟨hkept, hsettling⟩ := h.kept hstart (fun m _ hm hstep => beyond_step hm hstep) (Nat.succ_le_of_lt hjm)
  rw [reached, List.length_append]
  cases hm with
  | write block hphase hfails hstep =>
    rw [hphase]
    exact Nat.lt_succ_of_le hkept
  | flush hphase hfails hstep =>
    rw [hphase]
    exact hsettling hphase

/-- Once no clone is left, no call is in progress. -/
def Deserted (s : System) : Prop :=
  s.abandoned = true ∧ s.requests = []

theorem deserted_step {s s' : System} (h : s.Deserted) (hstep : s.Step s') : s'.Deserted := by
  obtain ⟨habandoned, hnone⟩ := h
  have hno : ∀ q, q ∈ s.requests → s'.Deserted := fun q hq => by
    rw [hnone] at hq
    cases hq
  cases hstep with
  | request caller command hclone => rw [habandoned] at hclone; cases hclone
  | enqueue q hq hstage hopen hroom => exact hno q hq
  | refuse q hq hstopped hwait => exact hno q hq
  | count q block hq hstage hcommand => exact hno q hq
  | cancel q hq hwait => exact hno q hq
  | abandon hrequests => exact ⟨rfl, hnone⟩
  | receive command left hphase hqueue => cases command <;> exact ⟨habandoned, hnone⟩
  | flush number hphase =>
    rcases s.flush_cases number with heq | ⟨q, hq, report, -, heq⟩
    · rw [heq]
      exact ⟨habandoned, hnone⟩
    · exact hno q hq
  | _ => exact ⟨habandoned, hnone⟩

theorem deserted_of_step {s s' : System} (hstep : s.Step s') (h : s'.abandoned = true) :
    s.abandoned = true ∨ s'.Deserted := by
  cases hstep with
  | request caller command => exact .inl (abandoned_request s caller command ▸ h)
  | enqueue q hq hstage hopen hroom => exact .inl (abandoned_enqueue s q ▸ h)
  | abandon hrequests => exact .inr ⟨rfl, hrequests⟩
  | receive command left hphase hqueue => cases command <;> exact .inl h
  | flush number hphase =>
    rcases s.flush_cases number with heq | ⟨q, -, report, -, heq⟩ <;> rw [heq] at h <;> exact .inl h
  | _ => exact .inl h

theorem IsRun.deserted {w : Writer} {r : Nat → System} (h : IsRun w r) {j k : Nat}
    (hj : (r j).abandoned = true) (hjk : j ≤ k) : (r k).requests = [] := by
  obtain ⟨m, hm, hbefore, habandoned, hstep⟩ := h.exists_step (P := fun s => s.abandoned = true) nofun hj
  have hdeserted : (r (m + 1)).Deserted := (deserted_of_step hstep habandoned).resolve_left hbefore
  exact (h.kept hdeserted (fun m _ hm hstep => deserted_step hm hstep) (Nat.le_trans hm hjk)).2

/-- The writer leaves its loop when it loses a block, when it was asked to stop, and when no clone is left. -/
theorem left_of_step {s s' : System} (hstep : s.Step s') (h : s'.Left) :
    s.Left ∨ s.Fails s' ∨ s.phase = .ending ∨ s.abandoned = true := by
  cases hstep with
  | request caller command =>
    rw [Left, phase_request] at h
    exact .inl h
  | enqueue q hq hstage hopen hroom =>
    rw [Left, phase_enqueue] at h
    exact .inl h
  | receive command left hphase hqueue => cases command <;> exact h.elim nofun nofun
  | write block hphase =>
    cases hwrite : (s.writer.sink.write block).2 with
    | true =>
      rw [Left, phase_write, hwrite] at h
      exact h.elim nofun nofun
    | false => exact .inr (.inl (.write block hphase hwrite rfl))
  | settle hphase =>
    cases hflush : s.writer.sink.flush.2 with
    | true =>
      rw [Left, phase_settle, hflush] at h
      exact h.elim nofun nofun
    | false => exact .inr (.inl (.flush hphase hflush rfl))
  | flush number hphase =>
    rcases s.flush_cases number with heq | ⟨q, -, report, -, heq⟩ <;> rw [heq] at h <;> exact h.elim nofun nofun
  | finish hphase => exact .inr (.inr (.inl hphase))
  | hangUp hphase hqueue halone => exact .inr (.inr (.inr halone))
  | close hphase => exact .inl (.inl hphase)
  | _ => exact .inl h

theorem IsRun.left {w : Writer} {r : Nat → System} (h : IsRun w r) {k : Nat} (hk : (r k).Left) :
    ∃ j < k, (r j).Fails (r (j + 1)) ∨ (r j).phase = .ending ∨ (r j).abandoned = true := by
  obtain ⟨j, hj, hbefore, hleft, hstep⟩ := h.exists_step (P := Left) (fun hleft => hleft.elim nofun nofun) hk
  exact ⟨j, hj, (left_of_step hstep hleft).resolve_left hbefore⟩

/-- Once the writer has left its loop, a call that waits can be told that it is gone. -/
theorem refusable_of_left {s : System} (h : s.Left) {q : Request} (hq : q ∈ s.requests)
    (hcommand : q.command = .flush) : ∃ s', s.Steps s' ∧ (q, .error .closed) ∈ s'.returned := by
  rcases h with hleaving | hstopped
  · have hrefuse : s.close.Step (s.close.give q (.error .closed)) := .refuse q hq rfl (.inr hcommand)
    exact ⟨_, (Relation.ReflTransGen.single (.close hleaving)).tail hrefuse,
      List.mem_append_right _ (List.mem_singleton_self _)⟩
  · exact ⟨_, .single (.refuse q hq hstopped (.inr hcommand)), List.mem_append_right _ (List.mem_singleton_self _)⟩

/-! ## The barrier -/

/-- What a call that asked for a flush returns, in every run and whatever the sink does. A report of the writer comes
after the queue took the request, when the sink has taken all blocks accepted before, and tells how the flush of the
sink went that comes next. If one of these blocks is lost, the call is told that the writer is gone. It is told so only
after a lost block or a request to stop. A call that still waits after a lost block can be told so and gets no
report. -/
theorem flush_barrier {capacity : Nat} {faults : Sink.Faults} {w : Writer}
    (hw : Writer.ofSink? capacity { faults := faults } = some w) {r : Nat → System} (h : IsRun w r) (k : Nat) :
    (∀ a report, (a, report) ∈ (r k).returned → a.command = .flush →
      (report ≠ .error .closed → ∃ i j, i < j ∧ j < k ∧ Enqueues r i a ∧
        (r j).Answers (r (j + 1)) a report ∧ (r j).taken = (r i).accepted.map (·.2)) ∧
      (∀ i j, Enqueues r i a → j < k → (r j).Fails (r (j + 1)) → (r j).reached.length ≤ (r i).accepted.length →
        report = .error .closed) ∧
      (report = .error .closed → ∃ j < k, (r j).Fails (r (j + 1)) ∨ (r j).phase = .ending)) ∧
    ∀ j < k, (r j).Fails (r (j + 1)) → ∀ q ∈ (r k).requests, q.command = .flush →
      ∃ s', (r k).Steps s' ∧ (q, .error .closed) ∈ s'.returned := by
  have hleft {j m : Nat} (hj : (r j).Fails (r (j + 1))) (hjm : j < m) : (r m).Left :=
    h.kept (left_of_fails hj) (fun m _ hm hstep => left_step hm hstep) (Nat.succ_le_of_lt hjm)
  refine ⟨fun a report ha hcommand => ?_, fun j hj hfails q hq hcommand =>
    refusable_of_left (hleft hfails hj) hq hcommand⟩
  obtain ⟨j, hj, hreturns⟩ := h.returned hw ha hcommand
  refine ⟨fun hreport => ?_, fun i m hi hm hfails hbefore => ?_, fun hclosed => ?_⟩
  · rcases hreturns with ⟨hstage, hanswers⟩ | ⟨-, -, hclosed⟩
    · obtain ⟨i, hij, hi⟩ := h.enqueued hanswers.waiting.1 hstage
      exact ⟨i, j, hij, hj, hi, hanswers, h.taken_of_answers hw hcommand hi hij hanswers⟩
    · exact absurd hclosed hreport
  · rcases hreturns with ⟨hstage, hanswers⟩ | ⟨-, -, hclosed⟩
    · exfalso
      obtain ⟨first, hfirst, hadmitted⟩ := h.enqueued hanswers.waiting.1 hstage
      have hij : i < j := Nat.lt_of_le_of_lt (h.enqueues_le hw hcommand hi hadmitted) hfirst
      have htaken := congrArg List.length (h.taken_of_answers hw hcommand hi hij hanswers)
      rw [List.length_map] at htaken
      rcases Nat.lt_trichotomy m j with hmj | rfl | hjm
      · exact (hleft hfails hmj).elim (by rw [hanswers.phase]; nofun) (by rw [hanswers.phase]; nofun)
      · cases hfails with
        | write block hphase => rw [hanswers.phase] at hphase; cases hphase
        | flush hphase => rw [hanswers.phase] at hphase; cases hphase
      · have hmore := h.lost_after_answer hanswers hfails hjm
        omega
    · exact hclosed
  · rcases hreturns with ⟨-, hanswers⟩ | ⟨hstopped, hmem, -⟩
    · have hresult := hanswers.result
      rw [hclosed, flushReport] at hresult
      split at hresult <;> cases hresult
    · obtain ⟨m, hm, hfails | hending | habandoned⟩ := h.left (.inr hstopped)
      · exact ⟨m, Nat.lt_trans hm hj, .inl hfails⟩
      · exact ⟨m, Nat.lt_trans hm hj, .inr hending⟩
      · rw [h.deserted habandoned (Nat.le_of_lt hm)] at hmem
        cases hmem

/-! ## A lost block -/

/-- A sink that fails when it is flushed the second time and when it is handed the second block. -/
def failingTwice : Sink.Faults where
  write n := n = 2
  flush n := n = 2

/-- A writer on that sink. -/
def failingWriter : Writer :=
  { capacity := 1, sink := { faults := failingTwice } }

/-- A call that asks for a flush. -/
def asking (number caller : Nat) : Request :=
  { number := number, caller := caller, command := .flush }

/-- One caller hands over two blocks, and behind each of them the other one asks for a flush. The flush behind the first
block fails, and the second block is lost. -/
def lostBlockMoves : List (System → System) :=
  [(·.request 0 (.write "A\n")), (·.enqueue (handing 0 0 "A\n")), (·.receive (.write "A\n") []), (·.write "A\n"),
    settle, (·.request 1 .flush), (·.enqueue (asking 1 1)), (·.receive .flush []), (·.flush (some 1)),
    (·.request 0 (.write "B\n")), (·.enqueue (handing 2 0 "B\n")), (·.receive (.write "B\n") []),
    (·.request 1 .flush), (·.enqueue (asking 3 1)), (·.write "B\n"), close,
    (·.give { asking 3 1 with stage := .accepted } (.error .closed))]

/-- The states that these moves lead through. Nothing happens after the last one. -/
def lostBlockRun (i : Nat) : System :=
  after { writer := failingWriter } (lostBlockMoves.take i)

theorem isRun_lostBlockRun : IsRun failingWriter lostBlockRun := by
  refine ⟨rfl, fun i => ?_⟩
  match i with
  | 0 => exact .inr (.request 0 (.write "A\n") rfl)
  | 1 => exact .inr (.enqueue (handing 0 0 "A\n") (by decide) rfl (by decide) (by decide))
  | 2 => exact .inr (.receive (.write "A\n") _ rfl rfl)
  | 3 => exact .inr (.write "A\n" rfl)
  | 4 => exact .inr (.settle rfl)
  | 5 => exact .inr (.request 1 .flush rfl)
  | 6 => exact .inr (.enqueue (asking 1 1) (by decide) rfl (by decide) (by decide))
  | 7 => exact .inr (.receive .flush _ rfl rfl)
  | 8 => exact .inr (.flush (some 1) rfl)
  | 9 => exact .inr (.request 0 (.write "B\n") rfl)
  | 10 => exact .inr (.enqueue (handing 2 0 "B\n") (by decide) rfl (by decide) (by decide))
  | 11 => exact .inr (.receive (.write "B\n") _ rfl rfl)
  | 12 => exact .inr (.request 1 .flush rfl)
  | 13 => exact .inr (.enqueue (asking 3 1) (by decide) rfl (by decide) (by decide))
  | 14 => exact .inr (.write "B\n" rfl)
  | 15 => exact .inr (.close rfl)
  | 16 => exact .inr (.refuse { asking 3 1 with stage := .accepted } (by decide) rfl (.inr rfl))
  | n + 17 =>
    have hlength : lostBlockMoves.length ≤ n + 17 := Nat.le_add_left 17 n
    rw [lostBlockRun, lostBlockRun, List.take_of_length_le hlength,
      List.take_of_length_le (Nat.le_succ_of_le hlength)]
    exact .inl rfl

/-- The call behind the first block is told that the flush failed, the one behind the lost block that the writer is
gone. -/
theorem flush_barrier_lost_block :
    ∃ w r asked late, Writer.ofSink? 1 { faults := failingTwice } = some w ∧ IsRun w r ∧
      asked.command = .flush ∧ (asked, .error (.sink "broken pipe")) ∈ (r 17).returned ∧
      (∃ i j, i < j ∧ j < 17 ∧ Enqueues r i asked ∧
        (r j).Answers (r (j + 1)) asked (.error (.sink "broken pipe")) ∧ (r j).taken = (r i).accepted.map (·.2)) ∧
      late.command = .flush ∧ Enqueues r 13 late ∧ (r 14).Fails (r 15) ∧
      (r 14).reached.length ≤ (r 13).accepted.length ∧ (late, .error .closed) ∈ (r 17).returned ∧
      (r 17).taken = ["A\n"] ∧ (r 17).accepted = [(0, "A\n"), (0, "B\n")] := by
  have hw : Writer.ofSink? 1 { faults := failingTwice } = some failingWriter := rfl
  have hasked : ({ asking 1 1 with stage := .accepted }, .error (.sink "broken pipe")) ∈ (lostBlockRun 17).returned :=
    .head _
  have hlate : ({ asking 3 1 with stage := .accepted }, .error .closed) ∈ (lostBlockRun 17).returned :=
    .tail _ (.head _)
  have hfails : (lostBlockRun 14).Fails (lostBlockRun 15) := .write "B\n" rfl rfl rfl
  have henqueues : Enqueues lostBlockRun 13 { asking 3 1 with stage := .accepted } :=
    ⟨asking 3 1, by decide, rfl, rfl, rfl⟩
  have hbefore : (lostBlockRun 14).reached.length ≤ (lostBlockRun 13).accepted.length := by decide
  obtain ⟨hcalls, -⟩ := flush_barrier hw isRun_lostBlockRun 17
  have hreport := (hcalls _ _ hasked rfl).1 nofun
  have hclosed : (.error .closed : Report) = .error .closed :=
    (hcalls _ _ hlate rfl).2.1 13 14 henqueues (by decide) hfails hbefore
  exact ⟨failingWriter, lostBlockRun, _, _, hw, isRun_lostBlockRun, rfl, hasked, hreport, rfl, henqueues, hfails,
    hbefore, hclosed ▸ hlate, rfl, rfl⟩

end System

end ChartStream.Writer
