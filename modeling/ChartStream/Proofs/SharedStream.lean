import ChartStream.Proofs.Fleet
import Mathlib.Algebra.BigOperators.Group.List.Basic
import Mathlib.Algebra.GroupWithZero.Nat

/-!
# The stream of many jobs

What the sink holds of jobs that share a writer. Main result: `Fleet.shared_stream`.
-/

namespace ChartStream

set_option autoImplicit false

/-! ## Merging streams -/

theorem ownedBy_map {ι α β : Type} [DecidableEq ι] (f : α → β) (i : ι) (entries : List (ι × α)) :
    ownedBy i (entries.map fun e => (e.1, f e.2)) = (ownedBy i entries).map f := by
  simp [ownedBy, List.filter_map, Function.comp_def]

section Merging

variable {ι : Type} [DecidableEq ι]

/-- Blocks of owners that name charts of their own are admitted in any order that keeps the order of each. -/
theorem admits_merged (ids : ι → List String) (hids : ∀ i j, i ≠ j → List.Disjoint (ids i) (ids j))
    (entries : List (ι × List Line)) (r : Receiver) (own : ι → Receiver)
    (hview : ∀ i, ∀ id ∈ ids i, (own i).view id = r.view id)
    (h : ∀ i, Job.AdmitsAll (ids i) (own i) (ownedBy i entries)) :
    r.Accepts ((entries.flatMap (·.2)).map Line.onWire) ∧ ∀ line ∈ entries.flatMap (·.2), line.Plain := by
  induction entries generalizing r own with
  | nil => exact ⟨r.accepts_nil, fun _ h => by cases h⟩
  | cons entry rest ih =>
    obtain ⟨i, block⟩ := entry
    have hi := h i
    rw [ownedBy_cons_self] at hi
    obtain ⟨hadmits, hrest⟩ := hi
    -- The owner has read its block, and nobody else has.
    have hlater := ih (r.readAll (block.map Line.onWire))
      (Function.update own i ((own i).readAll (block.map Line.onWire)))
      (fun j id hid => by
        by_cases hj : j = i
        · subst hj
          rw [Function.update_self]
          exact Receiver.view_readAll_of_headed hadmits.within.headed (hview j id hid)
        · rw [Function.update_of_ne hj, hadmits.within.view_eq r (hids j i hj hid)]
          exact hview j id hid)
      (fun j => by
        by_cases hj : j = i
        · subst hj
          rw [Function.update_self]
          exact hrest
        · rw [Function.update_of_ne hj]
          have hother := h j
          rwa [ownedBy_cons_of_ne (Ne.symm hj)] at hother)
    have haccepts : r.Accepts (block.map Line.onWire) :=
      hadmits.accepts.congr hadmits.within.headed fun line hl id hid =>
        hview i id (hadmits.within.named line hl id hid)
    rw [List.flatMap_cons, List.map_append]
    refine ⟨haccepts.append hlater.1, fun line hl => ?_⟩
    rcases List.mem_append.mp hl with hl | hl
    · exact hadmits.plain line hl
    · exact hlater.2 line hl

/-- Texts in any order that keeps the order of each owner come from blocks in such an order. -/
theorem exists_blocks (texts : List (ι × String)) (blocks : ι → List (List Line))
    (h : ∀ i, ownedBy i texts <+: (blocks i).map Line.renderAll) :
    ∃ entries : List (ι × List Line),
      texts = entries.map (fun e => (e.1, Line.renderAll e.2)) ∧ ∀ i, ownedBy i entries <+: blocks i := by
  induction texts generalizing blocks with
  | nil => exact ⟨[], rfl, fun i => List.nil_prefix⟩
  | cons text rest ih =>
    obtain ⟨i, text⟩ := text
    have hi := h i
    rw [ownedBy_cons_self] at hi
    cases hblocks : blocks i with
    | nil =>
      rw [hblocks] at hi
      exact absurd (List.prefix_nil.mp hi) (by simp)
    | cons block further =>
      rw [hblocks, List.map_cons, List.cons_prefix_cons] at hi
      obtain ⟨rfl, hfurther⟩ := hi
      obtain ⟨entries, hentries, hprefix⟩ := ih (Function.update blocks i further) fun j => by
        by_cases hj : j = i
        · subst hj
          rwa [Function.update_self]
        · rw [Function.update_of_ne hj]
          have hother := h j
          rwa [ownedBy_cons_of_ne (Ne.symm hj)] at hother
      refine ⟨(i, block) :: entries, by rw [hentries]; rfl, fun j => ?_⟩
      have hj := hprefix j
      by_cases hji : j = i
      · subst hji
        rw [Function.update_self] at hj
        rw [ownedBy_cons_self, hblocks]
        exact (List.cons_prefix_cons.mpr ⟨rfl, hj⟩)
      · rw [Function.update_of_ne hji] at hj
        rwa [ownedBy_cons_of_ne (Ne.symm hji)]

end Merging

theorem Line.join_renderAll (blocks : List (List Line)) :
    String.join (blocks.map Line.renderAll) = Line.renderAll blocks.flatten := by
  induction blocks with
  | nil => rfl
  | cons block rest ih => rw [List.map_cons, String.join_cons, ih, List.flatten_cons, renderAll_append]

namespace Fleet

variable {n : Nat} {jobs : Fin n → Job} {f : Fleet n}

/-! ## Blocks in the sink -/

/-- No block is on its way. -/
structure Settled (f : Fleet n) : Prop where
  phase : f.system.phase = .receiving
  queue : f.system.writer.queue = []
  calls : ∀ q ∈ f.system.requests, q.command.block? = none

/-- The charts of all jobs have ids of their own on the wire. -/
structure Separate (f : Fleet n) : Prop where
  own : ∀ i, (f.jobs i).wireIds.Nodup
  apart : ∀ i j, i ≠ j → List.Disjoint (f.jobs i).wireIds (f.jobs j).wireIds

theorem exists_tagged {α : Type} (entries : List (Nat × α)) (h : ∀ e ∈ entries, e.1 < n) :
    ∃ tagged : List (Fin n × α), entries.map (·.2) = tagged.map (·.2) ∧
      ∀ i : Fin n, ownedBy (i : Nat) entries = ownedBy i tagged := by
  induction entries with
  | nil => exact ⟨[], rfl, fun _ => rfl⟩
  | cons entry rest ih =>
    obtain ⟨owner, a⟩ := entry
    have howner : owner < n := h _ List.mem_cons_self
    obtain ⟨tagged, hmap, howned⟩ := ih fun e he => h e (List.mem_cons_of_mem _ he)
    refine ⟨(⟨owner, howner⟩, a) :: tagged, by rw [List.map_cons, List.map_cons, hmap], fun i => ?_⟩
    by_cases hi : (⟨owner, howner⟩ : Fin n) = i
    · subst hi
      rw [ownedBy_cons_self, ownedBy_cons_self, howned]
    · have hne : owner ≠ i := fun heq => hi (Fin.ext heq)
      rw [ownedBy_cons_of_ne hi, ownedBy_cons_of_ne hne, howned]

theorem Delivered.isPrefix {calls : List Writer.Request} {accepted blocks : List String}
    (h : Delivered calls accepted blocks) : accepted <+: blocks := by
  rcases h with ⟨-, rfl⟩ | ⟨q, block, -, -, ⟨-, rfl⟩ | ⟨-, rfl⟩⟩
  · exact List.prefix_refl _
  · exact List.prefix_append _ _
  · exact List.prefix_refl _

theorem Settled.delivered (hsettled : f.Settled) (h : Sound jobs f) (i : Fin n) :
    f.callsOf i = [] ∧ f.acceptedOf i = textsOf (jobs i) (f.history i) := by
  rcases h.delivered i with ⟨hidle, hblocks⟩ | ⟨q, block, hcalls, hcommand, -⟩
  · exact ⟨hidle, hblocks.symm⟩
  · have hq : q ∈ f.callsOf i := hcalls ▸ List.mem_singleton_self q
    have hnone := hsettled.calls q (List.mem_filter.mp hq).1
    rw [hcommand] at hnone
    cases hnone

theorem exists_entries (h : Sound jobs f) :
    ∃ entries : List (Fin n × List Line), f.system.taken = entries.map (fun e => Line.renderAll e.2) ∧
      ∀ i, ownedBy i entries <+: ((jobs i).alone (f.history i)).blocks ∧
        (f.Settled → ownedBy i entries = ((jobs i).alone (f.history i)).blocks) := by
  obtain ⟨rest, haccepted, hrest⟩ := h.ordered
  obtain ⟨tagged, hmap, howned⟩ := exists_tagged f.system.accepted h.callers.2
  let texts := tagged.take f.system.taken.length
  have htaken : f.system.taken = texts.map (·.2) := by
    rw [List.map_take, ← hmap, haccepted, List.take_left]
  have hprefix : ∀ i, ownedBy i texts <+: textsOf (jobs i) (f.history i) := fun i =>
    (ownedBy_isPrefix (List.take_prefix _ _) i).trans (howned i ▸ (h.delivered i).isPrefix)
  obtain ⟨entries, hentries, hblocks⟩ := exists_blocks texts _ hprefix
  refine ⟨entries, ?_, fun i => ⟨hblocks i, fun hsettled => ?_⟩⟩
  · rw [htaken, hentries, List.map_map]
    rfl
  · have hempty : rest = [] := by
      rw [hrest (by rw [hsettled.phase]; rfl), hsettled.phase, hsettled.queue]
      rfl
    have hall : texts = tagged := by
      refine List.take_of_length_le ?_
      have hlength := congrArg List.length (hmap.symm.trans haccepted)
      rw [hempty, List.append_nil, List.length_map] at hlength
      exact Nat.le_of_eq hlength
    have htexts : (ownedBy i entries).map Line.renderAll = textsOf (jobs i) (f.history i) := by
      rw [← (hsettled.delivered h i).2, acceptedOf, howned, ← hall, hentries, ownedBy_map]
    refine (hblocks i).eq_of_length ?_
    simpa [textsOf] using congrArg List.length htexts

/-! ## Coming to rest -/

/-- How many steps the block of a call has ahead of it at most. -/
def callLoad (q : Writer.Request) : Nat :=
  if q.command.block? = none then 0 else if q.stage = .sending then 5 else 1

/-- How many steps the block in hand has ahead of it. -/
def phaseLoad : Writer.Phase → Nat
  | .writing _ => 2
  | .settling => 1
  | .flushing _ => 1
  | _ => 0

/-- How many steps the blocks on their way have ahead of them at most. -/
def load (s : Writer.System) : Nat :=
  (s.requests.map callLoad).sum + 3 * s.writer.queue.length + phaseLoad s.phase

theorem load_count {s : Writer.System} {q : Writer.Request} {block : String} (hq : q ∈ s.requests)
    (hstage : q.stage = .accepted) (hcommand : q.command = .write block) : load (s.count q) < load s := by
  have hone : callLoad q = 1 := by simp [callLoad, hcommand, hstage, Writer.Command.block?]
  have hsum := List.sum_map_erase callLoad hq
  have hafter : load (s.count q) =
      ((s.requests.erase q).map callLoad).sum + 3 * s.writer.queue.length + phaseLoad s.phase := rfl
  rw [hafter, load]
  omega

theorem load_enqueue {s : Writer.System} {q : Writer.Request} {block : String} (hq : q ∈ s.requests)
    (hstage : q.stage = .sending) (hcommand : q.command = .write block) : load (s.enqueue q) < load s := by
  have hfive : callLoad q = 5 := by simp [callLoad, hcommand, hstage, Writer.Command.block?]
  have hsum := List.sum_map_erase callLoad hq
  have hafter : load (s.enqueue q) = ((s.requests.erase q).map callLoad).sum + 1
      + 3 * (s.writer.queue.length + 1) + phaseLoad s.phase := by
    simp [load, s.requests_enqueue q, hcommand, callLoad, Writer.Command.block?]
  rw [hafter, load]
  omega

theorem load_receive {s : Writer.System} {command : Writer.Command} {rest : List Writer.Command}
    (hphase : s.phase = .receiving) (hqueue : s.writer.queue = command :: rest) :
    load (s.receive command rest) < load s := by
  have hbefore : load s = (s.requests.map callLoad).sum + 3 * (rest.length + 1) := by
    rw [load, hqueue, hphase]
    rfl
  rw [hbefore]
  cases command <;> simp [load, Writer.System.receive, phaseLoad] <;> omega

theorem load_flush {s : Writer.System} {number : Option Nat} (hphase : s.phase = .flushing number) :
    load (s.flush number) < load s := by
  have hbefore : load s = (s.requests.map callLoad).sum + 3 * s.writer.queue.length + 1 := by
    rw [load, hphase]
    rfl
  rw [hbefore]
  rcases s.flush_cases number with heq | ⟨q, hq, report, -, heq⟩ <;> rw [heq]
  · exact Nat.lt_succ_self _
  · have hsum := List.sum_map_erase callLoad hq
    simp only [load, Writer.System.give, phaseLoad]
    omega

/-- As long as a block is on its way, the writer or a call can bring one further. -/
theorem settled_or_step (h : Runs f.system) :
    f.Settled ∨ ∃ move, f.Step (f.on move) ∧ load (move f.system) < load f.system := by
  have hgoes := h.goesOn
  cases hphase : f.system.phase with
  | writing block =>
    refine .inr ⟨_, .write block hphase, ?_⟩
    simp [Writer.System.write, write_of_runs h, load, phaseLoad, hphase]
  | settling =>
    refine .inr ⟨_, .settle hphase, ?_⟩
    have hflush : f.system.writer.sink.flush.2 = true := by simp [Sink.flush, h.flush]
    simp only [load, phaseLoad, hphase, Writer.System.settle, hflush]
    exact Nat.lt_succ_self _
  | flushing number => exact .inr ⟨_, .flush number hphase, load_flush hphase⟩
  | receiving =>
    cases hqueue : f.system.writer.queue with
    | cons command rest =>
      exact .inr ⟨_, .receive command rest hphase hqueue, load_receive hphase hqueue⟩
    | nil =>
      by_cases hcalls : ∀ q ∈ f.system.requests, q.command.block? = none
      · exact .inl ⟨hphase, hqueue, hcalls⟩
      · push Not at hcalls
        obtain ⟨q, hq, hblock⟩ := hcalls
        obtain ⟨block, hcommand⟩ : ∃ block, q.command = .write block := by
          cases hcommand : q.command with
          | write block => exact ⟨block, rfl⟩
          | _ =>
            rw [hcommand] at hblock
            exact absurd rfl hblock
        cases hstage : q.stage with
        | sending =>
          have hroom : f.system.writer.queue.length < f.system.writer.capacity := hqueue ▸ h.capacity
          exact .inr ⟨_, .enqueue q hq hstage hroom, load_enqueue hq hstage hcommand⟩
        | accepted => exact .inr ⟨_, .count q block hq hstage hcommand, load_count hq hstage hcommand⟩
  | _ =>
    rw [hphase] at hgoes
    cases hgoes

theorem exists_settled (h : Runs f.system) : ∃ f', f.Steps f' ∧ f'.history = f.history ∧ f'.Settled := by
  induction hload : load f.system using Nat.strongRecOn generalizing f with
  | _ m ih =>
    rcases settled_or_step h with hsettled | ⟨move, hstep, hless⟩
    · exact ⟨f, .refl, rfl, hsettled⟩
    · obtain ⟨f', hsteps, hhistory, hsettled⟩ := ih _ (hload ▸ hless) (runs_step h hstep).1 rfl
      exact ⟨f', .head hstep hsteps, hhistory, hsettled⟩

/-! ## The stream -/

/-- What holds of jobs that share a writer at every moment. -/
structure Shares (jobs : Fin n → Job) (f : Fleet n) : Prop where
  /-- The sink holds whole blocks. Those of each job are the first that it sends alone, in the same order and
  each once, and they are all that it sends as soon as no block is on its way. -/
  whole : ∃ entries : List (Fin n × List Line), f.system.taken = entries.map (fun e => Line.renderAll e.2) ∧
    ∀ i, ownedBy i entries <+: ((jobs i).alone (f.history i)).blocks ∧
      (f.Settled → ownedBy i entries = ((jobs i).alone (f.history i)).blocks)
  /-- The writer can bring all blocks on their way through, and every job may go on then. -/
  settles : ∃ f', f.Steps f' ∧ f'.history = f.history ∧ f'.Settled ∧ ∀ i, f'.callsOf i = []
  wellFormed : ∃ lines, Line.readLines? f.system.writer.sink.contents = some lines ∧ Line.WellFormed lines

/-- Whatever jobs share a writer, whatever their collections come to and in whatever order they and the writer
get on, the sink holds whole blocks of each job as it would send them alone, and the whole text is well
formed. -/
theorem shared_stream (jobs : Fin n → Job) (hjobs : ∀ i, (jobs i).Unstarted) {capacity : Nat} {w : Writer}
    (hw : Writer.ofSink? capacity {} = some w) (hsteps : (start jobs w).Steps f)
    (hplain : ∀ i, (jobs i).PlainAlong (f.history i)) (hseparate : f.Separate) : Shares jobs f := by
  have h := sound_steps (sound_start jobs hw) hsteps
  obtain ⟨entries, htaken, hblocks⟩ := exists_entries h
  have hadmits : ∀ i, Job.AdmitsAll (f.jobs i).wireIds {} (ownedBy i entries) := fun i => by
    have hids := hseparate.own i
    rw [h.alone i] at hids ⊢
    obtain ⟨further, hfurther⟩ := (hblocks i).1
    have hall := Job.admits_alone (hjobs i).coherent ((hjobs i).announced {}) (f.history i) (h.silent i)
      (hplain i) hids
    rw [← hfurther] at hall
    exact hall.of_append
  obtain ⟨haccepts, hplain⟩ := admits_merged (fun i => (f.jobs i).wireIds) hseparate.apart entries {}
    (fun _ => {}) (fun _ _ _ => rfl) hadmits
  have hcontents : f.system.writer.sink.contents = Line.renderAll (entries.flatMap (·.2)) := by
    change String.join f.system.taken = _
    have hmap : entries.map (fun e => Line.renderAll e.2) = (entries.map (·.2)).map Line.renderAll := by
      rw [List.map_map]
      rfl
    rw [htaken, hmap, Line.join_renderAll, List.flatMap_def]
  obtain ⟨f', hfurther, hhistory, hsettled⟩ := exists_settled h.runs
  have hidle := fun i => (hsettled.delivered (sound_steps h hfurther) i).1
  refine ⟨⟨entries, htaken, hblocks⟩, ⟨f', hfurther, hhistory, hsettled, hidle⟩, ?_⟩
  rw [hcontents]
  exact ⟨_, Line.readLines?_renderAll _ hplain, Line.wellFormed_of_accepts haccepts⟩

/-- Two jobs of one module. -/
def twins : Fin 2 → Job := fun i => Job.ofCollector "p" (i = 0) "m" (if i = 0 then "a" else "b") {}

/-- The chart that each of them makes. -/
def twinLayout : Layout :=
  Layout.empty.append "c"
    { options := [.null, .string "Traffic", .string "kb", .string "net", .string "net.traffic"]
      lines := [.array [.string "in"]] }

/-- A cycle that collects a value for it. -/
def twinCycle (value : Int) : Job.Step :=
  .cycle { ending := .answered (.ok (some ⟨[("in", .integer value)]⟩)), elapsed := 5 }

/-- Both jobs wait to hand a block over, and the later one comes first. -/
theorem shared_stream_twins :
    ∃ w f, Writer.ofSink? 0 {} = some w ∧ (start twins w).Steps f ∧
      f.system.accepted.map (·.1) = [1] ∧ f.system.taken.length = 1 ∧ (f.callsOf 0).length = 1 ∧
      Shares twins f := by
  let block : String := Line.renderAll ((twins 1).alone [.create twinLayout, twinCycle 4]).blocks.flatten
  let later : Writer.Request := { number := 1, caller := 1, command := .write block }
  let w : Writer := { capacity := 1 }
  have hw : Writer.ofSink? 0 {} = some w := rfl
  have hsteps : (start twins w).Steps _ :=
    ((((((Relation.ReflTransGen.refl.tail
      (.job 0 (.create twinLayout) (by decide +kernel) (by decide +kernel))).tail
      (.job 1 (.create twinLayout) (by decide +kernel) (by decide +kernel))).tail
      (.job 0 (twinCycle 3) (by decide +kernel) (by decide +kernel))).tail
      (.job 1 (twinCycle 4) (by decide +kernel) (by decide +kernel))).tail
      (.enqueue later (by decide +kernel) (by decide +kernel) (by decide +kernel))).tail
      (.receive later.command [] (by decide +kernel) (by decide +kernel))).tail
      (.write block (by decide +kernel))
  have hjobs : ∀ i, (twins i).Unstarted := fun i => ⟨_, _, _, _, _, rfl⟩
  refine ⟨w, _, hw, hsteps, by decide +kernel, by decide +kernel, by decide +kernel,
    shared_stream twins hjobs hw hsteps (by decide +kernel) ⟨by decide +kernel, fun i j hij => ?_⟩⟩
  rw [List.disjoint_left]
  revert i j
  decide +kernel

end Fleet

end ChartStream
