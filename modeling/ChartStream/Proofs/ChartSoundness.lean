import ChartStream.Proofs.Retirement
import ChartStream.Proofs.SampleAgreement

/-!
# What holds of a chart at any time

Ids are distinct, factors are not zero, and a dimension that waits to be taken back has a declaration that is due.
Every operation keeps this, and one that is refused changes nothing. Main definitions: `Dimension.Built`,
`Chart.Started`, `Chart.Sound`, `Chart.Refused`. Main result: `Chart.sound_at_any_time`.
-/

namespace ChartStream

set_option autoImplicit false

/-! ## Dimensions that are built -/

namespace Dimension

/-- A dimension that is built from its id, one attribute after the other. -/
inductive Built : Dimension → Prop
  | ofId (id : String) : Built (ofId id)
  | withName {d : Dimension} (h : Built d) (name : String) : Built (d.withName name)
  | withAlgorithm {d : Dimension} (h : Built d) (algorithm : Algorithm) : Built (d.withAlgorithm algorithm)
  | withMultiplier {d : Dimension} (h : Built d) (n : Int) : Built (d.withMultiplier n)
  | withDivisor {d : Dimension} (h : Built d) (n : Int) : Built (d.withDivisor n)

/-- Values can be scaled: neither factor is zero. -/
def Scalable (d : Dimension) : Prop :=
  d.multiplier ≠ 0 ∧ d.divisor ≠ 0

theorem Built.scalable {d : Dimension} (h : d.Built) : d.Scalable := by
  induction h with
  | ofId id => exact ⟨Int.one_ne_zero, Int.one_ne_zero⟩
  | withName h name ih => exact ih
  | withAlgorithm h algorithm ih => exact ih
  | withMultiplier h n ih => exact ⟨factor_ne_zero (some n), ih.2⟩
  | withDivisor h n ih => exact ⟨ih.1, factor_ne_zero (some n)⟩

theorem scalable_ofParameters {params : Json} {d : Dimension} (h : ofParameters params = .ok d) : d.Scalable := by
  unfold ofParameters at h
  obtain ⟨p, -, h⟩ := Catalog.ok_of_bind h
  obtain ⟨id, -, h⟩ := Catalog.ok_of_bind h
  cases h
  exact ⟨factor_ne_zero _, factor_ne_zero _⟩

end Dimension

namespace Chart

/-! ## Charts that are built -/

/-- A chart that was just built, with any attributes or from parameters. -/
inductive Started : Chart → Prop
  | new (header : ChartHeader) : Started { toChartHeader := header }
  | ofParameters {params : Json} {c : Chart} (h : ofParameters params = .ok c) : Started c

theorem Started.eq {c : Chart} (h : c.Started) : c = { toChartHeader := c.toChartHeader } := by
  cases h with
  | new header => rfl
  | ofParameters h =>
    obtain ⟨p, style, hidden, -, rfl⟩ := ofParameters_eq h
    rfl

/-! ## The invariant -/

/-- What holds of a chart at any time. -/
structure Sound (c : Chart) : Prop where
  dimensions : c.Distinct
  vars : c.DistinctVars
  scalable : ∀ d ∈ c.dimensions, d.Scalable
  /-- A dimension that waits to be taken back has a declaration that is due. -/
  due : ∀ d ∈ c.dimensions, d.obsolete = true → c.state.push = true

/-- The operation inserts no dimension but one that was built. -/
def Operation.InsertsBuilt : Operation → Prop
  | .insertDimension d => d.Built
  | _ => True

theorem Operation.InsertsBuilt.scalable {op : Operation} (h : op.InsertsBuilt) {d : Dimension}
    (hadded : op.added? = some d) : d.Scalable := by
  cases op with
  | addDimension params =>
    cases hd : Dimension.ofParameters params with
    | ok declared =>
      rw [Operation.added?, hd] at hadded
      cases hadded
      exact Dimension.scalable_ofParameters hd
    | error e =>
      rw [Operation.added?, hd] at hadded
      cases hadded
  | insertDimension built =>
    cases hadded
    exact Dimension.Built.scalable h
  | _ => cases hadded

theorem Started.sound {c : Chart} (h : c.Started) : c.Sound := by
  rw [h.eq]
  exact ⟨List.nodup_nil, List.nodup_nil, nofun, nofun⟩

/-! ## What an operation keeps -/

variable {c : Chart}

/-- Where a dimension comes from: it was there before, if with other flags, or the operation adds it. -/
def ComesFrom (c : Chart) (op : Operation) (e : Dimension) : Prop :=
  (∃ d ∈ c.dimensions, e = { d with hidden := e.hidden, obsolete := e.obsolete }) ∨ op.added? = some e

theorem comesFrom_of_mem {op : Operation} {e : Dimension} (h : e ∈ c.dimensions) : c.ComesFrom op e :=
  .inl ⟨e, h, rfl⟩

theorem comesFrom_of_added {op : Operation} {d : Dimension} (hop : op.added? = some d) :
    ∀ e ∈ (c.apply op).chart.dimensions, c.ComesFrom op e := by
  intro e he
  rw [apply_of_added hop] at he
  simp only [apply, insertDimension] at he
  split at he
  · rcases List.mem_append.mp he with he | he
    · exact comesFrom_of_mem he
    · rw [List.mem_singleton.mp he]
      exact .inr hop
  · split at he
    · obtain ⟨held, hheld, rfl⟩ := List.mem_map.mp he
      split
      · exact .inr hop
      · exact comesFrom_of_mem hheld
    · exact comesFrom_of_mem he

theorem comesFrom_modifyDimension? {op : Operation} {id : String} {change : Dimension → Dimension}
    (hchange : ∀ d, change d = { d with hidden := (change d).hidden, obsolete := (change d).obsolete }) :
    ∀ e ∈ (Effect.ofOption c (c.modifyDimension? id change)).chart.dimensions, c.ComesFrom op e := by
  intro e he
  unfold modifyDimension? at he
  split at he
  · obtain ⟨d, hd, rfl⟩ := List.mem_map.mp he
    split
    · exact .inl ⟨d, hd, hchange d⟩
    · exact comesFrom_of_mem hd
  · exact comesFrom_of_mem he

theorem comesFrom_removeDimension? {op : Operation} {id : String} :
    ∀ e ∈ (Effect.ofOption c (c.removeDimension? id)).chart.dimensions, c.ComesFrom op e := by
  intro e he
  unfold removeDimension? at he
  split at he
  · exact comesFrom_of_mem (List.mem_of_mem_filter he)
  · exact comesFrom_of_mem he

/-- The dimensions after an operation come from somewhere, whatever the operation is. -/
theorem comesFrom_apply (c : Chart) (op : Operation) : ∀ e ∈ (c.apply op).chart.dimensions, c.ComesFrom op e := by
  intro e he
  cases op with
  | addDimension params =>
    cases hd : Dimension.ofParameters params with
    | ok d => exact comesFrom_of_added (by rw [Operation.added?, hd]; rfl) e he
    | error error =>
      rw [c.addDimension_of_error hd] at he
      exact comesFrom_of_mem he
  | insertDimension d => exact comesFrom_of_added rfl e he
  | addVariable params =>
    rcases c.apply_addVariable params with hchart | ⟨v, -, hchart⟩ <;> rw [hchart] at he
    · exact comesFrom_of_mem he
    · exact comesFrom_of_mem he
  | removeDimension id retire =>
    cases retire with
    | true => exact comesFrom_modifyDimension? (fun _ => rfl) e he
    | false => exact comesFrom_removeDimension? e he
  | hideDimension id hidden => exact comesFrom_modifyDimension? (fun _ => rfl) e he
  | refresh => exact comesFrom_of_mem he
  | declare => exact comesFrom_of_mem (List.mem_of_mem_filter he)
  | obsolete =>
    simp only [apply, obsolete] at he
    split at he <;> exact comesFrom_of_mem he
  | update data sinceLast => exact comesFrom_of_mem ((c.dimensions_update_sublist data sinceLast).subset he)

theorem State.push_refreshed (s : State) : s.refreshed.push = true := by
  rcases s with _ | ⟨push, updated⟩ | ⟨_ | _, updated⟩ <;> rfl

theorem State.push_obsolete (s : State) : s.obsolete.push = true := rfl

/-- An operation that renews the chart makes a declaration due, unless it does nothing. -/
theorem Renewed.push {changed : Chart} (h : c.Renewed changed) : changed.state.push = true := by
  obtain ⟨dimensions, rfl⟩ := h
  exact State.push_refreshed c.state

/-- A chart that knows of no declaration due after a cycle has nothing that waits for one. -/
theorem live_known (h : c.Sound) : ∀ d ∈ c.known.dimensions, d.obsolete = false := by
  intro d hd
  unfold known at hd
  split at hd
  · simpa using (List.mem_filter.mp hd).2
  · next hpush =>
    have hstate : c.revived.state.push = false := by simpa using hpush
    rw [revived_of_push hstate] at hd hstate
    by_contra hobsolete
    rw [h.due d hd (by simpa using hobsolete)] at hstate
    cases hstate

theorem due_apply (h : c.Sound) (op : Operation) :
    ∀ d ∈ (c.apply op).chart.dimensions, d.obsolete = true → (c.apply op).chart.state.push = true := by
  cases hrenews : op.renews with
  | true =>
    rcases c.renewsOrFails_apply hrenews with ⟨-, hrenewed⟩ | ⟨-, hchart⟩
    · exact fun _ _ _ => hrenewed.push
    · rw [hchart]
      exact h.due
  | false =>
    cases op with
    | addVariable params =>
      rcases c.apply_addVariable params with hchart | ⟨v, -, hchart⟩ <;> rw [hchart] <;> exact h.due
    | declare =>
      intro d hd hobsolete
      have hlive := (List.mem_filter.mp hd).2
      rw [hobsolete] at hlive
      cases hlive
    | obsolete =>
      simp only [apply, obsolete]
      split
      · exact h.due
      · exact fun _ _ _ => c.state.push_obsolete
    | update data sinceLast =>
      simp only [apply]
      cases haccepts : c.accepts data with
      | true =>
        rw [update_of_accepts haccepts]
        intro d hd hobsolete
        rw [live_known h d hd] at hobsolete
        cases hobsolete
      | false =>
        rw [update_of_not_accepts haccepts]
        exact h.due
    | _ => cases hrenews

/-- What holds of a chart holds of it after every operation. -/
theorem Sound.apply (h : c.Sound) {op : Operation} (hop : op.InsertsBuilt) : (c.apply op).chart.Sound where
  dimensions := h.dimensions.apply op
  vars := h.vars.apply op
  scalable := by
    intro e he
    rcases c.comesFrom_apply op e he with ⟨d, hd, heq⟩ | hadded
    · rw [heq]
      exact h.scalable d hd
    · exact hop.scalable hadded
  due := due_apply h op

theorem Sound.run (h : c.Sound) {ops : List Operation} (hops : ∀ op ∈ ops, op.InsertsBuilt) :
    (c.run ops).chart.Sound := by
  induction ops generalizing c with
  | nil => exact h
  | cons op rest ih =>
    obtain ⟨hop, hrest⟩ := List.forall_mem_cons.mp hops
    exact ih (h.apply hop) hrest

/-! ## Declarations that are refused -/

/-- Why a chart refuses an operation: the parameters declare nothing, or a dimension in use has the id. -/
inductive Refused (c : Chart) : Operation → DeclarationError → Prop
  | badDimension {params : Json} {e : DeclarationError} (h : Dimension.ofParameters params = .error e) :
      Refused c (.addDimension params) e
  | badVariable {params : Json} {e : DeclarationError} (h : Variable.ofParameters params = .error e) :
      Refused c (.addVariable params) e
  | taken {op : Operation} {d held : Dimension} (hadded : op.added? = some d) (hheld : held ∈ c.dimensions)
      (hid : held.id = d.id) (hlive : held.obsolete = false) : Refused c op (.duplicate .dimension d.id)

/-- The dimension of an id is found if no two have the same. -/
theorem dimension?_of_mem (h : c.Distinct) {held : Dimension} (hheld : held ∈ c.dimensions) :
    c.dimension? held.id = some held := by
  cases hfound : c.dimension? held.id with
  | none =>
    rw [dimension?, List.find?_eq_none] at hfound
    exact absurd (decide_eq_true rfl) (hfound held hheld)
  | some found =>
    obtain ⟨hid, hfound⟩ : found.id = held.id ∧ found ∈ c.dimensions := by
      rw [dimension?] at hfound
      exact ⟨by simpa using List.find?_some hfound, List.mem_of_find?_eq_some hfound⟩
    rw [List.inj_on_of_nodup_map h hfound hheld hid]

theorem insertDimension_eq_error_iff (h : c.Distinct) {d : Dimension} {e : DeclarationError} :
    c.insertDimension d = .error e ↔
      e = .duplicate .dimension d.id ∧ ∃ held ∈ c.dimensions, held.id = d.id ∧ held.obsolete = false := by
  unfold insertDimension
  constructor
  · intro hresult
    split at hresult
    · cases hresult
    · next held hfound =>
      split at hresult
      · cases hresult
      · next hlive =>
        cases hresult
        rw [dimension?] at hfound
        exact ⟨rfl, held, List.mem_of_find?_eq_some hfound, by simpa using List.find?_some hfound,
          by simpa using hlive⟩
  · rintro ⟨rfl, held, hheld, hid, hlive⟩
    rw [← hid, dimension?_of_mem h hheld]
    simp [hlive]

theorem addVariable_eq_error_iff {params : Json} {e : DeclarationError} :
    c.addVariable params = .error e ↔ Variable.ofParameters params = .error e := by
  unfold addVariable
  cases hv : Variable.ofParameters params with
  | error found => simp [bind, Except.bind]
  | ok v => exact ⟨nofun, nofun⟩

theorem failed_ofExcept_iff {answer : Chart → Answer} (hanswer : ∀ changed e, answer changed ≠ .failed e)
    {result : Except DeclarationError Chart} {e : DeclarationError} :
    (Effect.ofExcept c answer result).answer = .failed e ↔ result = .error e := by
  cases result with
  | ok changed => exact iff_of_false (hanswer changed e) nofun
  | error found => simp [Effect.ofExcept]

theorem dimensionAnswer_ne_failed (id : String) (changed : Chart) (e : DeclarationError) :
    dimensionAnswer id changed ≠ .failed e := by
  unfold dimensionAnswer
  split <;> exact nofun

theorem done_ne_failed (changed : Chart) (e : DeclarationError) :
    (fun _ : Chart => Answer.done) changed ≠ .failed e :=
  nofun

theorem failed_addVariable_iff {params : Json} {e : DeclarationError} :
    (c.apply (.addVariable params)).answer = .failed e ↔ Variable.ofParameters params = .error e :=
  (failed_ofExcept_iff done_ne_failed).trans addVariable_eq_error_iff

/-- A dimension that is to be added is refused exactly if one in use has its id. -/
theorem failed_of_added_iff (h : c.Distinct) {op : Operation} {d : Dimension} (hadded : op.added? = some d)
    {e : DeclarationError} : (c.apply op).answer = .failed e ↔ c.Refused op e := by
  rw [apply_of_added hadded]
  simp only [apply]
  rw [failed_ofExcept_iff (dimensionAnswer_ne_failed d.id), insertDimension_eq_error_iff h]
  constructor
  · rintro ⟨rfl, held, hheld, hid, hlive⟩
    exact .taken hadded hheld hid hlive
  · intro hrefused
    cases hrefused with
    | badDimension hparams =>
      rw [Operation.added?, hparams] at hadded
      cases hadded
    | badVariable hparams => cases hadded
    | taken hother hheld hid hlive =>
      cases hadded.symm.trans hother
      exact ⟨rfl, _, hheld, hid, hlive⟩

/-- An operation fails exactly if it is refused. -/
theorem failed_iff (h : c.Distinct) {op : Operation} {e : DeclarationError} :
    (c.apply op).answer = .failed e ↔ c.Refused op e := by
  cases hadded : op.added? with
  | some d => exact failed_of_added_iff h hadded
  | none =>
    constructor
    · intro hanswer
      cases op with
      | addDimension params =>
        cases hd : Dimension.ofParameters params with
        | ok d =>
          rw [Operation.added?, hd] at hadded
          cases hadded
        | error found =>
          rw [c.addDimension_of_error hd] at hanswer
          cases hanswer
          exact .badDimension hd
      | insertDimension d => cases hadded
      | addVariable params => exact .badVariable (failed_addVariable_iff.mp hanswer)
      | _ => cases hanswer
    · intro hrefused
      cases hrefused with
      | badDimension hparams => rw [c.addDimension_of_error hparams]
      | badVariable hparams => exact failed_addVariable_iff.mpr hparams
      | taken hother => cases hadded.symm.trans hother

/-- What fails leaves the chart as it was, and sends nothing. -/
theorem eq_of_failed {op : Operation} {e : DeclarationError} (h : (c.apply op).answer = .failed e) :
    (c.apply op).chart = c ∧ (c.apply op).lines = [] := by
  have hkept (answer : Chart → Answer) (hanswer : ∀ changed e, answer changed ≠ .failed e)
      (result : Except DeclarationError Chart) (hfailed : (Effect.ofExcept c answer result).answer = .failed e) :
      Effect.ofExcept c answer result = ⟨c, [], .failed e⟩ := by
    rw [(failed_ofExcept_iff hanswer).mp hfailed]
    rfl
  cases op with
  | addDimension params =>
    cases hd : Dimension.ofParameters params with
    | ok d =>
      rw [c.addDimension_of_ok hd] at h ⊢
      rw [apply, hkept _ (dimensionAnswer_ne_failed d.id) _ h]
      exact ⟨rfl, rfl⟩
    | error found =>
      rw [c.addDimension_of_error hd]
      exact ⟨rfl, rfl⟩
  | insertDimension d =>
    rw [apply, hkept _ (dimensionAnswer_ne_failed d.id) _ h]
    exact ⟨rfl, rfl⟩
  | addVariable params =>
    rw [apply, hkept _ done_ne_failed _ h]
    exact ⟨rfl, rfl⟩
  | _ => cases h

/-- A chart that was just built is in order after any operations: its dimensions have distinct ids, and so have its
variables; no factor is zero; and if a dimension waits to be taken back then a declaration is due, so without one that
is due all dimensions are in use. An operation on it fails exactly if it declares a dimension or a variable by
parameters that declare none, or a dimension of the id of one in use, and then the chart stays as it was. -/
theorem sound_at_any_time (start : Chart) (hstart : start.Started) (ops : List Operation)
    (hops : ∀ op ∈ ops, op.InsertsBuilt) (reached : Chart) (hreached : reached = (start.run ops).chart) :
    (reached.dimensions.map (·.id)).Nodup ∧ (reached.vars.map (·.id)).Nodup ∧
    (∀ d ∈ reached.dimensions, d.multiplier ≠ 0 ∧ d.divisor ≠ 0) ∧
    ((∃ d ∈ reached.dimensions, d.obsolete = true) → reached.state.push = true) ∧
    (reached.state.push = false → ∀ d ∈ reached.dimensions, d.obsolete = false) ∧
    ∀ op e, ((reached.apply op).answer = .failed e ↔ reached.Refused op e) ∧
      ((reached.apply op).answer = .failed e → (reached.apply op).chart = reached ∧ (reached.apply op).lines = []) := by
  have hsound : reached.Sound := hreached ▸ hstart.sound.run hops
  refine ⟨hsound.dimensions, hsound.vars, hsound.scalable, fun ⟨d, hd, hobsolete⟩ => hsound.due d hd hobsolete,
    fun hpush d hd => ?_, fun op e => ⟨failed_iff hsound.dimensions, eq_of_failed⟩⟩
  by_contra hobsolete
  rw [hsound.due d hd (by simpa using hobsolete)] at hpush
  cases hpush

/-- Two dimensions, one of them built with a factor that is none, a cycle, and then one of them is retired and the
chart given up. -/
def windingUp : List Operation :=
  [.insertDimension (((Dimension.ofId "in").withMultiplier 0).withDivisor (-8)),
    .addDimension (.array [.string "out", .null, .string "incremental", .integer 0]),
    .addVariable (.array [.string "limit", .integer 5]), .update ⟨[("in", .integer 1)]⟩ 1,
    .removeDimension "out" true, .obsolete]

/-- A dimension still waits to be taken back, and the id of the other one is refused to a new one. -/
theorem sound_at_any_time_wound_up :
    packets.Started ∧ (∀ op ∈ windingUp, op.InsertsBuilt) ∧
      (packets.run windingUp).chart.dimensions.map (fun d => (d.id, d.obsolete)) = [("in", false), ("out", true)] ∧
      (packets.run windingUp).chart.state.push = true ∧
      (∀ d ∈ (packets.run windingUp).chart.dimensions, d.multiplier ≠ 0 ∧ d.divisor ≠ 0) ∧
      ((packets.run windingUp).chart.apply (.insertDimension (.ofId "in"))).answer =
        .failed (.duplicate .dimension "in") ∧
      ((packets.run windingUp).chart.apply (.insertDimension (.ofId "in"))).chart = (packets.run windingUp).chart := by
  have hstart : packets.Started := .new packets.toChartHeader
  have hops : ∀ op ∈ windingUp, op.InsertsBuilt := by
    have hbuilt := ((Dimension.Built.ofId "in").withMultiplier 0).withDivisor (-8)
    simpa [windingUp, Operation.InsertsBuilt] using hbuilt
  have hdimensions : (packets.run windingUp).chart.dimensions.map (fun d => (d.id, d.obsolete)) =
      [("in", false), ("out", true)] := by decide +kernel
  obtain ⟨-, -, hscalable, hdue, -, hfails⟩ := sound_at_any_time packets hstart windingUp hops _ rfl
  have hwaiting : ∃ d ∈ (packets.run windingUp).chart.dimensions, d.obsolete = true := by decide +kernel
  have hheld : ∃ d ∈ (packets.run windingUp).chart.dimensions, d.id = "in" ∧ d.obsolete = false := by
    decide +kernel
  obtain ⟨held, hmem, hid, hlive⟩ := hheld
  obtain ⟨hanswer, hkept⟩ := hfails (.insertDimension (.ofId "in")) (.duplicate .dimension "in")
  have hadded : (Operation.insertDimension (.ofId "in")).added? = some (.ofId "in") := rfl
  have hfailed := hanswer.mpr (.taken hadded hmem hid hlive)
  exact ⟨hstart, hops, hdimensions, hdue hwaiting, hscalable, hfailed, (hkept hfailed).1⟩

end Chart

end ChartStream
