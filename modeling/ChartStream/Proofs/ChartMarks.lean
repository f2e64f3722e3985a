import ChartStream.Proofs.ChartHistory
import ChartStream.Proofs.CycleGroups

/-!
# What was done to a chart

Main definitions: `Mark`, which names what can be done to a chart, and `Chart.Aged`, which says what the state of
the chart has to do with it.
-/

namespace ChartStream

set_option autoImplicit false

/-! ## Marks -/

/-- What can be done to a chart. -/
inductive Mark where
  /-- It is added, or it takes the place of another one. -/
  | built
  /-- It counts as fresh: it got values, its dimensions were changed or it was refreshed. -/
  | renewed
  /-- A cycle had no values for it. -/
  | missed
  /-- It is given up on demand. -/
  | givenUp
  /-- It is declared. -/
  | declared
  deriving DecidableEq

namespace Mark

/-- From this on nothing counts that was before. -/
def isRenewal : Mark → Bool
  | .built => true
  | .renewed => true
  | _ => false

/-- What was done to a chart since it counts as fresh, the latest first. -/
def sinceRenewal (marks : List Mark) : List Mark :=
  marks.reverse.takeWhile (!·.isRenewal)

/-- What was done to a chart since it was built, the latest first. -/
def sinceBuilt (marks : List Mark) : List Mark :=
  marks.reverse.takeWhile (· != .built)

variable (marks : List Mark) (m : Mark)

theorem sinceRenewal_concat :
    sinceRenewal (marks ++ [m]) = if m.isRenewal then [] else m :: sinceRenewal marks := by
  rw [sinceRenewal, List.reverse_append]
  cases m <;> rfl

theorem sinceBuilt_concat : sinceBuilt (marks ++ [m]) = if m = .built then [] else m :: sinceBuilt marks := by
  rw [sinceBuilt, List.reverse_append]
  cases m <;> rfl

end Mark

open Mark

/-! ## One chart -/

/-- The operation was carried out. -/
def Answer.isSuccess : Answer → Bool
  | .failed _ => false
  | .flag value => value
  | .noChart => false
  | _ => true

/-- The answer is a chart of the id. -/
def Answer.builds (id : String) : Answer → Bool
  | .chart fresh => fresh.id = id
  | _ => false

namespace Chart

/-- After the operation, if it is carried out, the chart counts as fresh. -/
def Operation.renews : Operation → Bool
  | .addDimension _ => true
  | .insertDimension _ => true
  | .removeDimension _ _ => true
  | .hideDimension _ _ => true
  | .refresh => true
  | _ => false

/-- The chart has not been declared and has missed no cycle. -/
def Fresh (c : Chart) : Prop :=
  c.state = .pending ∧ c.missed = 0

/-- The chart is given up if it was asked for, or if it missed `cleanup` cycles, since it counts as fresh. Until
then it counts the cycles that it missed. It tells whether it was declared since it was built. -/
structure Aged (cleanup : Nat) (marks : List Mark) (c : Chart) : Prop where
  givenUp : c.isObsolete = true ↔
    .givenUp ∈ sinceRenewal marks ∨ 1 ≤ cleanup ∧ cleanup ≤ (sinceRenewal marks).count .missed
  missed : c.isObsolete = false → c.missed = (sinceRenewal marks).count .missed
  created : c.state.isCreated = true ↔ .declared ∈ sinceBuilt marks

variable {cleanup : Nat} {marks : List Mark} {c : Chart}

theorem Fresh.changed {changed : Chart} (h : c.Fresh) (hc : c.Changed changed) : changed.Fresh := by
  refine ⟨hc.pending h.1, ?_⟩
  rcases hc with ⟨vars, rfl⟩ | ⟨dimensions, rfl, -⟩
  · exact h.2
  · rfl

theorem Fresh.aged (h : c.Fresh) : c.Aged cleanup (marks ++ [.built]) := by
  have hlive : c.isObsolete = false := by rw [isObsolete, h.1]; rfl
  have hpending : c.state.isCreated = false := by rw [h.1]; rfl
  constructor
  · rw [hlive, sinceRenewal_concat]
    simp [isRenewal]
    omega
  · rw [sinceRenewal_concat]
    exact fun _ => h.2
  · rw [hpending, sinceBuilt_concat]
    simp

theorem Aged.vars (h : c.Aged cleanup marks) (vars : List Variable) :
    ({ c with vars := vars } : Chart).Aged cleanup marks :=
  ⟨h.givenUp, h.missed, h.created⟩

theorem aged_renewed (hlive : c.isObsolete = false) (hmissed : c.missed = 0)
    (hcreated : c.state.isCreated = true ↔ .declared ∈ sinceBuilt marks) :
    c.Aged cleanup (marks ++ [.renewed]) := by
  constructor
  · rw [hlive, sinceRenewal_concat]
    simp [isRenewal]
    omega
  · rw [sinceRenewal_concat]
    exact fun _ => hmissed
  · rw [hcreated, sinceBuilt_concat]
    simp

theorem Aged.refresh (h : c.Aged cleanup marks) (dimensions : List Dimension) :
    ({ c with dimensions := dimensions } : Chart).refresh.Aged cleanup (marks ++ [.renewed]) := by
  refine aged_renewed (State.isObsoleted_refreshed _) rfl ?_
  rw [← h.created]
  exact (congrArg (· = true) c.state.isCreated_refreshed).to_iff

theorem Aged.obsolete (h : c.Aged cleanup marks) (hlive : c.isObsolete = false) :
    c.obsolete.Aged cleanup (marks ++ [.givenUp]) := by
  have hobsolete : c.obsolete = { c with state := c.state.obsolete } := by simp [Chart.obsolete, hlive]
  rw [hobsolete]
  constructor
  · rw [sinceRenewal_concat]
    simp [isRenewal, isObsolete, State.obsolete, State.isObsoleted]
  · exact fun h => by cases h
  · rw [sinceBuilt_concat]
    simpa [State.obsolete, State.isCreated] using h.created

theorem aged_update_of_accepts (h : c.Aged cleanup marks) {data : Samples} (haccepts : c.accepts data = true)
    (sinceLast : Nat) {told : List Mark}
    (htold : told = if c.revived.state.push then [.declared] else []) :
    (c.update data sinceLast).chart.Aged cleanup (marks ++ told ++ [.renewed]) := by
  rw [update_of_accepts haccepts]
  refine aged_renewed rfl rfl ?_
  cases hpush : c.revived.state.push with
  | true =>
    rw [htold, hpush, if_pos rfl, sinceBuilt_concat]
    simp [State.collected, State.isCreated]
  | false =>
    have hcreated : c.state.isCreated = true := by
      have hrevived := State.isCreated_of_push hpush
      rwa [revived_of_push hpush] at hrevived
    have hdeclared := h.created.mp hcreated
    simp [htold, hpush, hdeclared, State.collected, State.isCreated]

/-- A cycle without values makes the chart miss one more, unless it is given up. -/
theorem aged_step_of_not_accepts (h : c.Aged cleanup marks) {data : Samples} (haccepts : c.accepts data = false)
    (sinceLast : Nat) : (Catalog.step data sinceLast cleanup c).chart.Aged cleanup (marks ++ [.missed]) := by
  have hbuilt : .declared ∈ sinceBuilt (marks ++ [.missed]) ↔ .declared ∈ sinceBuilt marks := by
    rw [sinceBuilt_concat]
    simp
  have hgivenUp : .givenUp ∈ sinceRenewal (marks ++ [.missed]) ↔ .givenUp ∈ sinceRenewal marks := by
    rw [sinceRenewal_concat]
    simp [isRenewal]
  have hcount : (sinceRenewal (marks ++ [.missed])).count .missed = (sinceRenewal marks).count .missed + 1 := by
    rw [sinceRenewal_concat]
    simp [isRenewal]
  rw [Catalog.step_of_not_accepts sinceLast cleanup haccepts]
  cases hobsolete : c.isObsolete with
  | true =>
    rw [if_pos rfl]
    refine ⟨iff_of_true hobsolete ?_, fun hlive => ?_, h.created.trans hbuilt.symm⟩
    · rw [hgivenUp, hcount]
      exact (h.givenUp.mp hobsolete).imp_right fun ⟨hpos, hle⟩ => ⟨hpos, by omega⟩
    · cases hobsolete.symm.trans hlive
  | false =>
    have hmissed := h.missed hobsolete
    have hnever : .givenUp ∉ sinceRenewal marks := fun hmem => by
      have hgone := h.givenUp.mpr (.inl hmem)
      rw [hobsolete] at hgone
      cases hgone
    rw [if_neg (by simp)]
    split
    · next hdue =>
      have hstate : ({ c with missed := c.missed + 1 } : Chart).obsolete.state = c.state.obsolete := by
        rw [Chart.obsolete, if_neg]
        simpa [isObsolete] using hobsolete
      refine ⟨iff_of_true ?_ ?_, fun hlive => ?_, ?_⟩
      · rw [isObsolete, hstate]
        rfl
      · rw [hcount]
        omega
      · rw [isObsolete, hstate] at hlive
        cases hlive
      · rw [hstate, hbuilt]
        exact h.created
    · next hdue =>
      refine ⟨?_, fun _ => ?_, h.created.trans hbuilt.symm⟩
      · rw [hgivenUp, hcount]
        refine iff_of_false (by simpa [isObsolete] using hobsolete) ?_
        rintro (hmem | ⟨hpos, hle⟩)
        · exact hnever hmem
        · omega
      · rw [hcount, ← hmissed]

/-! ## Operations on a chart -/

/-- The chart with other dimensions, which counts as fresh. -/
def Renewed (c changed : Chart) : Prop :=
  ∃ dimensions, changed = ({ c with dimensions := dimensions } : Chart).refresh

/-- The effect is told to be a success and renews the chart, or it is told to be none and does nothing. -/
def RenewsOrFails (c : Chart) (effect : Effect) : Prop :=
  effect.answer.isSuccess = true ∧ c.Renewed effect.chart ∨ effect.answer.isSuccess = false ∧ effect.chart = c

theorem renewed_insertDimension {changed : Chart} {d : Dimension} (h : c.insertDimension d = .ok changed) :
    c.Renewed changed := by
  unfold insertDimension at h
  split at h
  · cases h
    exact ⟨_, rfl⟩
  · split at h
    · cases h
      exact ⟨_, rfl⟩
    · cases h

theorem renewed_modifyDimension? {changed : Chart} {id : String} {change : Dimension → Dimension}
    (h : c.modifyDimension? id change = some changed) : c.Renewed changed := by
  unfold modifyDimension? at h
  split at h
  · cases h
    exact ⟨_, rfl⟩
  · cases h

theorem renewed_removeDimension? {changed : Chart} {id : String} (h : c.removeDimension? id = some changed) :
    c.Renewed changed := by
  unfold removeDimension? at h
  split at h
  · cases h
    exact ⟨_, rfl⟩
  · cases h

theorem renewsOrFails_insertDimension (c : Chart) (d : Dimension) :
    c.RenewsOrFails (c.apply (.insertDimension d)) := by
  simp only [apply]
  cases hresult : c.insertDimension d with
  | error e => exact .inr ⟨rfl, rfl⟩
  | ok changed =>
    refine .inl ⟨?_, renewed_insertDimension hresult⟩
    simp only [Effect.ofExcept, dimensionAnswer]
    split <;> rfl

theorem renewsOrFails_ofOption (c : Chart) (result : Option Chart)
    (h : ∀ changed, result = some changed → c.Renewed changed) : c.RenewsOrFails (Effect.ofOption c result) := by
  cases result with
  | some changed => exact .inl ⟨rfl, h changed rfl⟩
  | none => exact .inr ⟨rfl, rfl⟩

theorem renewsOrFails_apply (c : Chart) {op : Operation} (hop : op.renews = true) :
    c.RenewsOrFails (c.apply op) := by
  cases op with
  | addDimension params =>
    cases hd : Dimension.ofParameters params with
    | ok d =>
      rw [c.addDimension_of_ok hd]
      exact c.renewsOrFails_insertDimension d
    | error e =>
      rw [c.addDimension_of_error hd]
      exact .inr ⟨rfl, rfl⟩
  | insertDimension d => exact c.renewsOrFails_insertDimension d
  | removeDimension id retire =>
    refine c.renewsOrFails_ofOption _ fun changed hc => ?_
    cases retire with
    | true => exact renewed_modifyDimension? hc
    | false => exact renewed_removeDimension? hc
  | hideDimension id hidden => exact c.renewsOrFails_ofOption _ fun _ => renewed_modifyDimension?
  | refresh => exact .inl ⟨rfl, c.dimensions, rfl⟩
  | _ => cases hop

/-- A variable of a new id is added, and all else stays as it is. -/
theorem apply_addVariable (c : Chart) (params : Json) :
    (c.apply (.addVariable params)).chart = c ∨ ∃ v : Variable, (∀ held ∈ c.vars, held.id ≠ v.id) ∧
      (c.apply (.addVariable params)).chart = { c with vars := c.vars ++ [v] } := by
  simp only [apply]
  cases hresult : c.addVariable params with
  | error e => exact .inl rfl
  | ok changed => exact addVariable_cases hresult

end Chart

/-! ## Charts that are taken back -/

/-- The chart that the line takes back. -/
def Line.takesBack? : Line → Option String
  | .chart a => if a.obsolete then some a.fullId else none
  | _ => none

namespace Chart

variable (c : Chart) (data : Samples) (sinceLast : Nat)

theorem takesBack_declaration : c.declaration.filterMap Line.takesBack? = [] := by
  rw [List.filterMap_eq_nil_iff]
  intro line hline
  rcases mem_declaration hline with rfl | rfl | rfl | ⟨d, -, rfl⟩ | ⟨v, -, n, rfl⟩ <;> rfl

theorem takesBack_group : (c.group data sinceLast).filterMap Line.takesBack? = [] := by
  have hvalues : (c.values data).filterMap Line.takesBack? = [] := by
    rw [List.filterMap_eq_nil_iff]
    intro line hline
    have hkind := c.isValue_values data line.onWire (List.mem_map_of_mem hline)
    cases line <;> simp_all [Line.onWire, Line.isValue, Line.takesBack?]
  rw [group_eq, List.filterMap_cons, List.filterMap_append, hvalues]
  rfl

theorem takesBack_update : (c.update data sinceLast).lines.filterMap Line.takesBack? = [] := by
  cases haccepts : c.accepts data with
  | false =>
    rw [update_of_not_accepts haccepts]
    rfl
  | true =>
    rw [update_of_accepts haccepts, List.filterMap_append, takesBack_group, List.append_nil]
    unfold overture
    split
    · exact c.revived.takesBack_declaration
    · rfl

theorem takesBack_obsoletion : c.obsoletion.filterMap Line.takesBack? =
    if c.isObsolete = false ∧ c.state.isCreated = true then [c.fullId] else [] := by
  unfold obsoletion
  cases c.isObsolete <;> cases c.state.isCreated <;> simp [announcement, Line.takesBack?]

/-- The cycle makes it `cleanup` that the chart missed. -/
def FallsDue (cleanup : Nat) (data : Samples) (c : Chart) : Prop :=
  c.accepts data = false ∧ c.isObsolete = false ∧ 0 < cleanup ∧ cleanup ≤ c.missed + 1

instance (cleanup : Nat) : Decidable (c.FallsDue cleanup data) :=
  inferInstanceAs (Decidable (_ ∧ _))

theorem Aged.fallsDue_iff {cleanup : Nat} {marks : List Mark} {chart : Chart} (h : chart.Aged cleanup marks)
    (data : Samples) : chart.FallsDue cleanup data ↔ ¬ chart.Matches data ∧ .givenUp ∉ sinceRenewal marks ∧
      (sinceRenewal marks).count .missed + 1 = cleanup := by
  rw [chart.matches_iff, Bool.not_eq_true, FallsDue]
  refine and_congr_right fun _ => ?_
  cases hobsolete : chart.isObsolete with
  | true =>
    have hgone := h.givenUp.mp hobsolete
    refine iff_of_false (by simp) ?_
    rintro ⟨hnever, hcount⟩
    have hmany := hgone.resolve_left hnever
    omega
  | false =>
    have hstays : ¬ (.givenUp ∈ sinceRenewal marks ∨
        1 ≤ cleanup ∧ cleanup ≤ (sinceRenewal marks).count .missed) := by
      rw [← h.givenUp, hobsolete]
      simp
    have hmissed := h.missed hobsolete
    constructor
    · rintro ⟨-, hpos, hle⟩
      exact ⟨fun hmem => hstays (.inl hmem), by omega⟩
    · rintro ⟨-, hcount⟩
      exact ⟨rfl, by omega, by omega⟩

end Chart

theorem Catalog.takesBack_step (chart : Chart) (data : Samples) (sinceLast cleanup : Nat) :
    (step data sinceLast cleanup chart).lines.filterMap Line.takesBack? =
      if chart.FallsDue cleanup data ∧ chart.state.isCreated = true then [chart.fullId] else [] := by
  cases haccepts : chart.accepts data with
  | true =>
    rw [step_of_accepts sinceLast cleanup haccepts, chart.takesBack_update, if_neg]
    rintro ⟨⟨hnone, -⟩, -⟩
    cases haccepts.symm.trans hnone
  | false =>
    rw [step_of_not_accepts sinceLast cleanup haccepts]
    cases hobsolete : chart.isObsolete with
    | true =>
      rw [if_pos rfl, if_neg]
      · rfl
      · rintro ⟨⟨-, hlive, -⟩, -⟩
        cases hobsolete.symm.trans hlive
    | false =>
      rw [if_neg (by simp)]
      split
      · next hdue =>
        rw [chart.takesBack_obsoletion]
        exact if_congr ⟨fun h => ⟨⟨haccepts, hobsolete, hdue⟩, h.2⟩, fun h => ⟨hobsolete, h.2⟩⟩ rfl rfl
      · next hdue =>
        rw [if_neg fun h => hdue h.1.2.2]
        rfl

end ChartStream
