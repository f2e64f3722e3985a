import ChartStream.Proofs.Reading

/-!
# The receiver

What a reader of the stream knows of each chart. Main definitions: `Receiver`, the state after some lines;
`Line.WellFormed`, which says of a sequence of lines that every group of values stands whole and under a
live declaration; `Receiver.Accepts`, the same said line by line. `wellFormed_of_accepts` is the step from
the second to the first.
-/

namespace ChartStream

set_option autoImplicit false

/-! ## Views of charts -/

/-- Whether a chart is known. -/
inductive Standing where
  | unknown
  | live
  | obsolete
  deriving DecidableEq, Repr

/-- What is known of one chart. -/
structure View where
  standing : Standing := .unknown
  /-- The dimensions of the latest declaration, with those that it takes back. -/
  listed : List Dimension := []
  /-- How many groups of values have begun. -/
  groups : Nat := 0
  deriving DecidableEq, Repr

/-- The dimensions of the latest declaration without those that it takes back. -/
def View.dimensions (v : View) : List Dimension :=
  v.listed.filter fun d => !d.obsolete

/-- The chart is announced, or taken back. -/
def View.announced (obsolete : Bool) (v : View) : View :=
  if obsolete then { v with standing := .obsolete } else { v with standing := .live, listed := [] }

/-- A dimension is declared. -/
def View.declared (d : Dimension) (v : View) : View :=
  { v with listed := v.listed ++ [d] }

/-- A group of values begins. -/
def View.begun (v : View) : View :=
  { v with groups := v.groups + 1 }

/-- The reader of a stream. -/
structure Receiver where
  /-- The chart whose declaration is being read. -/
  current : Option String := none
  view : String → View := fun _ => {}

namespace Receiver

/-- Changes what is known of one chart. -/
def change (r : Receiver) (id : String) (f : View → View) : Receiver :=
  { r with view := fun other => if other = id then f (r.view other) else r.view other }

@[simp] theorem view_change_self (r : Receiver) (id : String) (f : View → View) :
    (r.change id f).view id = f (r.view id) := if_pos rfl

theorem view_change_of_ne (r : Receiver) {id other : String} (f : View → View) (h : other ≠ id) :
    (r.change id f).view other = r.view other := if_neg h

theorem view_change_congr {r r' : Receiver} {other : String} (h : r.view other = r'.view other)
    (id : String) (f : View → View) : (r.change id f).view other = (r'.change id f).view other := by
  simp only [change, h]

@[simp] theorem current_change (r : Receiver) (id : String) (f : View → View) :
    (r.change id f).current = r.current := rfl

/-- Reads one line. -/
def read (r : Receiver) : Line → Receiver
  | .chart a =>
    { r.change a.fullId (View.announced a.obsolete) with
      current := if a.obsolete then none else some a.fullId }
  | .dimension d =>
    match r.current with
    | some id => r.change id (View.declared d)
    | none => r
  | .groupStart id _ => r.change id View.begun
  | _ => r

/-- Reads lines in order. -/
def readAll (r : Receiver) (lines : List Line) : Receiver :=
  lines.foldl read r

@[simp] theorem readAll_nil (r : Receiver) : r.readAll [] = r := rfl

@[simp] theorem readAll_cons (r : Receiver) (line : Line) (rest : List Line) :
    r.readAll (line :: rest) = (r.read line).readAll rest := rfl

theorem readAll_append (r : Receiver) (first second : List Line) :
    r.readAll (first ++ second) = (r.readAll first).readAll second :=
  List.foldl_append

end Receiver

/-! ## Well-formed streams -/

namespace Line

/-- The line carries a value. -/
def isValue : Line → Bool
  | .set _ _ => true
  | .variable _ _ => true
  | _ => false

/-- The line announces a chart or takes it back. -/
def isChart : Line → Bool
  | .chart _ => true
  | _ => false

/-- The dimension that the line declares. -/
def dimension? : Line → Option Dimension
  | .dimension d => some d
  | _ => none

/-- The dimensions that lines declare before the next chart. -/
def listing (lines : List Line) : List Dimension :=
  (lines.takeWhile fun line => !line.isChart).filterMap dimension?

/-- A group for the chart `id` that begins between `before` and `after` is closed and holds nothing but
values; the chart has been announced, the last time not as obsolete; and each dimension set is in the
listing of that announcement, not as obsolete. -/
def GroupStands (before : List Line) (id : String) (after : List Line) : Prop :=
  ∃ body rest, after = body ++ .groupEnd :: rest ∧ (∀ line ∈ body, line.isValue = true) ∧
    ∃ early a late, before = early ++ .chart a :: late ∧ a.fullId = id ∧ a.obsolete = false ∧
      (∀ b, .chart b ∈ late → b.fullId ≠ id) ∧
      ∀ x n, .set x n ∈ body → ∃ d ∈ listing late, d.id = x ∧ d.obsolete = false

/-- Every group of values stands. -/
def WellFormed (lines : List Line) : Prop :=
  ∀ before id sinceLast after, lines = before ++ .groupStart id sinceLast :: after →
    GroupStands before id after

/-- The charts that the line names. -/
def fullId? : Line → Option String
  | .chart a => some a.fullId
  | .groupStart id _ => some id
  | _ => none

end Line

namespace Receiver

/-- What the receiver asks of a group for the chart `id` that is followed by `after`. -/
def AcceptsGroup (r : Receiver) (id : String) (after : List Line) : Prop :=
  ∃ body rest, after = body ++ .groupEnd :: rest ∧ (∀ line ∈ body, line.isValue = true) ∧
    (r.view id).standing = .live ∧ ∀ x n, .set x n ∈ body → ∃ d ∈ (r.view id).dimensions, d.id = x

/-- Each group of the lines is accepted where it begins. -/
def Accepts (r : Receiver) (lines : List Line) : Prop :=
  ∀ before id sinceLast after, lines = before ++ .groupStart id sinceLast :: after →
    (r.readAll before).AcceptsGroup id after

theorem AcceptsGroup.append {r : Receiver} {id : String} {after : List Line}
    (h : r.AcceptsGroup id after) (more : List Line) : r.AcceptsGroup id (after ++ more) := by
  obtain ⟨body, rest, rfl, hbody, hlive, hset⟩ := h
  exact ⟨body, rest ++ more, by simp, hbody, hlive, hset⟩

theorem accepts_nil (r : Receiver) : r.Accepts [] := by
  intro before id sinceLast after h
  simp at h

theorem accepts_of_no_group (r : Receiver) {lines : List Line}
    (h : ∀ id n, .groupStart id n ∉ lines) : r.Accepts lines := by
  intro before id sinceLast after hlines
  exact absurd (hlines ▸ List.mem_append_right before List.mem_cons_self) (h id sinceLast)

theorem Accepts.append {r : Receiver} {first second : List Line} (h1 : r.Accepts first)
    (h2 : (r.readAll first).Accepts second) : r.Accepts (first ++ second) := by
  intro before id sinceLast after h
  rw [List.append_eq_append_iff] at h
  rcases h with ⟨mid, rfl, hsecond⟩ | ⟨mid, hfirst, hsecond⟩
  · rw [readAll_append]
    exact h2 mid id sinceLast after hsecond
  · cases mid with
    | nil =>
      rw [List.append_nil] at hfirst
      subst hfirst
      rw [List.nil_append] at hsecond
      exact h2 [] id sinceLast after hsecond.symm
    | cons line mid =>
      rw [List.cons_append, List.cons.injEq] at hsecond
      obtain ⟨rfl, rfl⟩ := hsecond
      exact (h1 before id sinceLast mid hfirst).append second

theorem accepts_group {r : Receiver} {id : String} {sinceLast : Nat} {body : List Line}
    (hbody : ∀ line ∈ body, line.isValue = true)
    (h : r.AcceptsGroup id (body ++ [.groupEnd])) :
    r.Accepts (.groupStart id sinceLast :: (body ++ [.groupEnd])) := by
  intro before other n after heq
  cases before with
  | nil =>
    rw [List.nil_append, List.cons.injEq, Line.groupStart.injEq] at heq
    obtain ⟨⟨rfl, rfl⟩, rfl⟩ := heq
    exact h
  | cons line before =>
    rw [List.cons_append, List.cons.injEq] at heq
    have hmem : Line.groupStart other n ∈ body ++ [.groupEnd] := by
      rw [heq.2]
      exact List.mem_append_right before List.mem_cons_self
    rw [List.mem_append, List.mem_singleton] at hmem
    rcases hmem with hmem | hmem
    · exact absurd (hbody _ hmem) (by simp [Line.isValue])
    · exact absurd hmem (by simp)

/-! ## What a receiver knows is in what it has read -/

end Receiver

namespace Line

theorem listing_append_of_no_chart {lines : List Line} (h : ∀ line ∈ lines, line.isChart = false)
    (more : List Line) : listing (lines ++ more) = listing lines ++ listing more := by
  induction lines with
  | nil => rfl
  | cons line rest ih =>
    have hrest := ih fun l hl => h l (List.mem_cons_of_mem line hl)
    cases line with
    | chart a => exact absurd (h _ List.mem_cons_self) (by simp [isChart])
    | dimension d => exact congrArg (d :: ·) hrest
    | _ => exact hrest

theorem listing_append_of_chart {lines : List Line} (h : ∃ line ∈ lines, line.isChart = true)
    (more : List Line) : listing (lines ++ more) = listing lines := by
  induction lines with
  | nil => simp at h
  | cons line rest ih =>
    have hrest : line.isChart = false → listing (rest ++ more) = listing rest := by
      intro hline
      obtain ⟨l, hl, hchart⟩ := h
      rcases List.mem_cons.mp hl with rfl | hl
      · rw [hline] at hchart
        cases hchart
      · exact ih ⟨l, hl, hchart⟩
    cases line with
    | chart a => rfl
    | dimension d => exact congrArg (d :: ·) (hrest rfl)
    | _ => exact hrest rfl

theorem no_chart_or_chart (lines : List Line) :
    (∀ line ∈ lines, line.isChart = false) ∨ ∃ line ∈ lines, line.isChart = true := by
  by_cases h : ∃ line ∈ lines, line.isChart = true
  · exact .inr h
  · refine .inl fun line hl => ?_
    cases hline : line.isChart with
    | false => rfl
    | true => exact absurd ⟨line, hl, hline⟩ h

theorem listing_append_singleton (lines : List Line) {line : Line} (h : line.dimension? = none) :
    listing (lines ++ [line]) = listing lines := by
  rcases no_chart_or_chart lines with hno | hchart
  · have hsingle : listing [line] = [] := by cases line <;> simp_all [listing, isChart, dimension?]
    rw [listing_append_of_no_chart hno, hsingle, List.append_nil]
  · exact listing_append_of_chart hchart _

end Line

namespace Receiver

/-- If the receiver takes a chart for live, it was announced in `past`, the last time not as obsolete,
and the listing of that announcement is what the receiver has kept. -/
def Recalls (r : Receiver) (past : List Line) (id : String) : Prop :=
  (r.view id).standing = .live →
    ∃ early a late, past = early ++ .chart a :: late ∧ a.fullId = id ∧ a.obsolete = false ∧
      (∀ b, .chart b ∈ late → b.fullId ≠ id) ∧ (r.view id).listed = Line.listing late ∧
      (r.current = some id ↔ ∀ line ∈ late, line.isChart = false)

/-- A line that is neither of the chart nor of one of its dimensions leaves what is recalled as it is. -/
theorem Recalls.skip {r r' : Receiver} {past : List Line} {id : String} {line : Line}
    (h : r.Recalls past id) (hdim : line.dimension? = none) (hchart : ∀ a, line = .chart a → a.fullId ≠ id)
    (hstanding : (r'.view id).standing = (r.view id).standing)
    (hlisted : (r'.view id).listed = (r.view id).listed)
    (hcurrent : r'.current = some id ↔ r.current = some id ∧ line.isChart = false) :
    r'.Recalls (past ++ [line]) id := by
  intro hlive
  rw [hstanding] at hlive
  obtain ⟨early, a, late, rfl, ha, hobsolete, hlate, hlist, hcur⟩ := h hlive
  refine ⟨early, a, late ++ [line], by simp, ha, hobsolete, ?_, ?_, ?_⟩
  · intro b hb
    rw [List.mem_append, List.mem_singleton] at hb
    rcases hb with hb | hb
    · exact hlate b hb
    · exact hchart b hb.symm
  · rw [hlisted, hlist, Line.listing_append_singleton late hdim]
  · rw [hcurrent, hcur]
    simp [or_imp, forall_and]

theorem recalls_read {r : Receiver} {past : List Line} (h : ∀ id, r.Recalls past id) (line : Line)
    (id : String) : (r.read line).Recalls (past ++ [line]) id := by
  cases line with
  | chart a =>
    by_cases hid : id = a.fullId
    · subst hid
      cases hobsolete : a.obsolete with
      | true => simp [Recalls, read, hobsolete, change, View.announced]
      | false =>
        intro _
        refine ⟨past, a, [], rfl, rfl, hobsolete, by simp, ?_, ?_⟩ <;>
          simp [read, hobsolete, change, View.announced, Line.listing]
    · refine (h id).skip rfl (fun b hb => ?_) ?_ ?_ ?_
      · cases hb
        exact Ne.symm hid
      all_goals cases hobsolete : a.obsolete <;>
        simp [read, hobsolete, change, hid, Ne.symm hid, Line.isChart]
  | dimension d =>
    intro hlive
    have hstanding : ((r.read (.dimension d)).view id).standing = (r.view id).standing := by
      cases hcurrent : r.current with
      | none => simp [read, hcurrent]
      | some other => by_cases hid : id = other <;> simp [read, hcurrent, change, View.declared, hid]
    rw [hstanding] at hlive
    obtain ⟨early, a, late, rfl, ha, hobsolete, hlate, hlist, hcur⟩ := h id hlive
    refine ⟨early, a, late ++ [.dimension d], by simp, ha, hobsolete, ?_, ?_, ?_⟩
    · intro b hb
      rw [List.mem_append, List.mem_singleton] at hb
      rcases hb with hb | hb
      · exact hlate b hb
      · cases hb
    · -- The dimension is listed under the chart that the receiver is at.
      rcases Line.no_chart_or_chart late with hno | hchart
      · rw [Line.listing_append_of_no_chart hno, ← hlist]
        simp [read, hcur.mpr hno, View.declared, Line.listing, Line.isChart, Line.dimension?]
      · have hne : r.current ≠ some id := by
          intro hc
          obtain ⟨line, hl, hline⟩ := hchart
          rw [hcur.mp hc line hl] at hline
          cases hline
        rw [Line.listing_append_of_chart hchart, ← hlist]
        cases hcurrent : r.current with
        | none => simp [read, hcurrent]
        | some other =>
          have hid : id ≠ other := fun hid => hne (by rw [hcurrent, hid])
          simp [read, hcurrent, change, View.declared, hid]
    · have hkept : (r.read (.dimension d)).current = r.current := by
        cases hcurrent : r.current <;> simp [read, hcurrent]
      rw [hkept, hcur]
      simp [or_imp, forall_and, Line.isChart]
  | groupStart other n =>
    refine (h id).skip rfl (fun b hb => by cases hb) ?_ ?_ ?_
    all_goals by_cases hid : id = other <;> simp [read, change, View.begun, hid, Line.isChart]
  | _ =>
    exact (h id).skip rfl (fun b hb => by cases hb) rfl rfl (by simp [read, Line.isChart])

theorem recalls_readAll (r : Receiver) (past : List Line) (h : ∀ id, r.Recalls past id)
    (lines : List Line) (id : String) : (r.readAll lines).Recalls (past ++ lines) id := by
  induction lines generalizing r past with
  | nil => simpa using h id
  | cons line rest ih =>
    have hstep := ih (r.read line) (past ++ [line]) (recalls_read h line)
    simpa using hstep

end Receiver

/-- A stream is well formed if a receiver that starts without any knowledge accepts it. -/
theorem Line.wellFormed_of_accepts {lines : List Line} (h : ({} : Receiver).Accepts lines) :
    WellFormed lines := by
  intro before id sinceLast after hlines
  obtain ⟨body, rest, hafter, hbody, hlive, hset⟩ := h before id sinceLast after hlines
  have hrecalls := Receiver.recalls_readAll {} [] (fun _ h => by cases h) before id
  obtain ⟨early, a, late, hbefore, ha, hobsolete, hlate, hlist, -⟩ := hrecalls hlive
  refine ⟨body, rest, hafter, hbody, early, a, late, hbefore, ha, hobsolete, hlate, ?_⟩
  intro x n hx
  obtain ⟨d, hd, hid⟩ := hset x n hx
  rw [View.dimensions, hlist, List.mem_filter] at hd
  exact ⟨d, hd.1, hid, by simpa using hd.2⟩

/-! ## Charts that lines do not name -/

namespace Line

/-- Every dimension of the lines is declared under a chart of them. -/
def Headed : List Line → Prop
  | [] => True
  | .chart _ :: _ => True
  | .dimension _ :: _ => False
  | _ :: rest => Headed rest

theorem Headed.append {first second : List Line} (h1 : Headed first) (h2 : Headed second) :
    Headed (first ++ second) := by
  induction first with
  | nil => exact h2
  | cons line rest ih =>
    cases line with
    | chart a => trivial
    | dimension d => exact h1.elim
    | _ => exact ih h1

theorem Headed.of_append {first second : List Line} (h : Headed (first ++ second)) : Headed first := by
  induction first with
  | nil => trivial
  | cons line rest ih =>
    cases line with
    | chart a => trivial
    | dimension d => exact h.elim
    | _ => exact ih h

theorem headed_of_no_dimension {lines : List Line} (h : ∀ d, .dimension d ∉ lines) : Headed lines := by
  induction lines with
  | nil => trivial
  | cons line rest ih =>
    have hrest := ih fun d hd => h d (List.mem_cons_of_mem line hd)
    cases line with
    | chart a => trivial
    | dimension d => exact h d List.mem_cons_self
    | _ => exact hrest

theorem headed_flatMap {α : Type} (f : α → List Line) (l : List α) (h : ∀ a ∈ l, Headed (f a)) :
    Headed (l.flatMap f) := by
  induction l with
  | nil => trivial
  | cons a rest ih =>
    rw [List.flatMap_cons]
    exact (h a List.mem_cons_self).append (ih fun b hb => h b (List.mem_cons_of_mem a hb))

end Line

namespace Receiver

variable {r r' : Receiver} {id : String}

theorem current_read_congr (hcur : r.current = r'.current) (line : Line) :
    (r.read line).current = (r'.read line).current := by
  cases line with
  | chart a => rfl
  | dimension d => cases hc : r.current <;> simp [read, hc, ← hcur]
  | _ => exact hcur

theorem view_read_congr (hcur : r.current = r'.current) (hview : r.view id = r'.view id) (line : Line) :
    (r.read line).view id = (r'.read line).view id := by
  cases line with
  | chart a => exact view_change_congr hview a.fullId (View.announced a.obsolete)
  | dimension d =>
    simp only [read, ← hcur]
    cases r.current with
    | none => exact hview
    | some other => exact view_change_congr hview other _
  | groupStart other n => exact view_change_congr hview other View.begun
  | _ => exact hview

theorem view_readAll_congr (hcur : r.current = r'.current) (hview : r.view id = r'.view id)
    (lines : List Line) : (r.readAll lines).view id = (r'.readAll lines).view id := by
  induction lines generalizing r r' with
  | nil => exact hview
  | cons line rest ih => exact ih (current_read_congr hcur line) (view_read_congr hcur hview line)

/-- What headed lines make of a chart depends on what was known of that chart alone. -/
theorem view_readAll_of_headed {lines : List Line} (h : Line.Headed lines)
    (hview : r.view id = r'.view id) : (r.readAll lines).view id = (r'.readAll lines).view id := by
  induction lines generalizing r r' with
  | nil => exact hview
  | cons line rest ih =>
    cases line with
    | chart a =>
      have hstep : (r.read (.chart a)).view id = (r'.read (.chart a)).view id :=
        view_change_congr hview a.fullId (View.announced a.obsolete)
      have hcur : (r.read (.chart a)).current = (r'.read (.chart a)).current := rfl
      exact view_readAll_congr hcur hstep rest
    | dimension d => exact h.elim
    | groupStart other n => exact ih h (view_change_congr hview other View.begun)
    | _ => exact ih h hview

/-- Lines that do not name a chart leave it as it is, unless they begin in its declaration. -/
theorem view_readAll_of_current {lines : List Line} (hcur : r.current ≠ some id)
    (h : ∀ line ∈ lines, line.fullId? ≠ some id) : (r.readAll lines).view id = r.view id := by
  induction lines generalizing r with
  | nil => rfl
  | cons line rest ih =>
    have hrest := fun l hl => h l (List.mem_cons_of_mem line hl)
    -- One line keeps the view and does not lead into the declaration.
    have hstep : (r.read line).view id = r.view id ∧ (r.read line).current ≠ some id := by
      have hline := h line List.mem_cons_self
      cases line with
      | chart a =>
        have hid : id ≠ a.fullId := fun hid => hline (by rw [hid]; rfl)
        refine ⟨view_change_of_ne r _ hid, ?_⟩
        cases hobsolete : a.obsolete <;> simp [read, hobsolete, Ne.symm hid]
      | dimension d =>
        cases hc : r.current with
        | none => simp [read, hc]
        | some other =>
          have hid : id ≠ other := fun hid => hcur (by rw [hc, hid])
          simp [read, hc, view_change_of_ne r _ hid, Ne.symm hid]
      | groupStart other n =>
        have hid : id ≠ other := fun hid => hline (by rw [hid]; rfl)
        exact ⟨view_change_of_ne r View.begun hid, hcur⟩
      | _ => exact ⟨rfl, hcur⟩
    rw [readAll_cons, ih hstep.2 hrest, hstep.1]

theorem view_readAll_of_not_named {lines : List Line} (hheaded : Line.Headed lines)
    (h : ∀ line ∈ lines, line.fullId? ≠ some id) : (r.readAll lines).view id = r.view id := by
  have hforget : (r.readAll lines).view id = ({ r with current := none }.readAll lines).view id :=
    view_readAll_of_headed hheaded rfl
  rw [hforget]
  exact view_readAll_of_current (by simp) h

end Receiver

namespace Line

/-- The lines name no charts but those of the ids, and declare dimensions under these only. -/
structure Within (ids : List String) (lines : List Line) : Prop where
  headed : Headed lines
  named : ∀ line ∈ lines, ∀ id, line.fullId? = some id → id ∈ ids

theorem within_nil (ids : List String) : Within ids [] :=
  ⟨trivial, fun _ h => by cases h⟩

theorem Within.append {ids : List String} {first second : List Line} (h1 : Within ids first)
    (h2 : Within ids second) : Within ids (first ++ second) := by
  refine ⟨h1.headed.append h2.headed, fun line hl => ?_⟩
  rcases List.mem_append.mp hl with hl | hl
  · exact h1.named line hl
  · exact h2.named line hl

theorem Within.mono {ids more : List String} {lines : List Line} (h : Within ids lines)
    (hids : ids ⊆ more) : Within more lines :=
  ⟨h.headed, fun line hl id hid => hids (h.named line hl id hid)⟩

theorem Within.view_eq {ids : List String} {lines : List Line} (h : Within ids lines) (r : Receiver)
    {id : String} (hid : id ∉ ids) : (r.readAll lines).view id = r.view id :=
  Receiver.view_readAll_of_not_named h.headed fun line hl hname => hid (h.named line hl id hname)

end Line

namespace Receiver

variable {r r' : Receiver} {id : String}

/-- Headed lines are accepted by every receiver that knows the same of the charts they name. -/
theorem Accepts.congr {lines : List Line} (hheaded : Line.Headed lines) (h : r.Accepts lines)
    (hview : ∀ line ∈ lines, ∀ id, line.fullId? = some id → r.view id = r'.view id) :
    r'.Accepts lines := by
  intro before id sinceLast after hlines
  obtain ⟨body, rest, hafter, hbody, hlive, hset⟩ := h before id sinceLast after hlines
  have hmem : Line.groupStart id sinceLast ∈ lines := by
    rw [hlines]
    exact List.mem_append_right before List.mem_cons_self
  have hbefore : (r.readAll before).view id = (r'.readAll before).view id :=
    view_readAll_of_headed (Line.Headed.of_append (hlines ▸ hheaded)) (hview _ hmem id rfl)
  rw [hbefore] at hlive hset
  exact ⟨body, rest, hafter, hbody, hlive, hset⟩

end Receiver

end ChartStream
