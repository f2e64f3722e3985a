import ChartStream.Proofs.ChartLines

/-!
# The text of a declaration

The text that declares a chart can be read in one way only, and what is read is the chart, but for the quotes
in its texts (`Chart.declaration_text`). So two charts are declared by one text exactly if they agree on all
that is read (`Chart.declaration_text_eq_iff`).
-/

namespace ChartStream

set_option autoImplicit false

/-! ## Declarations -/

/-- What the text that declares a chart says: the chart itself, the label of its job, its dimensions and the
values of its variables. -/
structure Declaration where
  announcement : Announcement
  jobLabel : String
  dimensions : List Dimension
  values : List (String × Int)
  deriving DecidableEq, Repr

namespace Declaration

/-- The lines of a declaration. -/
def lines (d : Declaration) : List Line :=
  .chart d.announcement :: .label d.jobLabel :: .labelsDone ::
    (d.dimensions.map .dimension ++ d.values.map fun v => .variable v.1 v.2)

/-- The values that lines give to variables; `none` if one of them does something else. -/
def valuesOf? : List Line → Option (List (String × Int))
  | [] => some []
  | .variable id value :: rest => (valuesOf? rest).map ((id, value) :: ·)
  | _ => none

/-- The dimensions that lines declare and the values that the lines after them give to variables. -/
def membersOf? : List Line → Option (List Dimension × List (String × Int))
  | .dimension d :: rest => (membersOf? rest).map fun members => (d :: members.1, members.2)
  | rest => (valuesOf? rest).map fun values => ([], values)

/-- The declaration that lines make. -/
def ofLines? : List Line → Option Declaration
  | .chart announcement :: .label jobLabel :: .labelsDone :: rest =>
    (membersOf? rest).map fun members => ⟨announcement, jobLabel, members.1, members.2⟩
  | _ => none

/-- The declaration that a text makes, read line by line. -/
def read? (text : String) : Option Declaration :=
  (Line.readLines? text).bind ofLines?

theorem valuesOf?_map (values : List (String × Int)) :
    valuesOf? (values.map fun v => .variable v.1 v.2) = some values := by
  induction values with
  | nil => rfl
  | cons v rest ih =>
    rw [List.map_cons, valuesOf?, ih]
    rfl

theorem membersOf?_append (dimensions : List Dimension) (values : List (String × Int)) :
    membersOf? (dimensions.map .dimension ++ values.map fun v => .variable v.1 v.2) =
      some (dimensions, values) := by
  induction dimensions with
  | nil =>
    have hvalues := valuesOf?_map values
    cases values with
    | nil => rfl
    | cons v rest =>
      rw [List.map_nil, List.nil_append, membersOf?, hvalues]
      · rfl
      · exact fun d more h => by cases h
  | cons d rest ih =>
    rw [List.map_cons, List.cons_append, membersOf?, ih]
    rfl

theorem ofLines?_lines (d : Declaration) : ofLines? d.lines = some d := by
  rw [lines, ofLines?, membersOf?_append]
  rfl

end Declaration

/-! ## Texts without quotes -/

namespace Line

theorem quoted_bare (s : String) : quoted (bare s) = quoted s := by
  have hkept : unquoted (unquoted s.toList) = unquoted s.toList := by
    rw [unquoted, List.filter_eq_self]
    exact fun c hc => bne_iff_ne.mpr fun hquote => quote_not_mem_unquoted s.toList (hquote ▸ hc)
  rw [quoted, quoted, bare, String.toList_ofList, hkept]

/-- The quotes in its texts are no part of a line's text. -/
theorem render_onWire (line : Line) : line.onWire.render = line.render := by
  have hfields : line.onWire.fields = line.fields := by
    cases line <;>
      simp [onWire, fields, Announcement.onWire, Dimension.onWire, quoted_bare]
  rw [render, hfields, render]

theorem renderAll_onWire (lines : List Line) : renderAll (lines.map onWire) = renderAll lines := by
  induction lines with
  | nil => rfl
  | cons line rest ih => rw [List.map_cons, renderAll_cons, render_onWire, ih, renderAll_cons]

/-- Two sequences of lines have one text exactly if they differ in quotes only. -/
theorem renderAll_eq_iff (first second : List Line) :
    renderAll first = renderAll second ↔ first.map onWire = second.map onWire := by
  constructor
  · intro htext
    have hread := readAll?_renderAll first
    rw [htext, readAll?_renderAll, Option.some.injEq] at hread
    exact hread.symm
  · intro hlines
    rw [← renderAll_onWire first, hlines, renderAll_onWire]

theorem readLines?_render {line : Line} (h : line.Plain) : readLines? line.render = some [line.onWire] := by
  have hread := readLines?_renderAll [line] fun l hl => List.mem_singleton.mp hl ▸ h
  rwa [renderAll_cons, renderAll_nil, String.append_empty] at hread

end Line

/-! ## Declared charts -/

namespace Chart

/-- The declaration of a chart as it is read: its texts without quotes, its numbers as they are, and the
variables that have a value. -/
def wireDeclaration (c : Chart) : Declaration where
  announcement := {
    fullId := Line.bare c.fullId
    name := Line.bare c.name
    title := Line.bare c.title
    units := Line.bare c.units
    family := Line.bare c.family
    context := Line.bare c.context
    style := c.style
    priority := c.priority
    updateEvery := c.updateEvery
    hidden := c.hidden
    obsolete := false
    plugin := Line.bare c.plugin
    module := Line.bare c.module }
  jobLabel := Line.bare c.jobLabel
  dimensions := c.dimensions.map fun d => { d with id := Line.bare d.id, name := Line.bare d.name }
  values := c.vars.filterMap fun v => v.value.map fun value => (Line.bare v.id, value)

theorem lines_wireDeclaration (c : Chart) : c.wireDeclaration.lines = c.declaration.map Line.onWire := by
  have hvalues : c.wireDeclaration.values.map (fun v => Line.variable v.1 v.2) =
      (c.vars.filterMap fun v => v.value.map (.variable v.id)).map Line.onWire := by
    simp only [wireDeclaration, List.map_filterMap, Option.map_map]
    rfl
  rw [onWire_declaration, ← hvalues]
  rfl

theorem wireDeclaration_eq_iff (c other : Chart) :
    other.wireDeclaration = c.wireDeclaration ↔
      other.declaration.map Line.onWire = c.declaration.map Line.onWire := by
  rw [← lines_wireDeclaration, ← lines_wireDeclaration]
  constructor
  · exact congrArg Declaration.lines
  · intro hlines
    have hread := Declaration.ofLines?_lines other.wireDeclaration
    rw [hlines, Declaration.ofLines?_lines, Option.some.injEq] at hread
    exact hread.symm

theorem declaration_text_eq_iff (c other : Chart) :
    Line.renderAll other.declaration = Line.renderAll c.declaration ↔
      other.wireDeclaration = c.wireDeclaration := by
  rw [Line.renderAll_eq_iff, wireDeclaration_eq_iff]

theorem read?_declaration {c : Chart} (h : c.Plain) :
    Declaration.read? (Line.renderAll c.declaration) = some c.wireDeclaration := by
  rw [Declaration.read?, Line.readLines?_renderAll _ (plain_declaration h), ← lines_wireDeclaration]
  exact Declaration.ofLines?_lines c.wireDeclaration

theorem onWire_group (c : Chart) (data : Samples) (sinceLast : Nat) :
    (c.group data sinceLast).map Line.onWire =
      .groupStart (Line.bare c.fullId) sinceLast
        :: (c.dimensions.filter fun d => !d.obsolete).filterMap
            (fun d => (d.sample? data).map (.set (Line.bare d.id)))
        ++ c.vars.filterMap (fun v => (v.sample? data).map (.variable (Line.bare v.id)))
        ++ [.groupEnd] := by
  simp only [group, List.map_append, List.map_cons, List.map_nil, List.map_filterMap, Option.map_map]
  rfl

/-- The text that declares a chart, read line by line, is the declaration of the chart up to quotes. It is the
text of no other lines and of no other declaration; the values that follow are read back likewise, each under
the id it was sent for. -/
theorem declaration_text (c : Chart) (h : c.Plain) :
    Declaration.read? (Line.renderAll c.declaration) = some c.wireDeclaration ∧
    (∀ lines, Line.renderAll lines = Line.renderAll c.declaration →
      lines.map Line.onWire = c.wireDeclaration.lines) ∧
    (∀ other : Chart, Line.renderAll other.declaration = Line.renderAll c.declaration ↔
      other.wireDeclaration = c.wireDeclaration) ∧
    (∀ data sinceLast, Line.readLines? (Line.renderAll (c.group data sinceLast)) =
      some (.groupStart (Line.bare c.fullId) sinceLast
        :: (c.dimensions.filter fun d => !d.obsolete).filterMap
            (fun d => (d.sample? data).map (.set (Line.bare d.id)))
        ++ c.vars.filterMap (fun v => (v.sample? data).map (.variable (Line.bare v.id)))
        ++ [.groupEnd])) ∧
    (∀ d ∈ c.dimensions, ∀ value,
      Line.readLines? (d.setLine value).render = some [.set (Line.bare d.id) value]) ∧
    ∀ v ∈ c.vars, ∀ value,
      Line.readLines? (Line.variable v.id value).render = some [.variable (Line.bare v.id) value] := by
  refine ⟨read?_declaration h, fun lines htext => ?_, c.declaration_text_eq_iff, fun data sinceLast => ?_,
    fun d hd value => ?_, fun v hv value => ?_⟩
  · rw [lines_wireDeclaration]
    exact (Line.renderAll_eq_iff lines c.declaration).mp htext
  · rw [Line.readLines?_renderAll _ (plain_group h data sinceLast), onWire_group]
  · exact Line.readLines?_render ((Line.plain_set_iff _ _).mpr (h.dimension hd).1)
  · exact Line.readLines?_render ((Line.plain_variable_iff _ _).mpr (h.variable hv))

/-- A chart whose texts look like lines of a stream. -/
def lookalike : Chart where
  kind := "job"
  id := "SET 'x' = 1"
  title := "it's = '7' hidden obsolete"
  units := "'"
  family := "END"
  context := "a  b "
  style := .stacked
  priority := 4294967295
  jobLabel := "'0' CLABEL_COMMIT"
  dimensions := [
    { id := "DIMENSION 'in' 'in'", name := "", multiplier := -1, divisor := 1000 },
    { id := "''", name := "obsolete", algorithm := .incremental, hidden := true, obsolete := true }]
  vars := [⟨"VARIABLE CHART 'v' = ", some (-9223372036854775808)⟩, ⟨"unset", none⟩, ⟨"=", some 0⟩]

theorem declaration_text_lookalike :
    lookalike.Plain ∧
      Declaration.read? (Line.renderAll lookalike.declaration) = some lookalike.wireDeclaration ∧
      lookalike.wireDeclaration.values = [("VARIABLE CHART v = ", -9223372036854775808), ("=", 0)] ∧
      Line.readLines? (Line.renderAll (lookalike.group ⟨[("=", .integer 7)]⟩ 3)) =
        some [.groupStart "job.SET x = 1" 3, .variable "=" 7, .groupEnd] := by
  have hplain : lookalike.Plain := by decide
  obtain ⟨hread, -, -, hgroup, -⟩ := declaration_text lookalike hplain
  exact ⟨hplain, hread, by decide, (hgroup _ 3).trans (by decide)⟩

end Chart

end ChartStream
