import ChartStream.Line
import ChartStream.Variable

/-!
# Charts

A chart owns its dimensions and variables and knows how far the receiver has been told about it, so
that values are never sent for a chart that has not been declared. Main definitions: `Chart.State`,
`Chart`, `Chart.update`.
-/

namespace ChartStream

set_option autoImplicit false

/-! ## States -/

/-- What the receiver has been told about a chart. -/
inductive Chart.State where
  /-- Never declared. -/
  | pending
  /-- Declared. With `push` the declaration has to be sent again before the next values; `updated`
  tells whether values have been sent. -/
  | created (push updated : Bool)
  /-- Given up. `created` tells whether the receiver knows the chart. -/
  | obsoleted (created updated : Bool)
  deriving DecidableEq, Repr

namespace Chart.State

/-- The declaration has to be sent before values are. -/
def push : State → Bool
  | .pending => true
  | .created again _ => again
  | .obsoleted _ _ => true

/-- The receiver knows the chart. -/
def isCreated : State → Bool
  | .pending => false
  | .created _ _ => true
  | .obsoleted known _ => known

/-- Values have been sent. -/
def isUpdated : State → Bool
  | .pending => false
  | .created _ updated => updated
  | .obsoleted _ updated => updated

/-- The chart is given up. -/
def isObsoleted : State → Bool
  | .obsoleted _ _ => true
  | _ => false

/-- After the declaration was sent. -/
def declared (s : State) : State :=
  .created false s.isUpdated

/-- After values were sent. -/
def collected : State :=
  .created false true

/-- After a change that the receiver has to be told. -/
def refreshed : State → State
  | .pending => .pending
  | .obsoleted false _ => .pending
  | .created _ updated => .created true updated
  | .obsoleted true updated => .created true updated

/-- After the chart was given up. -/
def obsolete (s : State) : State :=
  .obsoleted s.isCreated s.isUpdated

end Chart.State

/-! ## Charts -/

/-- The attributes that a chart keeps for good. -/
structure ChartHeader where
  /-- The first part of the full id, by which charts of one job belong together. -/
  kind : String
  id : String
  name : String := ""
  title : String := ""
  units : String := ""
  family : String := ""
  context : String := ""
  style : ChartStyle := .line
  hidden : Bool := false
  priority : Nat := 0
  updateEvery : Nat := 1
  plugin : String := ""
  module : String := ""
  jobLabel : String := ""
  deriving DecidableEq, Repr

/-- A group of dimensions plotted together. -/
structure Chart extends ChartHeader where
  dimensions : List Dimension := []
  vars : List Variable := []
  state : Chart.State := .pending
  /-- How many cycles in a row brought nothing for the chart. It has no bound here, where a word of 64
  bits ends after more cycles than a job can have. -/
  missed : Nat := 0
  deriving DecidableEq, Repr

namespace Chart

/-- The chart declared by
`[kind, id, name, title, units, family, context, style, hidden]`, of which the first seven are
required. An empty style is the line, an unknown one the absolute style. -/
def ofParameters (params : Json) : Except DeclarationError Chart := do
  let p ← Parameters.read .chart 7 params
  let kind ← p.id .chart 0
  let id ← p.id .chart 1
  let style := p.text 7
  return {
    kind := kind
    id := id
    name := p.text 2
    title := p.text 3
    units := p.text 4
    family := p.text 5
    context := p.text 6
    style := if style.isEmpty then .line else (ChartStyle.ofName? style).getD .absolute
    hidden := p.text 8 = "hidden" }

/-- The id by which the receiver knows the chart. -/
def fullId (c : Chart) : String :=
  c.kind ++ "." ++ c.id

def dimension? (c : Chart) (id : String) : Option Dimension :=
  c.dimensions.find? fun d => d.id = id

def contains (c : Chart) (id : String) : Bool :=
  (c.dimension? id).isSome

def isObsolete (c : Chart) : Bool :=
  c.state.isObsoleted

/-- The declaration is to be sent again, and the chart counts as fresh. -/
def refresh (c : Chart) : Chart :=
  { c with state := c.state.refreshed, missed := 0 }

/-! ## Dimensions and variables -/

/-- Adds a dimension. One of the same id that waits to be taken back is replaced; another one of the
same id is an error. -/
def insertDimension (c : Chart) (d : Dimension) : Except DeclarationError Chart :=
  match c.dimension? d.id with
  | none => .ok ({ c with dimensions := c.dimensions ++ [d] } : Chart).refresh
  | some held =>
    if held.obsolete then
      .ok ({ c with dimensions := c.dimensions.map fun e => if e.id = d.id then d else e } :
        Chart).refresh
    else .error (.duplicate .dimension d.id)

/-- Adds the dimension that a parameter list declares. -/
def addDimension (c : Chart) (params : Json) : Except DeclarationError Chart := do
  c.insertDimension (← Dimension.ofParameters params)

/-- Adds the variable that a parameter list declares. One that is there already stays as it is. -/
def addVariable (c : Chart) (params : Json) : Except DeclarationError Chart := do
  let v ← Variable.ofParameters params
  return if c.vars.any fun held => held.id = v.id then c
    else { c with vars := c.vars ++ [v] }

/-- Applies a change to the dimension of an id; `none` if there is none. -/
def modifyDimension? (c : Chart) (id : String) (change : Dimension → Dimension) : Option Chart :=
  if c.contains id then
    some ({ c with dimensions := c.dimensions.map fun d => if d.id = id then change d else d } :
      Chart).refresh
  else none

/-- Removes a dimension at once; `none` if there is none of the id. -/
def removeDimension? (c : Chart) (id : String) : Option Chart :=
  if c.contains id then
    some ({ c with dimensions := c.dimensions.filter fun d => d.id != id } : Chart).refresh
  else none

/-- Removes a dimension after the next declaration, which tells the receiver that it is hidden and
obsolete. -/
def retireDimension? (c : Chart) (id : String) : Option Chart :=
  c.modifyDimension? id Dimension.retired

/-- Hides a dimension or shows it again. -/
def hideDimension? (c : Chart) (id : String) (hidden : Bool) : Option Chart :=
  c.modifyDimension? id fun d => { d with hidden := hidden }

/-- Whether samples hold a value, readable or not, for a dimension in use or a variable. -/
def accepts (c : Chart) (data : Samples) : Bool :=
  (c.dimensions.any fun d => !d.obsolete && data.contains d.id)
    || c.vars.any fun v => data.contains v.id

/-! ## What is sent -/

/-- The line that announces the chart or takes it back. -/
def announcement (c : Chart) (obsolete : Bool) : Line :=
  .chart {
    fullId := c.fullId
    name := c.name
    title := c.title
    units := c.units
    family := c.family
    context := c.context
    style := c.style
    priority := c.priority
    updateEvery := c.updateEvery
    hidden := c.hidden
    obsolete := obsolete
    plugin := c.plugin
    module := c.module }

/-- The lines that declare the chart: itself, its label, its dimensions and the variables that have
a value. -/
def declaration (c : Chart) : List Line :=
  c.announcement false :: .label c.jobLabel :: .labelsDone :: c.dimensions.map .dimension
    ++ c.vars.filterMap fun v => v.value.map (.variable v.id)

/-- The chart after its declaration was sent. Dimensions that were taken back by it are gone. -/
def declared (c : Chart) : Chart :=
  { c with
    dimensions := c.dimensions.filter fun d => !d.obsolete
    state := c.state.declared }

/-- The lines that tell the receiver that the chart is given up: none if it does not know it, or has
been told. -/
def obsoletion (c : Chart) : List Line :=
  if c.isObsolete then []
  else if c.state.isCreated then [c.announcement true]
  else []

/-- The chart given up. -/
def obsolete (c : Chart) : Chart :=
  if c.isObsolete then c else { c with state := c.state.obsolete }

/-- The lines with the values of one cycle: those of the dimensions in use, then those of the
variables, as far as samples hold an integer for them. -/
def group (c : Chart) (data : Samples) (sinceLast : Nat) : List Line :=
  .groupStart c.fullId sinceLast
    :: (c.dimensions.filter fun d => !d.obsolete).filterMap (fun d => (d.sample? data).map d.setLine)
    ++ c.vars.filterMap (fun v => (v.sample? data).map (.variable v.id))
    ++ [.groupEnd]

/-- What a cycle did to a chart. -/
structure Cycle where
  chart : Chart
  lines : List Line
  updated : Bool

/-- The chart as a cycle with values for it finds it: taken up again if it was given up. -/
def revived (c : Chart) : Chart :=
  if c.isObsolete then c.refresh else c

/-- One cycle. Samples without a value for the chart only count as missed. Otherwise the chart is
declared if need be and its values are sent; the first values report no time since the last ones. -/
def update (c : Chart) (data : Samples) (sinceLast : Nat) : Cycle :=
  if c.accepts data then
    let ready := c.revived
    let known := if ready.state.push then ready.declared else ready
    let since := if known.state.isUpdated then sinceLast else 0
    { chart := { known with state := .collected, missed := 0 }
      lines := (if ready.state.push then ready.declaration else []) ++ known.group data since
      updated := true }
  else
    { chart := { c with missed := c.missed + 1 }, lines := [], updated := false }

end Chart

end ChartStream
