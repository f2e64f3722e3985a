import ChartStream.Catalog.Layout
import ChartStream.Chart.Basic

/-!
# Catalogs

The charts of one job. Each chart has the job's full name as its kind, the next priority in sequence
and the job's interval and origin. Main definitions: `Catalog`, `Catalog.create`, `Catalog.update`.
-/

namespace ChartStream

set_option autoImplicit false

/-- The charts of one job in order of declaration. -/
structure Catalog where
  jobName : String
  jobLabel : String
  plugin : String := ""
  module : String := ""
  updateEvery : Nat := 1
  nextPriority : Nat := 0
  charts : List Chart := []
  /-- Announcements that go out with the next cycle. -/
  pending : List Line := []

namespace Catalog

/-- The empty catalog of a job, which labels its charts by its name. -/
def ofJob (jobName : String) : Catalog :=
  { jobName := jobName, jobLabel := jobName }

/-- The highest priority. Charts beyond it share it. -/
def lastPriority : Nat := UInt32.size - 1

def get? (c : Catalog) (id : String) : Option Chart :=
  c.charts.find? fun chart => chart.id = id

def contains (c : Catalog) (id : String) : Bool :=
  (c.get? id).isSome

/-- Puts a chart in the place of the one with its id. -/
def put (c : Catalog) (chart : Chart) : Catalog :=
  { c with charts := c.charts.map fun held => if held.id = chart.id then chart else held }

/-! ## Declarations -/

/-- The chart that `[id, name, title, units, family, context, style, hidden]` declares in this
catalog, before it has a priority. -/
def build (c : Catalog) (params : Json) : Except DeclarationError Chart := do
  let p ← Parameters.read .chart 6 params
  let chart ← Chart.ofParameters (.array (.string c.jobName :: p.slots))
  return { chart with
    updateEvery := c.updateEvery
    plugin := c.plugin
    module := c.module
    jobLabel := c.jobLabel }

/-- Appends a chart with the next priority. -/
def push (c : Catalog) (chart : Chart) : Catalog :=
  { c with
    charts := c.charts ++ [{ chart with priority := c.nextPriority }]
    nextPriority := min (c.nextPriority + 1) lastPriority }

/-- Adds the chart that a parameter list declares. Its id has to be new. -/
def addChart (c : Catalog) (params : Json) : Except DeclarationError (Catalog × Chart) := do
  let chart ← c.build params
  if c.contains chart.id then .error (.duplicate .chart chart.id)
  else .ok (c.push chart, { chart with priority := c.nextPriority })

/-- Adds a chart, or replaces the one of the same id in its place. The new chart keeps the priority
of the old one and is declared afresh. -/
def replaceChart (c : Catalog) (params : Json) : Except DeclarationError (Catalog × Chart) := do
  let chart ← c.build params
  match c.get? chart.id with
  | some held =>
    let chart := { chart with priority := held.priority }
    .ok (c.put chart, chart)
  | none => c.addChart params

/-- Adds dimensions from parameter lists until one is refused. -/
def addDimensions (chart : Chart) : List Json → Chart × Option DeclarationError
  | [] => (chart, none)
  | params :: rest =>
    match chart.addDimension params with
    | .ok chart => addDimensions chart rest
    | .error e => (chart, some e)

/-- Adds variables from parameter lists until one is refused. -/
def addVariables (chart : Chart) : List Json → Chart × Option DeclarationError
  | [] => (chart, none)
  | params :: rest =>
    match chart.addVariable params with
    | .ok chart => addVariables chart rest
    | .error e => (chart, some e)

/-- Adds what an entry lists to a chart: the dimensions, then the variables. -/
def fill (chart : Chart) (entry : Layout.Entry) : Chart × Option DeclarationError :=
  match addDimensions chart entry.lines with
  | (chart, none) => addVariables chart entry.vars
  | (chart, some e) => (chart, some e)

/-- Adds the chart of one entry with all that it lists. What was added before an error stays. -/
def createChart (c : Catalog) (id : String) (entry : Layout.Entry) :
    Catalog × Option DeclarationError :=
  match c.addChart (.array (.string id :: entry.options)) with
  | .error e => (c, some e)
  | .ok (c, chart) =>
    let (chart, error) := fill chart entry
    (c.put chart, error)

/-- Adds the charts of a layout in its order, up to the first error. -/
def createAll (c : Catalog) (layout : Layout) : List String → Catalog × Option DeclarationError
  | [] => (c, none)
  | id :: rest =>
    match layout.entry? id with
    | none => c.createAll layout rest
    | some entry =>
      match c.createChart id entry with
      | (c, none) => c.createAll layout rest
      | (c, some e) => (c, some e)

/-- Adds the charts of a layout. -/
def create (c : Catalog) (layout : Layout) : Catalog × Option DeclarationError :=
  c.createAll layout layout.order

/-- Gives a chart up. The announcement waits for the next cycle. -/
def obsoleteChart (c : Catalog) (id : String) : Catalog × Bool :=
  match c.get? id with
  | none => (c, false)
  | some chart =>
    if chart.isObsolete then (c, false)
    else ({ c.put chart.obsolete with pending := c.pending ++ chart.obsoletion }, true)

/-! ## Cycles -/

/-- One chart's part in a cycle. A chart that was given up is passed over until there are values for
it; with `cleanup` other than zero, a chart that missed so many cycles is given up. -/
def step (data : Samples) (sinceLast cleanup : Nat) (chart : Chart) : Chart.Cycle :=
  if chart.isObsolete && !chart.accepts data then ⟨chart, [], false⟩
  else
    let cycle := chart.update data sinceLast
    if !cycle.updated && cleanup > 0 && cycle.chart.missed ≥ cleanup then
      ⟨cycle.chart.obsolete, cycle.lines ++ cycle.chart.obsoletion, false⟩
    else cycle

/-- What a cycle did to a catalog. -/
structure Cycle where
  catalog : Catalog
  lines : List Line
  /-- How many charts were updated. -/
  updated : Nat

/-- One cycle over all charts in order, after the announcements that were waiting. -/
def update (c : Catalog) (data : Samples) (sinceLast cleanup : Nat) : Cycle :=
  let cycles := c.charts.map (step data sinceLast cleanup)
  { catalog := { c with charts := cycles.map (·.chart), pending := [] }
    lines := c.pending ++ cycles.flatMap (·.lines)
    updated := cycles.countP (·.updated) }

end Catalog

end ChartStream
