import ChartStream.Dimension

/-!
# Lines of the stream

The text protocol is a sequence of lines: a keyword and fields, the texts among them in single
quotes. There is no escape for a quote inside a text, so quotes are dropped from texts. Main
definitions: `Line`, `Line.render`, `Line.renderAll`.
-/

namespace ChartStream

set_option autoImplicit false

/-- How the receiver draws a chart. -/
inductive ChartStyle where
  | line
  | area
  | stacked
  | absolute
  deriving DecidableEq, Repr

namespace ChartStyle

def name : ChartStyle → String
  | .line => "line"
  | .area => "area"
  | .stacked => "stacked"
  | .absolute => "absolute"

def ofName? (s : String) : Option ChartStyle :=
  [line, area, stacked, absolute].find? fun style => style.name = s

theorem ofName?_name (style : ChartStyle) : ofName? style.name = some style := by
  cases style <;> decide

end ChartStyle

/-- What the line that announces a chart says. -/
structure Announcement where
  fullId : String
  name : String
  title : String
  units : String
  family : String
  context : String
  style : ChartStyle
  priority : Nat
  updateEvery : Nat
  hidden : Bool
  obsolete : Bool
  plugin : String
  module : String
  deriving DecidableEq, Repr

/-- One line of the stream. -/
inductive Line where
  /-- A chart is announced, or taken back. -/
  | chart (announcement : Announcement)
  /-- The label that names the collecting job. -/
  | label (job : String)
  /-- The labels of the chart are complete. -/
  | labelsDone
  /-- A dimension of the chart announced last. -/
  | dimension (declared : Dimension)
  /-- A variable of the chart announced last or being updated. -/
  | variable (id : String) (value : Int)
  /-- The values of a chart follow, with the seconds since the last ones. -/
  | groupStart (fullId : String) (sinceLast : Nat)
  /-- The value of a dimension. -/
  | set (id : String) (value : Int)
  /-- The values are complete. -/
  | groupEnd
  deriving DecidableEq, Repr

namespace Line

/-! ## Fields -/

/-- A text without its single quotes. -/
def unquoted (cs : List Char) : List Char :=
  cs.filter fun c => c != '\''

/-- A text field. -/
def quoted (s : String) : String :=
  String.ofList ('\'' :: (unquoted s.toList ++ ['\'']))

/-- The field of the flags that hold. -/
def flags (hidden obsolete : Bool) : String :=
  match hidden, obsolete with
  | false, false => ""
  | true, false => "hidden"
  | false, true => "obsolete"
  | true, true => "hidden obsolete"

/-- The fields of a line with single spaces between them. -/
def joined : List String → String
  | [] => ""
  | [field] => field
  | field :: rest => field ++ " " ++ joined rest

/-- The keyword and the fields of a line. -/
def fields : Line → List String
  | .chart a =>
    ["CHART", quoted a.fullId, quoted a.name, quoted a.title, quoted a.units, quoted a.family,
      quoted a.context, quoted a.style.name, toString a.priority, toString a.updateEvery,
      quoted (flags a.hidden a.obsolete), quoted a.plugin, quoted a.module]
  | .label job => ["CLABEL", quoted "_collect_job", quoted job, quoted "0"]
  | .labelsDone => ["CLABEL_COMMIT"]
  | .dimension d =>
    ["DIMENSION", quoted d.id, quoted d.name, quoted d.algorithm.name, toString d.multiplier,
      toString d.divisor, quoted (flags d.hidden d.obsolete)]
  | .variable id value => ["VARIABLE", "CHART", quoted id, "=", toString value]
  | .groupStart fullId sinceLast => ["BEGIN", quoted fullId, toString sinceLast]
  | .set id value => ["SET", quoted id, "=", toString value]
  | .groupEnd => ["END"]

/-- The text of a line with the line break that ends it. -/
def render (line : Line) : String :=
  joined line.fields ++ "\n"

/-- The text of a sequence of lines. -/
def renderAll : List Line → String
  | [] => ""
  | line :: rest => line.render ++ renderAll rest

/-! ## Laws -/

@[simp] theorem renderAll_nil : renderAll [] = "" := rfl

@[simp] theorem renderAll_cons (line : Line) (rest : List Line) :
    renderAll (line :: rest) = line.render ++ renderAll rest := rfl

theorem renderAll_append (first second : List Line) :
    renderAll (first ++ second) = renderAll first ++ renderAll second := by
  induction first with
  | nil => simp
  | cons line rest ih => simp [ih, String.append_assoc]

theorem quote_not_mem_unquoted (cs : List Char) : '\'' ∉ unquoted cs := by
  simp [unquoted]

end Line

/-! ## Lines of one dimension or variable -/

namespace Dimension

/-- The line that sets the value of a dimension. -/
def setLine (d : Dimension) (value : Int) : Line :=
  .set d.id value

end Dimension

end ChartStream
