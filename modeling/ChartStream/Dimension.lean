import ChartStream.Parameters
import ChartStream.Samples

/-!
# Dimensions

One time series of a chart.
-/

namespace ChartStream

set_option autoImplicit false

/-- How the receiver turns collected values into stored points. -/
inductive Algorithm where
  | absolute
  | incremental
  | percentageOfAbsoluteRow
  | percentageOfIncrementalRow
  deriving DecidableEq, Repr

namespace Algorithm

def name : Algorithm → String
  | .absolute => "absolute"
  | .incremental => "incremental"
  | .percentageOfAbsoluteRow => "percentage-of-absolute-row"
  | .percentageOfIncrementalRow => "percentage-of-incremental-row"

def ofName? (s : String) : Option Algorithm :=
  [absolute, incremental, percentageOfAbsoluteRow, percentageOfIncrementalRow].find? fun a =>
    a.name = s

theorem ofName?_name (a : Algorithm) : ofName? a.name = some a := by
  cases a <;> decide

end Algorithm

/-- One time series of a chart. It is known by its id alone. -/
structure Dimension where
  id : String
  name : String
  algorithm : Algorithm := .absolute
  multiplier : Int := 1
  divisor : Int := 1
  hidden : Bool := false
  obsolete : Bool := false
  deriving DecidableEq, Repr

namespace Dimension

/-- A factor as it is kept: zero and a missing one count as one. -/
def factor (n : Option Int) : Int :=
  match n with
  | some n => if n = 0 then 1 else n
  | none => 1

/-- The dimension with default attributes, named by its id. -/
def ofId (id : String) : Dimension :=
  { id := id, name := id }

def withName (d : Dimension) (name : String) : Dimension :=
  { d with name := name }

def withAlgorithm (d : Dimension) (algorithm : Algorithm) : Dimension :=
  { d with algorithm := algorithm }

def withMultiplier (d : Dimension) (n : Int) : Dimension :=
  { d with multiplier := factor (some n) }

def withDivisor (d : Dimension) (n : Int) : Dimension :=
  { d with divisor := factor (some n) }

/-- The dimension declared by `[id, name, algorithm, multiplier, divisor, hidden]`. Only the id is
required: an empty name is the id, an unknown algorithm the absolute one, and a multiplier or divisor
that is no integer or zero is one. -/
def ofParameters (params : Json) : Except DeclarationError Dimension := do
  let p ← Parameters.read .dimension 1 params
  let id ← p.id .dimension 0
  let name := p.text 1
  return {
    id := id
    name := if name.isEmpty then id else name
    algorithm := (Algorithm.ofName? (p.text 2)).getD .absolute
    multiplier := factor (p.integer? 3)
    divisor := factor (p.integer? 4)
    hidden := p.text 5 = "hidden" }

/-- The dimension waits for the declaration that takes it back. -/
def retired (d : Dimension) : Dimension :=
  { d with hidden := true, obsolete := true }

/-- The integer that a cycle brings for the dimension. -/
def sample? (d : Dimension) (data : Samples) : Option Int :=
  data.integer? d.id

/-! ## Laws -/

theorem factor_ne_zero (n : Option Int) : factor n ≠ 0 := by
  unfold factor
  split
  · split
    · decide
    · assumption
  · decide

end Dimension

end ChartStream
