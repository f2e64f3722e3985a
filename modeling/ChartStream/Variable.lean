import ChartStream.Parameters
import ChartStream.Samples

/-!
# Variables

A number that belongs to a chart and is not plotted, such as the threshold of an alarm.
-/

namespace ChartStream

set_option autoImplicit false

/-- A number bound to a chart. It is known by its id alone, and zero counts as a value. -/
structure Variable where
  id : String
  value : Option Int := none
  deriving DecidableEq, Repr

namespace Variable

/-- The variable declared by `[id, value]`. A value that is no integer is left out. -/
def ofParameters (params : Json) : Except DeclarationError Variable := do
  let p ← Parameters.read .variable 1 params
  let id ← p.id .variable 0
  return { id := id, value := p.integer? 1 }

def isSet (v : Variable) : Bool :=
  v.value.isSome

/-- The integer that a cycle brings for the variable. -/
def sample? (v : Variable) (data : Samples) : Option Int :=
  data.integer? v.id

end Variable

end ChartStream
