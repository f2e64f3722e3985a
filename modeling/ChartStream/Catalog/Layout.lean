import ChartStream.Json.Value

/-!
# Layouts

The charts that a collector declares before its first cycle.
-/

namespace ChartStream

set_option autoImplicit false

/-- The parameter lists of one chart: of itself without its id, of its dimensions and of its
variables. -/
structure Layout.Entry where
  options : List Json := []
  lines : List Json := []
  vars : List Json := []
  deriving Repr

/-- The ids of charts in order of declaration, and the entries of ids. An id without an entry
declares nothing. -/
structure Layout where
  order : List String := []
  definitions : List (String × Layout.Entry) := []
  deriving Repr

namespace Layout

def empty : Layout := {}

/-- The entry of an id. -/
def entry? (layout : Layout) (id : String) : Option Entry :=
  layout.definitions.lookup id

/-- The layout with one more chart at its end. -/
def append (layout : Layout) (id : String) (entry : Entry) : Layout :=
  ⟨layout.order ++ [id], (id, entry) :: layout.definitions⟩

end Layout

end ChartStream
