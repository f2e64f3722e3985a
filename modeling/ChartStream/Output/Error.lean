/-!
# Errors of the output
-/

namespace ChartStream

set_option autoImplicit false

/-- Why a block or a request to flush did not get through. -/
inductive OutputError where
  /-- The writer has stopped. -/
  | closed
  /-- The sink failed. -/
  | sink (reason : String)
  deriving DecidableEq, Repr

/-- The text of an error. -/
def OutputError.message : OutputError → String
  | .closed => "output writer is closed"
  | .sink reason => "output io error: " ++ reason

end ChartStream
