import ChartStream.Output.Error
import ChartStream.Parameters

/-!
# Errors of collecting
-/

namespace ChartStream

set_option autoImplicit false

/-- Why a collection, or the start of a job, did not succeed. -/
inductive CollectorError where
  | network (reason : String)
  | timeout
  | config (reason : String)
  | declaration (error : DeclarationError)
  | output (error : OutputError)
  | checkFailed (reason : String)
  | fatal (reason : String)
  deriving DecidableEq, Repr

namespace CollectorError

/-- The text of an error. -/
def message : CollectorError → String
  | .network reason => "network error: " ++ reason
  | .timeout => "timeout elapsed"
  | .config reason => "config error: " ++ reason
  | .declaration error => "chart error: " ++ error.message
  | .output error => "output error: " ++ error.message
  | .checkFailed reason => "check failed: " ++ reason
  | .fatal reason => "fatal: " ++ reason

/-- Whether the job has to stop: the collector says so, its declarations are wrong or nothing can be
written any more. -/
def isFatal : CollectorError → Bool
  | .declaration _ => true
  | .output _ => true
  | .fatal _ => true
  | _ => false

end CollectorError

end ChartStream
