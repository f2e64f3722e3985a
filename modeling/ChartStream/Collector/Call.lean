import ChartStream.Catalog.Operation
import ChartStream.Collector.Error
import ChartStream.Duration.Basic

/-!
# Collect calls

What a collector does when it is asked for samples: it may change its charts, wait, have its job
stopped, and then answers. A call runs under a limit of time. Main definitions: `Call`, `Call.run`.
-/

namespace ChartStream

set_option autoImplicit false

/-- How a job learns that it is to stop. -/
inductive StopSignal where
  /-- It is asked to. -/
  | requested
  /-- Nobody is left who could ask it to. -/
  | abandoned
  deriving DecidableEq, Repr

/-- One thing that a call does before it answers. -/
inductive Call.Action where
  | change (operation : Catalog.Operation)
  /-- Wait for some milliseconds. -/
  | wait (millis : Nat)
  /-- Wait without end. -/
  | hang
  /-- Have the job stopped. -/
  | signal (signal : StopSignal)

/-- One collect call. -/
structure Call where
  actions : List Call.Action := []
  answer : Except CollectorError (Option Samples)

namespace Call

/-- How a call ended. -/
inductive Ending where
  | answered (answer : Except CollectorError (Option Samples))
  | timedOut
  /-- The job was to stop and did not wait any longer. -/
  | cancelled

/-- A call on its way: the charts, the milliseconds gone and whether the job is to stop. -/
structure Progress where
  catalog : Catalog
  elapsed : Nat := 0
  signal : Option StopSignal := none

/-- What a call left behind. -/
structure Outcome extends Progress where
  ending : Ending

/-- The error by which a refused declaration ends a call. Changes of other kinds never do. -/
def declarationError? : Catalog.Operation → Answer → Option DeclarationError
  | .addChart _, .failed e => some e
  | .replaceChart _, .failed e => some e
  | .onChart _ (.addDimension _), .failed e => some e
  | .onChart _ (.addVariable _), .failed e => some e
  | _, _ => none

/-- Whether a time in milliseconds is within a limit. A wait that ends at the limit is. -/
def within (limit : Duration) (millis : Nat) : Bool :=
  millis * nanosPerMilli ≤ limit.nanos

/-- How a call ends that would wait beyond its limit, or after a signal. If there is no time at all,
it is over before the signal is noticed. -/
def endingOfWait (limit : Duration) (signalled : Bool) : Ending :=
  if signalled && limit.nanos != 0 then .cancelled else .timedOut

/-- Runs the actions of a call and answers. With `stoppable`, a wait after a signal is not waited. -/
def runActions (limit : Duration) (stoppable : Bool)
    (answer : Except CollectorError (Option Samples)) (p : Progress) : List Action → Outcome
  | [] => ⟨p, .answered answer⟩
  | .change operation :: rest =>
    let effect := p.catalog.apply operation
    let p := { p with catalog := effect.catalog }
    match declarationError? operation effect.answer with
    | some e => ⟨p, .answered (.error (.declaration e))⟩
    | none => runActions limit stoppable answer p rest
  | .signal signal :: rest => runActions limit stoppable answer { p with signal := some signal } rest
  | .hang :: _ => ⟨p, endingOfWait limit (stoppable && p.signal.isSome)⟩
  | .wait millis :: rest =>
    let signalled := stoppable && p.signal.isSome
    if millis = 0 then runActions limit stoppable answer p rest
    else if signalled || !within limit (p.elapsed + millis) then ⟨p, endingOfWait limit signalled⟩
    else runActions limit stoppable answer { p with elapsed := p.elapsed + millis } rest

/-- Runs a call on the charts of its job. -/
def run (call : Call) (limit : Duration) (stoppable : Bool) (catalog : Catalog) : Outcome :=
  runActions limit stoppable call.answer { catalog := catalog } call.actions

end Call

/-! ## Scripts -/

/-- The calls that a collector is still going to make. -/
abbrev Script := List Call

namespace Script

/-- The error of a collector that has nothing left to do. It ends the job. -/
def exhaustion : CollectorError := .fatal "script exhausted"

/-- The call of a collector that has nothing left to do. -/
def exhausted : Call :=
  { answer := .error exhaustion }

/-- The next call, and the calls after it. -/
def next : Script → Call × Script
  | [] => (exhausted, [])
  | call :: rest => (call, rest)

end Script

end ChartStream
