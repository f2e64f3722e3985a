import ChartStream.Output.Error
import ChartStream.Output.Sink

/-!
# The writer

All jobs share one writer. It alone holds the sink and works on a bounded queue of commands, so blocks
of different jobs are never mixed. It stops at the first block that the sink does not take and flush,
and what is queued then is lost. Main definitions: `Writer`, `Writer.work`, `Writer.writeBlock`.
-/

namespace ChartStream

set_option autoImplicit false

/-- What the writer is asked to do. -/
inductive Writer.Command where
  /-- Hand one block to the sink and flush it. -/
  | write (block : String)
  /-- Flush the sink and report. -/
  | flush
  /-- Flush the sink and stop. -/
  | shutdown
  deriving DecidableEq, Repr

/-- The writer with its queue. -/
structure Writer where
  /-- How many commands the queue holds, at least one. -/
  capacity : Nat := 1024
  queue : List Writer.Command := []
  sink : Sink := {}
  stopped : Bool := false
  /-- How many blocks were accepted. It has no bound here, where a word of 64 bits begins again after
  more blocks than can be sent. -/
  blocksSent : Nat := 0

namespace Writer

/-- The largest number of commands that a queue can be made for. -/
def maxCapacity : Nat := 0x1fffffffffffffff

/-- A writer on a sink, unless its queue cannot be made. -/
def ofSink? (capacity : Nat) (sink : Sink) : Option Writer :=
  if capacity ≤ maxCapacity then some { capacity := max capacity 1, sink := sink } else none

/-- The report to a request to flush. -/
abbrev Report := Except OutputError Unit

/-- The writer after it stopped. -/
def stop (w : Writer) : Writer :=
  { w with stopped := true, queue := [] }

/-- Carries out one command. -/
def perform (w : Writer) : Command → Writer × Option Report
  | .write block =>
    let (sink, taken) := w.sink.write block
    if taken then
      let (sink, flushed) := sink.flush
      let w := { w with sink := sink }
      (if flushed then w else w.stop, none)
    else ({ w with sink := sink }.stop, none)
  | .flush =>
    let (sink, flushed) := w.sink.flush
    ({ w with sink := sink },
      some (if flushed then .ok () else .error (.sink w.sink.faults.reason)))
  | .shutdown => ({ w with sink := w.sink.flush.1 }.stop, none)

/-- Takes one command off the queue and carries it out. -/
def work (w : Writer) : Writer × Option Report :=
  match w.queue with
  | [] => (w, none)
  | command :: rest => { w with queue := rest }.perform command

/-- Carries out commands in order until the writer stops, and keeps the last report. -/
def workThrough (w : Writer) (report : Option Report) : List Command → Writer × Option Report
  | [] => (w, report)
  | command :: rest =>
    if w.stopped then (w, report)
    else
      let (w, latest) := w.perform command
      workThrough w (latest <|> report) rest

/-- Carries out all that is queued. -/
def drain (w : Writer) : Writer × Option Report :=
  workThrough { w with queue := [] } none w.queue

/-- The writer with room in its queue: a full one is worked on first. -/
def makeRoom (w : Writer) : Writer :=
  if w.queue.length < w.capacity then w else w.work.1

/-- Queues a command, unless the writer has stopped. -/
def send (w : Writer) (command : Command) : Writer × Report :=
  let w := w.makeRoom
  if w.stopped then (w, .error .closed)
  else ({ w with queue := w.queue ++ [command] }, .ok ())

/-- Queues one block. Nothing is done for an empty one. -/
def writeBlock (w : Writer) (block : String) : Writer × Report :=
  if block.isEmpty then (w, .ok ())
  else
    match w.send (.write block) with
    | (w, .ok ()) => ({ w with blocksSent := w.blocksSent + 1 }, .ok ())
    | (w, .error e) => (w, .error e)

/-- Waits until all that is queued has reached the sink. -/
def flush (w : Writer) : Writer × Report :=
  match w.send .flush with
  | (w, .error e) => (w, .error e)
  | (w, .ok ()) =>
    let (w, report) := w.drain
    (w, if w.stopped then .error .closed else report.getD (.error .closed))

/-- Has the writer finish its queue and stop. -/
def shutdown (w : Writer) : Writer :=
  (w.send .shutdown).1.drain.1

end Writer

end ChartStream
