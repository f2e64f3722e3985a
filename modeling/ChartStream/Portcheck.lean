import ChartStream.Catalog.Layout
import ChartStream.Config.Portcheck
import ChartStream.Samples

/-!
# Port checks

A collector that connects to a host and port over TCP. It reports the outcome of each attempt, and how
long a successful one took.
-/

namespace ChartStream.Portcheck

set_option autoImplicit false

/-- The module name of the collector. -/
def moduleName : String := "portcheck"

/-- The charts of a port check: the latency in milliseconds, kept in microseconds, and the outcome. -/
def layout (config : PortcheckConfig) : Layout :=
  let family := Json.string config.target
  Layout.empty
    |>.append "latency" {
      options := [.null, .string "TCP connect latency", .string "ms", family,
        .string "portcheck.latency", .string "line"]
      lines := [.array [.string "latency", .string "latency", .string "absolute", .integer 1,
        .integer 1000]] }
    |>.append "status" {
      options := [.null, .string "Portcheck status", .string "boolean", family,
        .string "portcheck.status", .string "line"]
      lines := [
        .array [.string "success", .string "success", .string "absolute"],
        .array [.string "timeout", .string "timeout", .string "absolute"],
        .array [.string "failed", .string "no connection", .string "absolute"]] }

/-- The outcome of one attempt to connect. -/
inductive Probe where
  | success (took : Duration)
  | timedOut
  | failed
  deriving DecidableEq

/-- One for the outcome that came about and zero for the others; the latency of a success. -/
def Probe.samples (probe : Probe) : Samples :=
  let indicator := fun (b : Bool) => Json.integer (if b then 1 else 0)
  let outcome : Samples := ⟨[
    ("failed", indicator (probe matches .failed)),
    ("success", indicator (probe matches .success _)),
    ("timeout", indicator (probe matches .timedOut))]⟩
  match probe with
  | .success took => outcome.insert "latency" (.integer (min took.micros 0x7fffffffffffffff))
  | _ => outcome

end ChartStream.Portcheck
