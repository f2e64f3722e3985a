import ChartStream.Catalog.Layout
import ChartStream.Config.Document
import ChartStream.Config.Plugin

/-!
# Reading settings

Settings that are left out have their defaults, unknown ones are passed over and one that is there
twice is refused. The settings that all jobs share stand beside those of a port check in one mapping.
-/

namespace ChartStream

set_option autoImplicit false

open Config Document

variable {α : Type} [Document α]

namespace JobConfig

/-- The names of the settings in order of declaration. -/
def fieldNames : List String :=
  ["name", "update_every", "penalty", "max_penalty", "chart_cleanup", "priority", "timeout"]

/-- The settings with one of them read. -/
def readField (name : String) (value : α) (c : JobConfig) : Reading JobConfig := do
  match name with
  | "name" => return { c with name := ← text value }
  | "update_every" => return { c with updateEvery := .ofNat (← unsigned 64 value) }
  | "penalty" => return { c with penalty := ← flag value }
  | "max_penalty" => return { c with maxPenalty := ← duration value }
  | "chart_cleanup" => return { c with chartCleanup := .ofNat (← unsigned 64 value) }
  | "priority" => return { c with priority := .ofNat (← unsigned 32 value) }
  | "timeout" => return { c with timeout := ← duration value }
  | _ => return c

/-- The settings of a job from their fields. -/
def ofFields (fields : List (α × α)) : Reading JobConfig :=
  readRecord fieldNames readField {} fields

/-- The settings of a job. -/
def ofDocument (value : α) : Reading JobConfig := do
  ofFields (← fields fieldNames value)

end JobConfig

namespace PortcheckConfig

/-- The names of the settings that only port checks have. -/
def ownNames : List String :=
  ["host", "port", "connect_timeout"]

/-- The settings of a port check that are read so far, and the fields that it shares with all jobs in
reverse order. -/
structure Fields where
  host : Option String := none
  port : Option UInt16 := none
  connectTimeout : Duration := Duration.ofSeconds 2
  shared : List (Json × Json) := []

/-- Reads a field that only port checks have. -/
def Fields.readOwn (name : String) (value : α) (f : Fields) : Reading Fields := do
  match name with
  | "host" => return { f with host := some (← text value) }
  | "port" => return { f with port := some (.ofNat (← unsigned 16 value)) }
  | "connect_timeout" => return { f with connectTimeout := ← duration value }
  | _ => return f

/-- Keeps another field for later. -/
def Fields.keepShared (name : String) (value : α) (f : Fields) : Reading Fields := do
  return { f with shared := (.string name, ← content value) :: f.shared }

/-- The settings of a port check. Its host and its port may not be left out. -/
def ofDocument (value : α) : Reading PortcheckConfig := do
  let f ← readFields ownNames Fields.readOwn Fields.keepShared [] {} (← entries value)
  let host ← Reading.ofOption f.host
  let port ← Reading.ofOption f.port
  let job ← JobConfig.ofFields f.shared.reverse
  return { job := job, host := host, port := port, connectTimeout := f.connectTimeout }

end PortcheckConfig

namespace CollectorsConfig

def fieldNames : List String := ["portcheck"]

/-- The jobs with those of one collector read. -/
def readField (name : String) (value : α) (c : CollectorsConfig) : Reading CollectorsConfig := do
  match name with
  | "portcheck" => return { c with portcheck := ← (← items value).mapM PortcheckConfig.ofDocument }
  | _ => return c

/-- The jobs by collector. -/
def ofDocument (value : α) : Reading CollectorsConfig := do
  readRecord fieldNames readField {} (← fields fieldNames value)

end CollectorsConfig

namespace PluginConfig

def fieldNames : List String :=
  ["internal_monitoring", "channel_capacity", "collectors", "collector_path"]

/-- The settings with one of them read. -/
def readField (name : String) (value : α) (c : PluginConfig) : Reading PluginConfig := do
  match name with
  | "internal_monitoring" => return { c with internalMonitoring := ← flag value }
  | "channel_capacity" => return { c with channelCapacity := .ofNat (← unsigned 64 value) }
  | "collectors" => return { c with collectors := ← CollectorsConfig.ofDocument value }
  | "collector_path" => return { c with collectorPath := ← optionalText value }
  | _ => return c

/-- The settings of the plugin. -/
def ofDocument (value : α) : Reading PluginConfig := do
  readRecord fieldNames readField {} (← fields fieldNames value)

end PluginConfig

/-! ## Layouts -/

namespace Layout

def Entry.fieldNames : List String :=
  ["options", "lines", "variables"]

/-- The entry with one of its lists read. -/
def Entry.readField (name : String) (value : Json) (e : Entry) : Reading Entry := do
  match name with
  | "options" => return { e with options := ← items value }
  | "lines" => return { e with lines := ← items value }
  | "variables" => return { e with vars := ← items value }
  | _ => return e

/-- The entry of one chart. -/
def Entry.ofJson (value : Json) : Reading Entry := do
  readRecord Entry.fieldNames Entry.readField {} (← fields Entry.fieldNames value)

def fieldNames : List String :=
  ["order", "definitions"]

/-- The layout with one of its parts read. -/
def readField (name : String) (value : Json) (layout : Layout) : Reading Layout := do
  match name with
  | "order" => return { layout with order := ← (← items value).mapM text }
  | "definitions" =>
    return { layout with
      definitions := ← (← entries value).mapM fun e => do
        return (← text e.1, ← Entry.ofJson e.2) }
  | _ => return layout

/-- A layout. -/
def ofJson (value : Json) : Reading Layout := do
  readRecord fieldNames readField Layout.empty (← fields fieldNames value)

end Layout

end ChartStream
