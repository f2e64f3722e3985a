import ChartStream.Catalog.Layout
import ChartStream.Config.Plugin
import ChartStream.Duration.Text

/-!
# Writing settings

The JSON of settings. Durations are texts.
-/

namespace ChartStream

set_option autoImplicit false

namespace JobConfig

/-- The fields of the settings that all jobs share. -/
def toFields (c : JobConfig) : List (String × Json) :=
  [("name", .string c.name),
    ("update_every", .integer c.updateEvery.toNat),
    ("penalty", .bool c.penalty),
    ("max_penalty", .string c.maxPenalty.toText),
    ("chart_cleanup", .integer c.chartCleanup.toNat),
    ("priority", .integer c.priority.toNat),
    ("timeout", .string c.timeout.toText)]

def toJson (c : JobConfig) : Json :=
  Json.ofFields c.toFields

end JobConfig

namespace PortcheckConfig

/-- The settings of a port check, those that all jobs share beside its own. -/
def toJson (c : PortcheckConfig) : Json :=
  Json.ofFields (c.job.toFields ++
    [("host", .string c.host),
      ("port", .integer c.port.toNat),
      ("connect_timeout", .string c.connectTimeout.toText)])

end PortcheckConfig

def CollectorsConfig.toJson (c : CollectorsConfig) : Json :=
  Json.ofFields [("portcheck", .array (c.portcheck.map PortcheckConfig.toJson))]

def PluginConfig.toJson (c : PluginConfig) : Json :=
  Json.ofFields
    [("internal_monitoring", .bool c.internalMonitoring),
      ("channel_capacity", .integer c.channelCapacity.toNat),
      ("collectors", c.collectors.toJson),
      ("collector_path", match c.collectorPath with
        | some path => .string path
        | none => .null)]

namespace Layout

/-- The JSON of one chart's entry. -/
def Entry.toJson (e : Entry) : Json :=
  Json.ofFields [("options", .array e.options), ("lines", .array e.lines),
    ("variables", .array e.vars)]

/-- The JSON of the entries of a layout. -/
def definitionsJson (layout : Layout) : Json :=
  Json.ofFields (layout.definitions.map fun d => (d.1, d.2.toJson))

end Layout

end ChartStream
