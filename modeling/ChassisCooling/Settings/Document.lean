import ChassisCooling.Settings.Basic

/-! # Settings as documents

Every part of a settings document may be left out and then has its default value.
-/

namespace ChassisCooling

namespace Bmc

def toJson (b : Bmc) : Json :=
  .obj [("host", .str b.host), ("username", .str b.username), ("password", .str b.password)]

def ofJson? (j : Json) : Option Bmc := do
  match ← j.fields? ["host", "username", "password"] with
  | [host, username, password] =>
    pure {
      host := ← Json.defaulted? Json.asString? default.host host
      username := ← Json.defaulted? Json.asString? default.username username
      password := ← Json.defaulted? Json.asString? default.password password }
  | _ => none

end Bmc

namespace Monitoring

def toJson (m : Monitoring) : Json :=
  .obj [("interval", .uint64 m.interval), ("history_retention", .uint64 m.retention),
    ("gpu_enabled", .bool m.gpuEnabled), ("nvidia_smi_path", .str m.gpuTool)]

def ofJson? (j : Json) : Option Monitoring := do
  match ← j.fields? ["interval", "history_retention", "gpu_enabled", "nvidia_smi_path"] with
  | [interval, retention, gpuEnabled, gpuTool] =>
    pure {
      interval := ← Json.defaulted? Json.asUInt64? default.interval interval
      retention := ← Json.defaulted? Json.asUInt64? default.retention retention
      gpuEnabled := ← Json.defaulted? Json.asBool? default.gpuEnabled gpuEnabled
      gpuTool := ← Json.defaulted? Json.asString? default.gpuTool gpuTool }
  | _ => none

end Monitoring

namespace FanControl

def toJson (c : FanControl) : Json :=
  .obj [("min_speed", .uint8 c.minSpeed), ("max_speed", .uint8 c.maxSpeed),
    ("idle_speed", .uint8 c.idleSpeed), ("cpu_threshold", .int32 c.cpuThreshold),
    ("gpu_threshold", .int32 c.gpuThreshold), ("step_size", .uint8 c.stepSize),
    ("cooldown_delay", .uint64 c.cooldown)]

def fieldNames : List String :=
  ["min_speed", "max_speed", "idle_speed", "cpu_threshold", "gpu_threshold", "step_size",
    "cooldown_delay"]

def ofJson? (j : Json) : Option FanControl := do
  match ← j.fields? fieldNames with
  | [minSpeed, maxSpeed, idleSpeed, cpuThreshold, gpuThreshold, stepSize, cooldown] =>
    pure {
      minSpeed := ← Json.defaulted? Json.asUInt8? default.minSpeed minSpeed
      maxSpeed := ← Json.defaulted? Json.asUInt8? default.maxSpeed maxSpeed
      idleSpeed := ← Json.defaulted? Json.asUInt8? default.idleSpeed idleSpeed
      cpuThreshold := ← Json.defaulted? Json.asInt32? default.cpuThreshold cpuThreshold
      gpuThreshold := ← Json.defaulted? Json.asInt32? default.gpuThreshold gpuThreshold
      stepSize := ← Json.defaulted? Json.asUInt8? default.stepSize stepSize
      cooldown := ← Json.defaulted? Json.asUInt64? default.cooldown cooldown }
  | _ => none

end FanControl

namespace Settings

/-- A section with a single text. -/
def textSection? (name value : String) (j : Json) : Option String := do
  match ← j.fields? [name] with
  | [text] => Json.defaulted? Json.asString? value text
  | _ => none

def toJson (s : Settings) : Json :=
  .obj [("idrac", s.bmc.toJson), ("monitoring", s.monitoring.toJson),
    ("zones", .array (s.zones.map ZoneBand.toJson)), ("fan_control", s.fanControl.toJson),
    ("api", .obj [("socket", .str s.socket)]), ("storage", .obj [("path", .str s.historyPath)]),
    ("logging", .obj [("level", .str s.logLevel)])]

def sectionNames : List String :=
  ["idrac", "monitoring", "zones", "fan_control", "api", "storage", "logging"]

def ofJson? (j : Json) : Option Settings := do
  match ← j.fields? sectionNames with
  | [bmc, monitoring, zones, fanControl, api, storage, logging] =>
    pure {
      bmc := ← Json.defaulted? Bmc.ofJson? default.bmc bmc
      monitoring := ← Json.defaulted? Monitoring.ofJson? default.monitoring monitoring
      zones := ← Json.defaulted? (Json.asList? ZoneBand.ofJson?) default.zones zones
      fanControl := ← Json.defaulted? FanControl.ofJson? default.fanControl fanControl
      socket := ← Json.defaulted? (textSection? "socket" default.socket) default.socket api
      historyPath :=
        ← Json.defaulted? (textSection? "path" default.historyPath) default.historyPath storage
      logLevel :=
        ← Json.defaulted? (textSection? "level" default.logLevel) default.logLevel logging }
  | _ => none

/-- The settings as they are shown to a client. -/
def shown (s : Settings) : Json :=
  s.redacted.toJson.canonical

end Settings

end ChassisCooling
