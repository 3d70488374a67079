import ChassisCooling.Hold
import ChassisCooling.Reading

/-! # The state of the controller as it is shown -/

namespace ChassisCooling

open Calendar

/-- A coarse reading of how hot the machine is. -/
inductive Zone where
  | idle
  | active
  | warm
  | hot
deriving DecidableEq, Repr

namespace Zone

def name : Zone → String
  | idle => "idle"
  | active => "active"
  | warm => "warm"
  | hot => "hot"

def ofName? (name : String) : Option Zone :=
  [idle, active, warm, hot].find? fun zone => zone.name == name

end Zone

/-- What decides the speed at the moment. -/
inductive Mode where
  | auto
  | hinted
  | override
deriving DecidableEq, Repr

namespace Mode

def name : Mode → String
  | auto => "auto"
  | hinted => "hinted"
  | override => "override"

def ofName? (name : String) : Option Mode :=
  [auto, hinted, override].find? fun mode => mode.name == name

end Mode

/-- A row of the table of zones that is shown beside the state. -/
structure ZoneBand where
  name : String
  cpuMax : Int32
  gpuMax : Int32
  fanSpeed : UInt8
deriving DecidableEq, Repr

namespace ZoneBand

def toJson (b : ZoneBand) : Json :=
  .obj [("name", .str b.name), ("cpu_max", .int32 b.cpuMax), ("gpu_max", .int32 b.gpuMax),
    ("fan_speed", .uint8 b.fanSpeed)]

def ofJson? (j : Json) : Option ZoneBand := do
  match ← j.fields? ["name", "cpu_max", "gpu_max", "fan_speed"] with
  | [name, cpuMax, gpuMax, fanSpeed] =>
    pure {
      name := ← Json.required? Json.asString? name
      cpuMax := ← Json.required? Json.asInt32? cpuMax
      gpuMax := ← Json.required? Json.asInt32? gpuMax
      fanSpeed := ← Json.required? Json.asUInt8? fanSpeed }
  | _ => none

end ZoneBand

/-- A consistent view of the controller at one time. -/
structure Status where
  timestamp : Instant
  cpu : CpuReading
  gpu : GpuReading
  currentSpeed : UInt8
  targetSpeed : UInt8
  zone : Zone
  mode : Mode
  hints : List Hint
  override : Option Override
  /-- Degrees per minute. -/
  cpuTrend : Float
  gpuTrend : Float
  zones : List ZoneBand
  cpuThreshold : Int32
  gpuThreshold : Int32
  idleSpeed : UInt8

namespace Status

def toJson (s : Status) : Json :=
  .obj <|
    [("timestamp", .time s.timestamp),
      ("cpu", s.cpu.toJson),
      ("gpu", s.gpu.toJson),
      ("current_speed", .uint8 s.currentSpeed),
      ("target_speed", .uint8 s.targetSpeed),
      ("zone", .str s.zone.name),
      ("mode", .str s.mode.name),
      ("active_hints", .array (s.hints.map Hint.toJson))] ++
    Json.optional "override" (s.override.map Override.toJson) ++
    [("cpu_trend", .float s.cpuTrend),
      ("gpu_trend", .float s.gpuTrend),
      ("zones", .array (s.zones.map ZoneBand.toJson)),
      ("cpu_threshold", .int32 s.cpuThreshold),
      ("gpu_threshold", .int32 s.gpuThreshold),
      ("idle_speed", .uint8 s.idleSpeed)]

def fieldNames : List String :=
  ["timestamp", "cpu", "gpu", "current_speed", "target_speed", "zone", "mode", "active_hints",
    "override", "cpu_trend", "gpu_trend", "zones", "cpu_threshold", "gpu_threshold", "idle_speed"]

/-- The state that a document shows; `held` says that it is part of a held document. -/
def ofJson? (held : Bool) (j : Json) : Option Status := do
  match ← j.fields? fieldNames with
  | [timestamp, cpu, gpu, currentSpeed, targetSpeed, zone, mode, hints, override, cpuTrend,
      gpuTrend, zones, cpuThreshold, gpuThreshold, idleSpeed] =>
    pure {
      timestamp := ← Json.required? Json.asTime? timestamp
      cpu := ← Json.required? CpuReading.ofJson? cpu
      gpu := ← Json.required? GpuReading.ofJson? gpu
      currentSpeed := ← Json.required? Json.asUInt8? currentSpeed
      targetSpeed := ← Json.required? Json.asUInt8? targetSpeed
      zone := ← Json.required? (fun j => (j.asWord? held).bind Zone.ofName?) zone
      mode := ← Json.required? (fun j => (j.asWord? held).bind Mode.ofName?) mode
      hints := ← Json.required? (Json.asList? Hint.ofJson?) hints
      override := ← Json.optional? Override.ofJson? override
      cpuTrend := ← Json.required? Json.asFloat? cpuTrend
      gpuTrend := ← Json.required? Json.asFloat? gpuTrend
      zones := ← Json.required? (Json.asList? ZoneBand.ofJson?) zones
      cpuThreshold := ← Json.required? Json.asInt32? cpuThreshold
      gpuThreshold := ← Json.required? Json.asInt32? gpuThreshold
      idleSpeed := ← Json.required? Json.asUInt8? idleSpeed }
  | _ => none

end Status

end ChassisCooling
