import ChassisCooling.Hold

/-! # Points of the history

One control cycle as the history keeps it.
-/

namespace ChassisCooling.History

open Calendar

/-- The temperatures and the speed of one control cycle. -/
structure Point where
  timestamp : Instant
  cpuTemp : Int32
  gpuTemp : Int32
  fanSpeed : UInt8
deriving DecidableEq

namespace Point

def toJson (p : Point) : Json :=
  .obj [("timestamp", .time p.timestamp), ("cpu_temp", .int32 p.cpuTemp),
    ("gpu_temp", .int32 p.gpuTemp), ("fan_speed", .uint8 p.fanSpeed)]

def ofJson? (j : Json) : Option Point := do
  match ← j.fields? ["timestamp", "cpu_temp", "gpu_temp", "fan_speed"] with
  | [timestamp, cpuTemp, gpuTemp, fanSpeed] =>
    pure {
      timestamp := ← Json.required? Json.asTime? timestamp
      cpuTemp := ← Json.required? Json.asInt32? cpuTemp
      gpuTemp := ← Json.required? Json.asInt32? gpuTemp
      fanSpeed := ← Json.required? Json.asUInt8? fanSpeed }
  | _ => none

end Point

end ChassisCooling.History
