import ChassisCooling.Settings.Basic

/-! # Fields of the settings

The settings as a record of eighteen fields, each with a value of its own kind. What is said of
every field in the same way is said once, and settings with equal fields are equal.
-/

namespace ChassisCooling.Settings

/-- The fields of the settings. The bands of temperature are one field. -/
inductive Field
  | host | username | password
  | interval | retention | gpuEnabled | gpuTool
  | zones
  | minSpeed | maxSpeed | idleSpeed | cpuThreshold | gpuThreshold | stepSize | cooldown
  | socket | historyPath | logLevel
deriving DecidableEq, Repr

/-- What a field can hold. -/
inductive Value
  | text (text : String)
  | truth (truth : Bool)
  | number (n : Int)
  | bands (bands : List ZoneBand)
deriving DecidableEq, Repr

/-- What the settings have in a field. -/
def value (s : Settings) : Field → Value
  | .host => .text s.bmc.host
  | .username => .text s.bmc.username
  | .password => .text s.bmc.password
  | .interval => .number s.monitoring.interval.toNat
  | .retention => .number s.monitoring.retention.toNat
  | .gpuEnabled => .truth s.monitoring.gpuEnabled
  | .gpuTool => .text s.monitoring.gpuTool
  | .zones => .bands s.zones
  | .minSpeed => .number s.fanControl.minSpeed.toNat
  | .maxSpeed => .number s.fanControl.maxSpeed.toNat
  | .idleSpeed => .number s.fanControl.idleSpeed.toNat
  | .cpuThreshold => .number s.fanControl.cpuThreshold.toInt
  | .gpuThreshold => .number s.fanControl.gpuThreshold.toInt
  | .stepSize => .number s.fanControl.stepSize.toNat
  | .cooldown => .number s.fanControl.cooldown.toNat
  | .socket => .text s.socket
  | .historyPath => .text s.historyPath
  | .logLevel => .text s.logLevel

variable {s t : Settings}

theorem Value.uint8_inj {m n : UInt8} (same : Value.number m.toNat = .number n.toNat) : m = n :=
  UInt8.toNat_inj.mp (Int.ofNat_inj.mp (Value.number.inj same))

theorem Value.uint64_inj {m n : UInt64} (same : Value.number m.toNat = .number n.toNat) : m = n :=
  UInt64.toNat_inj.mp (Int.ofNat_inj.mp (Value.number.inj same))

theorem Value.int32_inj {m n : Int32} (same : Value.number m.toInt = .number n.toInt) : m = n :=
  Int32.toInt_inj.mp (Value.number.inj same)

/-- Settings that have the same in every field are the same. -/
theorem ext_value (same : ∀ f, s.value f = t.value f) : s = t := by
  have bmc : s.bmc = t.bmc := by
    rw [Bmc.mk.injEq]
    exact ⟨Value.text.inj (same .host), Value.text.inj (same .username),
      Value.text.inj (same .password)⟩
  have monitoring : s.monitoring = t.monitoring := by
    rw [Monitoring.mk.injEq]
    exact ⟨Value.uint64_inj (same .interval), Value.uint64_inj (same .retention),
      Value.truth.inj (same .gpuEnabled), Value.text.inj (same .gpuTool)⟩
  have fanControl : s.fanControl = t.fanControl := by
    rw [FanControl.mk.injEq]
    exact ⟨Value.uint8_inj (same .minSpeed), Value.uint8_inj (same .maxSpeed),
      Value.uint8_inj (same .idleSpeed), Value.int32_inj (same .cpuThreshold),
      Value.int32_inj (same .gpuThreshold), Value.uint8_inj (same .stepSize),
      Value.uint64_inj (same .cooldown)⟩
  rw [mk.injEq]
  exact ⟨bmc, monitoring, Value.bands.inj (same .zones), fanControl, Value.text.inj (same .socket),
    Value.text.inj (same .historyPath), Value.text.inj (same .logLevel)⟩

end ChassisCooling.Settings
