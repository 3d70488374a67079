import ChassisCooling.Settings.Basic
import ChassisCooling.Text.Blank
import ChassisCooling.Text.Digit

/-! # Settings from the environment

Each of thirteen variables takes the place of one setting. A text that is no number leaves a
number as it is.
-/

namespace ChassisCooling

/-- The variables of the environment, by name. -/
abbrev Environment := String → Option String

namespace Environment

/-- The environment with no variables. -/
def empty : Environment :=
  fun _ => none

/-- The environment with the given variables. -/
def ofList (entries : List (String × String)) : Environment :=
  fun name => (entries.find? fun v => v.1 == name).map Prod.snd

/-- The text of a variable, or the value that it takes the place of. -/
def text (e : Environment) (name : String) (value : String) : String :=
  (e name).getD value

/-- The truth value of a variable: the words for it are `true` and `1`, and all else is false. -/
def truth (e : Environment) (name : String) (value : Bool) : Bool :=
  match e name with
  | none => value
  | some text => text == "true" || text == "1"

/-- A number without a minus sign, at most `high`; blanks may stand around it. -/
def readUnsigned? (high : Nat) (text : String) : Option Nat :=
  (Text.readUnsigned? (Text.trim text.toList)).filter fun n => n ≤ high

/-- A number from `low` to `high`; blanks may stand around it. -/
def readSigned? (low high : Int) (text : String) : Option Int :=
  (Text.readSigned? (Text.trim text.toList)).filter fun n => low ≤ n ∧ n ≤ high

/-- The number of 8 bits in a variable, if it holds one. -/
def uint8 (e : Environment) (name : String) (value : UInt8) : UInt8 :=
  (((e name).bind (readUnsigned? 255)).map UInt8.ofNat).getD value

/-- The number of 64 bits in a variable, if it holds one. -/
def uint64 (e : Environment) (name : String) (value : UInt64) : UInt64 :=
  (((e name).bind (readUnsigned? 18446744073709551615)).map UInt64.ofNat).getD value

/-- The signed number of 32 bits in a variable, if it holds one. -/
def int32 (e : Environment) (name : String) (value : Int32) : Int32 :=
  (((e name).bind (readSigned? (-2147483648) 2147483647)).map Int32.ofInt).getD value

end Environment

namespace Settings

/-- The variables that settings are taken from. -/
def variableNames : List String :=
  ["IDRAC_HOST", "IDRAC_USERNAME", "IDRAC_PASSWORD", "CHECK_INTERVAL", "GPU_ENABLED",
    "FAN_MIN_SPEED", "FAN_MAX_SPEED", "FAN_IDLE_SPEED", "FAN_CPU_THRESHOLD", "FAN_GPU_THRESHOLD",
    "FAN_STEP_SIZE", "FAN_COOLDOWN_DELAY", "OFC_SOCKET"]

/-- The settings with what the environment says in place of what they say. -/
def overrideBy (s : Settings) (e : Environment) : Settings where
  bmc := {
    host := e.text "IDRAC_HOST" s.bmc.host
    username := e.text "IDRAC_USERNAME" s.bmc.username
    password := e.text "IDRAC_PASSWORD" s.bmc.password }
  monitoring := { s.monitoring with
    interval := e.uint64 "CHECK_INTERVAL" s.monitoring.interval
    gpuEnabled := e.truth "GPU_ENABLED" s.monitoring.gpuEnabled }
  zones := s.zones
  fanControl := {
    minSpeed := e.uint8 "FAN_MIN_SPEED" s.fanControl.minSpeed
    maxSpeed := e.uint8 "FAN_MAX_SPEED" s.fanControl.maxSpeed
    idleSpeed := e.uint8 "FAN_IDLE_SPEED" s.fanControl.idleSpeed
    cpuThreshold := e.int32 "FAN_CPU_THRESHOLD" s.fanControl.cpuThreshold
    gpuThreshold := e.int32 "FAN_GPU_THRESHOLD" s.fanControl.gpuThreshold
    stepSize := e.uint8 "FAN_STEP_SIZE" s.fanControl.stepSize
    cooldown := e.uint64 "FAN_COOLDOWN_DELAY" s.fanControl.cooldown }
  socket := e.text "OFC_SOCKET" s.socket
  historyPath := s.historyPath
  logLevel := s.logLevel

end Settings

end ChassisCooling
