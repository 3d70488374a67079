import ChassisCooling.Fault
import ChassisCooling.Status

/-! # Settings

All that a host can be configured with. For some numbers zero means "as usual": they have an
effective value beside the one that is written down.
-/

namespace ChassisCooling

open Calendar

/-- Access to the board's management controller. The host `local` is the machine itself. -/
structure Bmc where
  host : String
  username : String
  password : String
deriving DecidableEq, Repr

/-- How often the sensors are read, and how long readings are kept. -/
structure Monitoring where
  /-- Seconds between two control cycles. -/
  interval : UInt64
  /-- Seconds for which readings are kept, in memory and in the history. -/
  retention : UInt64
  gpuEnabled : Bool
  /-- The program that reports the graphics cards. -/
  gpuTool : String
deriving DecidableEq, Repr

/-- How the speed follows the temperatures. -/
structure FanControl where
  minSpeed : UInt8
  maxSpeed : UInt8
  idleSpeed : UInt8
  cpuThreshold : Int32
  gpuThreshold : Int32
  /-- The greatest change of speed in one cycle. -/
  stepSize : UInt8
  /-- Seconds below both thresholds before the speed falls. -/
  cooldown : UInt64
deriving DecidableEq, Repr

/-- The settings of a host. -/
structure Settings where
  bmc : Bmc
  monitoring : Monitoring
  zones : List ZoneBand
  fanControl : FanControl
  socket : String
  historyPath : String
  logLevel : String
deriving DecidableEq, Repr

/-! ## Defaults -/

namespace Settings

/-- Where the settings of a host are kept. -/
def defaultPath : String := "/etc/only-fan-controller/config.json"

/-- Where the daemon listens. -/
def defaultSocket : String := "/run/only-fan-controller.sock"

end Settings

def Bmc.default : Bmc :=
  ⟨"local", "root", ""⟩

def Monitoring.default : Monitoring :=
  ⟨10, 3600, true, "/usr/bin/nvidia-smi"⟩

def FanControl.default : FanControl where
  minSpeed := 5
  maxSpeed := 100
  idleSpeed := 20
  cpuThreshold := 65
  gpuThreshold := 60
  stepSize := 10
  cooldown := 60

def Settings.default : Settings where
  bmc := .default
  monitoring := .default
  zones := [
    ⟨"idle", 45, 40, 10⟩,
    ⟨"normal", 60, 70, 25⟩,
    ⟨"warm", 70, 80, 45⟩,
    ⟨"hot", 80, 85, 70⟩,
    ⟨"critical", 999, 999, 100⟩]
  fanControl := .default
  socket := Settings.defaultSocket
  historyPath := "/var/lib/only-fan-controller/history.jsonl"
  logLevel := "info"

/-! ## Effective values -/

namespace FanControl

def effectiveIdle (c : FanControl) : UInt8 :=
  if c.idleSpeed = 0 then FanControl.default.idleSpeed else c.idleSpeed

def effectiveCpuThreshold (c : FanControl) : Int32 :=
  if c.cpuThreshold = 0 then FanControl.default.cpuThreshold else c.cpuThreshold

def effectiveGpuThreshold (c : FanControl) : Int32 :=
  if c.gpuThreshold = 0 then FanControl.default.gpuThreshold else c.gpuThreshold

def effectiveStep (c : FanControl) : UInt8 :=
  if c.stepSize = 0 then FanControl.default.stepSize else c.stepSize

/-- The time below both thresholds before the speed falls. -/
def effectiveCooldown (c : FanControl) : Except OutOfCalendar Span :=
  Span.ofSeconds (Span.signedSeconds (if c.cooldown = 0 then default.cooldown else c.cooldown))

/-- A speed brought into the permitted range. -/
def clamp (c : FanControl) (speed : UInt8) : UInt8 :=
  min (max speed c.minSpeed) c.maxSpeed

end FanControl

namespace Monitoring

/-- The seconds between two cycles, at least one. -/
def period (m : Monitoring) : Nat :=
  max m.interval.toNat 1

/-- The time for which readings are kept. -/
def effectiveRetention (m : Monitoring) : Except OutOfCalendar Span :=
  Span.ofSeconds (Span.signedSeconds (if m.retention = 0 then default.retention else m.retention))

end Monitoring

namespace Settings

/-- The first thing that is wrong with the settings, if there is one. -/
def check (s : Settings) : Except Fault Unit :=
  if 100 < s.fanControl.maxSpeed then
    .error (.invalidSetting "fan_control.max_speed" "must be at most 100")
  else if s.fanControl.maxSpeed < s.fanControl.minSpeed then
    .error (.invalidSetting "fan_control.min_speed"
      s!"{s.fanControl.minSpeed.toNat} is above max_speed {s.fanControl.maxSpeed.toNat}")
  else if s.monitoring.interval = 0 then
    .error (.invalidSetting "monitoring.interval" "must be positive")
  else .ok ()

/-- The settings as they may be shown: a password is not. -/
def redacted (s : Settings) : Settings :=
  if s.bmc.password.isEmpty then s else { s with bmc := { s.bmc with password := "********" } }

end Settings

end ChassisCooling
