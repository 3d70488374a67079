import ChassisCooling.Sensors.Ipmi
import ChassisCooling.Sensors.Nvidia
import ChassisCooling.Sensors.Simulated
import ChassisCooling.Server.Service

/-! # Real and simulated devices

The daemon drives the fans and reads the sensors through programs, or simulates both.
-/

namespace ChassisCooling.Daemon

open Control Sensors Server

/-- The world in which programs run, and the simulated sensors. -/
structure Devices (σ : Type) where
  tools : σ
  simulated : Simulated

/-- The outcome of a call that may fail. -/
def outcome {α : Type} : Except Fault α → Outcome α
  | .ok value => .ok value
  | .error _ => .failed

namespace Devices

variable {σ : Type}

/-- A call that runs a program. -/
def call {α : Type} (f : σ → Except Fault α × σ) (d : Devices σ) : Outcome α × Devices σ :=
  let (result, tools) := f d.tools
  (outcome result, { d with tools })

/-- Drives the fans through the program. -/
def drive (run : Runner σ) (bmc : Bmc) (purpose : Ipmi.Purpose) :
    Devices σ → Outcome Unit × Devices σ :=
  call (Ipmi.drive run Ipmi.program bmc purpose)

/-- Real sensors and fans. -/
def real (run : Runner σ) (s : Settings) : Hardware (Devices σ) where
  readCpu := fun _ => call (Ipmi.read run Ipmi.program s.bmc)
  readGpu := fun _ => call (Nvidia.read run s.monitoring)
  enableManual := drive run s.bmc .enableManual
  restoreAuto := drive run s.bmc .restoreAuto
  setSpeed := fun percent => drive run s.bmc (.setSpeed percent)
  live := true

/-- Simulated sensors, and fans that obey. -/
def pretended : Hardware (Devices σ) where
  readCpu := fun hints d =>
    let (reading, simulated) := d.simulated.readCpu hints
    (.ok reading, { d with simulated })
  readGpu := fun hints d =>
    let (reading, simulated) := d.simulated.readGpu hints
    (.ok reading, { d with simulated })
  enableManual := fun d => (.ok (), d)
  restoreAuto := fun d => (.ok (), d)
  setSpeed := fun _ d => (.ok (), d)
  live := false

end Devices

end ChassisCooling.Daemon
