import ChassisCooling.Reading

/-! # Simulated sensors

Temperatures that drift up while hints are live and down otherwise, within fixed ranges, and waver
a little from one reading to the next.
-/

namespace ChassisCooling.Sensors

/-- The state of the simulated sensors. -/
structure Simulated where
  cpuBase : Float
  gpuBases : List Float
  /-- The number of readings of the processors so far. -/
  tick : UInt64

namespace Simulated

/-- A machine at rest with two graphics cards. -/
def start : Simulated :=
  ⟨42.0, [38.0, 36.0], 0⟩

/-- A temperature brought into a range. -/
def within (low high x : Float) : Float :=
  if x < low then low else if high < x then high else x

/-- The processors' temperature drifts by one reading. -/
def driftCpu (hints : Nat) (base : Float) : Float :=
  within 35.0 80.0 (base + if 0 < hints then 0.3 else -0.1)

/-- A card's temperature drifts by one reading. -/
def driftGpu (hints : Nat) (base : Float) : Float :=
  within 32.0 85.0 (base + if 0 < hints then 0.5 else -0.15)

/-- A reading of the processors. -/
def readCpu (hints : Nat) (s : Simulated) : CpuReading × Simulated :=
  let cpuBase := driftCpu hints s.cpuBase
  let tick := s.tick + 1
  let base := cpuBase.toInt32
  let waver := tick.toNat % 3
  (.ofTemps [base + Int32.ofNat waver, base + Int32.ofNat ((waver + 1) % 3)],
    { s with cpuBase, tick })

/-- The card of some place in the list, at a temperature. -/
def device (hints : Nat) (tick : UInt64) (index : Nat) (base : Float) : GpuDevice where
  index := UInt32.ofNat index
  name := "Tesla P40 (Mock)"
  temp := base.toInt32 + Int32.ofNat (tick.toNat % 2)
  utilization := if 0 < hints then 85 + Int32.ofNat (tick.toNat % 15) else 0
  memoryUsed := 2048 + Int64.ofNat (tick.toNat % 60 * 10)
  memoryTotal := 24576
  powerDraw := if 0 < hints then 220 + Int32.ofNat (tick.toNat % 30) else 45

/-- A reading of the graphics cards. -/
def readGpu (hints : Nat) (s : Simulated) : GpuReading × Simulated :=
  let gpuBases := s.gpuBases.map (driftGpu hints)
  (.ofDevices (gpuBases.mapIdx (device hints s.tick)), { s with gpuBases })

end Simulated

end ChassisCooling.Sensors
