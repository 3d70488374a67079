import ChassisCooling.Control.Decision
import ChassisCooling.Control.Samples

/-! # The state of the controller

What the controller knows between two cycles, and the one step of a cycle that changes it.
-/

namespace ChassisCooling.Control

open Calendar

/-- All that a controller knows. -/
structure State where
  hysteresis : Hysteresis
  registry : Registry
  cpuSamples : Samples
  gpuSamples : Samples
  cpu : CpuReading
  gpu : GpuReading

/-- What one cycle did. -/
structure Report where
  time : Instant
  cpuMax : Int32
  gpuMax : Int32
  speed : UInt8
  zone : Zone
  mode : Mode
deriving DecidableEq

namespace State

/-- Before the first cycle the speed is the idle speed. -/
def start (s : Settings) : State where
  hysteresis := .start (s.fanControl.clamp s.fanControl.effectiveIdle)
  registry := .empty
  cpuSamples := []
  gpuSamples := []
  cpu := .empty
  gpu := .empty

/-- Two readings join the samples. -/
def observe (st : State) (cpu : CpuReading) (gpu : GpuReading) (now : Instant) : State :=
  { st with
    cpuSamples := st.cpuSamples.push cpu.max now
    gpuSamples := st.gpuSamples.push gpu.max now }

/-- Samples that are too old are dropped. -/
def trim (st : State) (now : Instant) (retention : Span) : Except OutOfCalendar State := do
  let cpuSamples ← st.cpuSamples.trim now retention
  let gpuSamples ← st.gpuSamples.trim now retention
  pure { st with cpuSamples, gpuSamples }

/-- Two readings become the current ones, and what is past leaves the registry. -/
def refresh (st : State) (cpu : CpuReading) (gpu : GpuReading) (now : Instant) : State :=
  { st with cpu, gpu, registry := st.registry.evict now }

/-- The next speed is decided from the current readings. -/
def settle (st : State) (s : Settings) (now : Instant) : Except OutOfCalendar State := do
  let h ← st.hysteresis.decide s.fanControl st.registry st.cpu.max st.gpu.max now
  pure { st with hysteresis := h.commit }

/-- The report of the cycle that has just been decided. -/
def report (st : State) (now : Instant) : Report where
  time := now
  cpuMax := st.cpu.max
  gpuMax := st.gpu.max
  speed := st.hysteresis.currentSpeed
  zone := st.hysteresis.zone
  mode := st.registry.mode now

/-- The one step of a cycle that changes the state: the readings join the samples, what is past is
dropped, and the speed is decided. When a time lies beyond the calendar the cycle ends there; what
was done before stays done. -/
def commit (st : State) (s : Settings) (cpu : CpuReading) (gpu : GpuReading) (now : Instant) :
    State × Except OutOfCalendar Report :=
  match s.monitoring.effectiveRetention with
  | .error e => (st, .error e)
  | .ok retention =>
    let observed := st.observe cpu gpu now
    match observed.trim now retention with
    | .error e => (observed, .error e)
    | .ok trimmed =>
      let refreshed := trimmed.refresh cpu gpu now
      match refreshed.settle s now with
      | .error e =>
        let zone := classify cpu.max gpu.max (isBreach s.fanControl cpu.max gpu.max)
        ({ refreshed with hysteresis := { refreshed.hysteresis with zone } }, .error e)
      | .ok settled => (settled, .ok (settled.report now))

/-- A consistent view of the state. -/
def status (st : State) (s : Settings) (now : Instant) : Except OutOfCalendar Status := do
  pure {
    timestamp := now
    cpu := st.cpu
    gpu := st.gpu
    currentSpeed := st.hysteresis.currentSpeed
    targetSpeed := st.hysteresis.targetSpeed
    zone := st.hysteresis.zone
    mode := st.registry.mode now
    hints := st.registry.liveHints now
    override := st.registry.activeOverride now
    cpuTrend := ← st.cpuSamples.trend now
    gpuTrend := ← st.gpuSamples.trend now
    zones := s.zones
    cpuThreshold := s.fanControl.effectiveCpuThreshold
    gpuThreshold := s.fanControl.effectiveGpuThreshold
    idleSpeed := s.fanControl.effectiveIdle }

end State

end ChassisCooling.Control
