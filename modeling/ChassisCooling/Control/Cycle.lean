import ChassisCooling.Control.Host
import ChassisCooling.Control.State

/-! # Control cycles

A cycle counts the live hints, reads the sensors, takes the time, commits the readings and decides,
sets the speed, and keeps the result in the history. It goes through these phases one at a time, and
between any two of them others may change or look at the state.
-/

namespace ChassisCooling.Control

open Calendar

/-- How far a cycle has come. -/
inductive Phase where
  | started
  | counted (hints : Nat)
  | sensed (cpu : CpuReading) (gpu : GpuReading)
  | timed (cpu : CpuReading) (gpu : GpuReading) (now : Instant)
  | decided (report : Report)
  | driven (report : Report)
  | finished (report : Report)
  /-- A time lay beyond the calendar, or the clock showed none, and the cycle ended there. -/
  | aborted

/-- Reads the sensors. A read that fails counts as an empty reading. A crash takes both readings
with it, and when the first sensor crashes the second is not asked. -/
def Host.sense {σ : Type} (host : Host σ) (hints : Nat) (w : σ) : (CpuReading × GpuReading) × σ :=
  match host.readCpu hints w with
  | (.crashed, w) => ((.empty, .empty), w)
  | (.failed, w) =>
    match host.readGpu hints w with
    | (.ok gpu, w) => ((.empty, gpu), w)
    | (_, w) => ((.empty, .empty), w)
  | (.ok cpu, w) =>
    match host.readGpu hints w with
    | (.ok gpu, w) => ((cpu, gpu), w)
    | (.failed, w) => ((cpu, .empty), w)
    | (.crashed, w) => ((.empty, .empty), w)

/-- A cycle under way, with the state of the controller and of its surroundings. -/
structure Progress (σ : Type) where
  phase : Phase
  state : State
  world : σ

/-- One phase of a cycle. -/
def Progress.advance {σ : Type} (host : Host σ) (s : Settings) (p : Progress σ) : Progress σ :=
  match p.phase with
  | .started =>
    match host.now p.world with
    | .ok now => { p with phase := .counted (p.state.registry.liveHints now).length }
    | .error _ => { p with phase := .aborted }
  | .counted hints =>
    let ((cpu, gpu), world) := host.sense hints p.world
    { p with phase := .sensed cpu gpu, world }
  | .sensed cpu gpu =>
    match host.now p.world with
    | .ok now => { p with phase := .timed cpu gpu now }
    | .error _ => { p with phase := .aborted }
  | .timed cpu gpu now =>
    match p.state.commit s cpu gpu now with
    | (state, .ok report) => { p with phase := .decided report, state }
    | (state, .error _) => { p with phase := .aborted, state }
  | .decided report =>
    { p with phase := .driven report, world := (host.perform (.setSpeed report.speed) p.world).2 }
  | .driven report =>
    if host.keepsHistory then
      let entry := Command.record report.cpuMax report.gpuMax report.speed
      { p with phase := .finished report, world := (host.perform entry p.world).2 }
    else { p with phase := .finished report }
  | .finished _ => p
  | .aborted => p

/-- The number of phases of a cycle. -/
def phaseCount : Nat := 6

/-- A whole cycle with nothing in between. -/
def cycle {σ : Type} (host : Host σ) (s : Settings) (state : State) (world : σ) : Progress σ :=
  Nat.repeat (Progress.advance host s) phaseCount ⟨.started, state, world⟩

/-- The report of a cycle that has come to its end. -/
def Phase.report? : Phase → Option Report
  | .finished report => some report
  | _ => none

end ChassisCooling.Control
