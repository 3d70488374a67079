import ChassisCooling.Calendar.Instant
import ChassisCooling.Reading

/-! # What the controller works with

The clock, the sensors, the fans and the history are outside of the controller. A host says how
each of them answers, in a state of its own. A call may fail or even crash; either way the
controller goes on.
-/

namespace ChassisCooling.Control

open Calendar

/-- How a call ended. -/
inductive Outcome (α : Type) where
  | ok (value : α)
  | failed
  | crashed
deriving DecidableEq, Repr

/-- What the controller asks of the fans and of the history. -/
inductive Command where
  /-- Take the fans over from the management controller. -/
  | enableManual
  /-- Give the fans back to the management controller. -/
  | restoreAuto
  | setSpeed (percent : UInt8)
  /-- Keep a cycle in the history. -/
  | record (cpu gpu : Int32) (speed : UInt8)
deriving DecidableEq, Repr

/-- The surroundings of a controller, with their state. -/
structure Host (σ : Type) where
  /-- What the clock shows. -/
  now : σ → Except OutOfCalendar Instant
  /-- Reads the processors' sensors; told how many hints are live. -/
  readCpu : Nat → σ → Outcome CpuReading × σ
  /-- Reads the graphics cards' sensors; told how many hints are live. -/
  readGpu : Nat → σ → Outcome GpuReading × σ
  perform : Command → σ → Outcome Unit × σ
  /-- The fans are real, so they are given back when the controller stops. -/
  live : Bool
  /-- Cycles are kept in a history. -/
  keepsHistory : Bool

/-! ## Calls as data -/

/-- A call of the controller to its surroundings. -/
inductive Call where
  | readCpu (hints : Nat)
  | readGpu (hints : Nat)
  | perform (command : Command)
deriving DecidableEq, Repr

/-- A host that also keeps the calls made to it, newest first. -/
def Host.logged {σ : Type} (host : Host σ) : Host (List Call × σ) where
  now := fun (_, w) => host.now w
  readCpu := fun hints (calls, w) =>
    let (outcome, w) := host.readCpu hints w
    (outcome, .readCpu hints :: calls, w)
  readGpu := fun hints (calls, w) =>
    let (outcome, w) := host.readGpu hints w
    (outcome, .readGpu hints :: calls, w)
  perform := fun command (calls, w) =>
    let (outcome, w) := host.perform command w
    (outcome, .perform command :: calls, w)
  live := host.live
  keepsHistory := host.keepsHistory

end ChassisCooling.Control
