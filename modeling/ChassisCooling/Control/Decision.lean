import ChassisCooling.Control.Registry
import ChassisCooling.Settings.Basic

/-! # Deciding the speed

Above a threshold the speed climbs, at most one step a cycle, to what the excess calls for, and
never falls. Below both thresholds it is held for the cooldown after the last breach and then falls
by one step a cycle to the idle speed. Hints raise a floor under the result, an override replaces
it, and every result is brought into the permitted range.
-/

namespace ChassisCooling.Control

open Calendar

/-- What one cycle leaves behind for the next. -/
structure Hysteresis where
  currentSpeed : UInt8
  targetSpeed : UInt8
  zone : Zone
  /-- The last cycle in which a temperature was above its threshold. -/
  lastBreach : Option Instant
deriving DecidableEq

/-- Before the first cycle. -/
def Hysteresis.start (speed : UInt8) : Hysteresis :=
  ⟨speed, speed, .idle, none⟩

/-- The zone of two temperatures. -/
def classify (cpu gpu : Int32) (breach : Bool) : Zone :=
  if 80 < cpu ∨ 85 < gpu then .hot
  else if 70 < cpu ∨ 75 < gpu then .warm
  else if breach then .active
  else .idle

/-- A number as a speed: below 0 it is 0, above 255 it is 255. -/
def toSpeed (value : Int) : UInt8 :=
  UInt8.ofNat (min value.toNat 255)

/-- The degrees above a threshold that call for another step. -/
def degreesPerStep : Int32 := 5

/-- A temperature is above its threshold. -/
def isBreach (c : FanControl) (cpu gpu : Int32) : Bool :=
  c.effectiveCpuThreshold < cpu || c.effectiveGpuThreshold < gpu

/-- The degrees by which the temperatures are above their thresholds. They are reckoned in 32 bits,
and so is what they call for: beyond them the numbers wrap around. -/
def excess (c : FanControl) (cpu gpu : Int32) : Int32 :=
  max (max 0 (cpu - c.effectiveCpuThreshold)) (gpu - c.effectiveGpuThreshold)

/-- The speed that an excess calls for: a step above idle, and one more for every five degrees. -/
def needed (c : FanControl) (excess : Int32) : Int32 :=
  .ofNat c.effectiveIdle.toNat + (excess / degreesPerStep + 1) * .ofNat c.effectiveStep.toNat

/-- The speed after a cycle above a threshold: one step up at most, and never down. A speed and a
step are bytes, so their sum is in no danger of wrapping around. -/
def climb (c : FanControl) (current : Int) (excess : Int32) : Int :=
  if current < (needed c excess).toInt then
    min (current + c.effectiveStep.toNat) (needed c excess).toInt
  else current

/-- The speed after a cycle below both thresholds once the cooldown is over: one step down, and not
below idle. -/
def descend (c : FanControl) (current : Int) : Int :=
  if (c.effectiveIdle.toNat : Int) < current then
    max (current - c.effectiveStep.toNat) c.effectiveIdle.toNat
  else c.effectiveIdle.toNat

/-- The speed after a cycle below both thresholds. Without a breach so far it is the idle speed. -/
def settle (c : FanControl) (current : Int) (lastBreach : Option Instant) (now : Instant) :
    Except OutOfCalendar Int :=
  match lastBreach with
  | none => .ok c.effectiveIdle.toNat
  | some last => do
    let cooldown ← c.effectiveCooldown
    pure (if cooldown < now.since last then descend c current else current)

/-- A speed raised to a floor. -/
def raiseTo (floor : Option UInt8) (speed : Int) : Int :=
  match floor with
  | none => speed
  | some floor => max speed floor.toNat

/-- Decides the next speed, as the target of the state. Under an override nothing else is looked
at. -/
def Hysteresis.decide (h : Hysteresis) (c : FanControl) (r : Registry) (cpu gpu : Int32)
    (now : Instant) : Except OutOfCalendar Hysteresis :=
  match r.activeOverride now with
  | some o => .ok { h with targetSpeed := c.clamp o.speed }
  | none => do
    let breach := isBreach c cpu gpu
    let current : Int := h.currentSpeed.toNat
    let speed ←
      if breach then pure (climb c current (excess c cpu gpu))
      else settle c current h.lastBreach now
    pure { h with
      targetSpeed := c.clamp (toSpeed (raiseTo (r.hintFloor now) speed))
      zone := classify cpu gpu breach
      lastBreach := if breach then some now else h.lastBreach }

/-- The target is reached: it is the current speed from now on. -/
def Hysteresis.commit (h : Hysteresis) : Hysteresis :=
  { h with currentSpeed := h.targetSpeed }

end ChassisCooling.Control
