import ChassisCooling.Control.State
import ChassisCooling.Proofs.Calendar

/-! # What a decision does to the speed

Speeds are bytes, and every order fact about them is an order fact about the numbers they stand for.
A decision has two shapes: under an override it copies the override's speed, and otherwise it finds
an automatic speed, raises it to the floor of the hints, and limits the result. A cycle keeps the
readings, evicts what is past, and decides; nothing else about a cycle touches the speeds.
-/

namespace ChassisCooling

theorem toNat_max (a b : UInt8) : (max a b).toNat = max a.toNat b.toNat := by
  change (if a ≤ b then b else a).toNat = max a.toNat b.toNat
  split
  · next below =>
    have := UInt8.le_iff_toNat_le.mp below
    omega
  · next above =>
    have := mt UInt8.le_iff_toNat_le.mpr above
    omega

theorem toNat_min (a b : UInt8) : (min a b).toNat = min a.toNat b.toNat := by
  change (if a ≤ b then a else b).toNat = min a.toNat b.toNat
  split
  · next below =>
    have := UInt8.le_iff_toNat_le.mp below
    omega
  · next above =>
    have := mt UInt8.le_iff_toNat_le.mpr above
    omega

/-- Settings pass their check exactly when the range of speeds is one, and the timer moves. -/
theorem Settings.check_eq_ok_iff (s : Settings) :
    s.check = .ok () ↔ s.fanControl.maxSpeed ≤ 100 ∧
      s.fanControl.minSpeed ≤ s.fanControl.maxSpeed ∧ s.monitoring.interval ≠ 0 := by
  simp only [Settings.check, UInt8.le_iff_toNat_le, UInt8.lt_iff_toNat_lt]
  split
  · next above => simp only [reduceCtorEq, false_iff]; omega
  · split
    · next above => simp only [reduceCtorEq, false_iff]; omega
    · split
      · next still => simp [still]
      · next moves => simp only [moves, ne_eq, not_false_eq_true, and_true, true_iff]; omega

namespace FanControl

variable (c : FanControl)

theorem toNat_clamp (speed : UInt8) :
    (c.clamp speed).toNat = min (max speed.toNat c.minSpeed.toNat) c.maxSpeed.toNat := by
  rw [clamp, toNat_min, toNat_max]

/-- The permitted speeds. -/
def Permits (speed : UInt8) : Prop :=
  c.minSpeed ≤ speed ∧ speed ≤ c.maxSpeed

theorem permits_clamp (range : c.minSpeed ≤ c.maxSpeed) (speed : UInt8) :
    c.Permits (c.clamp speed) := by
  simp only [Permits, UInt8.le_iff_toNat_le, toNat_clamp] at range ⊢
  omega

end FanControl

namespace Control

open Calendar

theorem toNat_toSpeed (value : Int) : (toSpeed value).toNat = min value.toNat 255 := by
  rw [toSpeed, UInt8.toNat_ofNat']
  omega

theorem raiseTo_eq_max (floor : Option UInt8) {speed : Int} (natural : 0 ≤ speed) :
    raiseTo floor speed = max speed (floor.getD 0).toNat := by
  cases floor with
  | none => simp only [raiseTo, Option.getD_none, UInt8.toNat_zero]; omega
  | some floor => rfl

namespace Hysteresis

variable {h decided : Hysteresis} {c : FanControl} {r : Registry} {cpu gpu : Int32} {now : Instant}

/-- The speed that the temperatures alone call for. -/
def automatic (h : Hysteresis) (c : FanControl) (cpu gpu : Int32) (now : Instant) :
    Except OutOfCalendar Int :=
  if isBreach c cpu gpu then .ok (climb c h.currentSpeed.toNat (excess c cpu gpu))
  else settle c h.currentSpeed.toNat h.lastBreach now

theorem decide_of_override {o : Override} (active : r.activeOverride now = some o) :
    h.decide c r cpu gpu now = .ok { h with targetSpeed := c.clamp o.speed } := by
  rw [Hysteresis.decide, active]

theorem decide_of_automatic (free : r.activeOverride now = none) :
    h.decide c r cpu gpu now = (h.automatic c cpu gpu now).map fun speed => { h with
      targetSpeed := c.clamp (toSpeed (raiseTo (r.hintFloor now) speed))
      zone := classify cpu gpu (isBreach c cpu gpu)
      lastBreach := if isBreach c cpu gpu then some now else h.lastBreach } := by
  rw [Hysteresis.decide, free, automatic]
  cases isBreach c cpu gpu with
  | true => rfl
  | false =>
    simp only [Bool.false_eq_true, ↓reduceIte]
    cases settle c h.currentSpeed.toNat h.lastBreach now <;> rfl

/-- A decision copies the speed of the override, or it finds an automatic speed. -/
theorem decide_cases (decision : h.decide c r cpu gpu now = .ok decided) :
    (∃ o, r.activeOverride now = some o ∧ decided = { h with targetSpeed := c.clamp o.speed }) ∨
    ∃ speed, r.activeOverride now = none ∧ h.automatic c cpu gpu now = .ok speed ∧
      decided = { h with
        targetSpeed := c.clamp (toSpeed (raiseTo (r.hintFloor now) speed))
        zone := classify cpu gpu (isBreach c cpu gpu)
        lastBreach := if isBreach c cpu gpu then some now else h.lastBreach } := by
  cases active : r.activeOverride now with
  | some o =>
    rw [decide_of_override active] at decision
    cases decision
    exact .inl ⟨o, rfl, rfl⟩
  | none =>
    rw [decide_of_automatic active] at decision
    obtain ⟨speed, found, same⟩ := ok_of_map decision
    exact .inr ⟨speed, rfl, found, same.symm⟩

/-- Whatever is decided is a limited speed, and the current speed waits for the commit. -/
theorem decide_target (decision : h.decide c r cpu gpu now = .ok decided) :
    decided.currentSpeed = h.currentSpeed ∧ ∃ speed, decided.targetSpeed = c.clamp speed := by
  obtain ⟨o, -, rfl⟩ | ⟨speed, -, -, rfl⟩ := decide_cases decision
  · exact ⟨rfl, o.speed, rfl⟩
  · exact ⟨rfl, _, rfl⟩

/-- The last breach is this moment's, or the one that was remembered. -/
theorem decide_lastBreach (decision : h.decide c r cpu gpu now = .ok decided) :
    decided.lastBreach = some now ∨ decided.lastBreach = h.lastBreach := by
  obtain ⟨o, -, rfl⟩ | ⟨speed, -, -, rfl⟩ := decide_cases decision
  · exact .inr rfl
  · dsimp only
    split
    · exact .inl rfl
    · exact .inr rfl

@[simp] theorem commit_lastBreach (h : Hysteresis) : h.commit.lastBreach = h.lastBreach := rfl

end Hysteresis

end Control

end ChassisCooling
