import ChassisCooling.Proofs.Routes

/-! # The climb in a lasting breach

While the readings stay the same, above a threshold, and neither an override nor a hint interferes,
the speed after some decisions is given by their number: as many steps up from the first speed, not
past what the excess calls for, and never down. One decision more is one step more of the same
formula, also where the last step is cut short or the top of the range is reached, so the formula
holds after any number of them.
-/

namespace ChassisCooling.Control

open Calendar

/-- Two temperatures, and neither an override nor a hint to change what they call for. -/
structure Situation.IsPlain (cpu gpu : Int32) (x : Situation) : Prop where
  cpu : x.cpu = cpu
  gpu : x.gpu = gpu
  free : x.IsFree
  unhinted : x.IsUnhinted

/-! ## The formula -/

/-- The speed that a number of decisions climbs to when so much is called for. -/
def climbed (c : FanControl) (start called : Int) (count : Nat) : Int :=
  min c.maxSpeed.toNat (max start (min (start + count * c.effectiveStep.toNat) called))

section Formula

variable (c : FanControl) {start : Int} (called : Int)

theorem climbed_zero (permitted : start ≤ c.maxSpeed.toNat) : climbed c start called 0 = start := by
  rw [climbed]
  omega

/-- After a first decision the formula goes on from the speed that it left. -/
theorem climbed_climbed (count : Nat) :
    climbed c (climbed c start called 1) called count = climbed c start called (count + 1) := by
  have step : (0 : Int) ≤ c.effectiveStep.toNat := Int.natCast_nonneg _
  have steps : (0 : Int) ≤ count * c.effectiveStep.toNat :=
    Int.mul_nonneg (Int.natCast_nonneg _) step
  simp only [climbed, succ_steps]
  omega

theorem climbed_le_succ (count : Nat) :
    climbed c start called count ≤ climbed c start called (count + 1) ∧
      climbed c start called (count + 1) ≤
        climbed c start called count + c.effectiveStep.toNat := by
  have step : (0 : Int) ≤ c.effectiveStep.toNat := Int.natCast_nonneg _
  simp only [climbed, succ_steps]
  omega

/-- Enough decisions climb to what is called for, as far as the range allows. -/
theorem climbed_of_le (natural : 0 ≤ start) {count : Nat} (enough : called ≤ count) :
    climbed c start called count = min (c.maxSpeed.toNat : Int) (max start (called)) := by
  have steps : (count : Int) * 1 ≤ count * c.effectiveStep.toNat :=
    Int.mul_le_mul_of_nonneg_left (Int.ofNat_le.mpr (effectiveStep_pos c)) (Int.natCast_nonneg _)
  rw [climbed]
  omega

end Formula

/-! ## The decisions -/

namespace Hysteresis

variable {c : FanControl} {h : Hysteresis} {x : Situation} {xs : List Situation} {cpu gpu : Int32}

/-- A decision in a breach is found, and climbs once. -/
theorem pass_climbs (range : c.minSpeed ≤ c.maxSpeed) (breach : isBreach c cpu gpu = true)
    (permitted : c.Permits h.currentSpeed) (plain : x.IsPlain cpu gpu) :
    ∃ h', h.pass c x = .ok h' ∧ c.Permits h'.currentSpeed ∧
      (h'.currentSpeed.toNat : Int) =
        climbed c h.currentSpeed.toNat (needed c (excess c cpu gpu)).toInt 1 := by
  obtain ⟨rfl, rfl, free, unhinted⟩ := plain
  have found : h.automatic c x.cpu x.gpu x.now =
      .ok (climb c h.currentSpeed.toNat (excess c x.cpu x.gpu)) := if_pos breach
  obtain ⟨h', passed, current, -⟩ := pass_of_automatic free found
  refine ⟨h', passed, permits_of_pass range passed, ?_⟩
  have natural : 0 ≤ climb c h.currentSpeed.toNat (excess c x.cpu x.gpu) := by
    rw [climb_eq_max]
    omega
  have low := UInt8.le_iff_toNat_le.mp permitted.1
  have limits := UInt8.le_iff_toNat_le.mp range
  rw [current, toNat_limited c _ natural, unhinted.hintFloor, climb_eq_max, climbed]
  simp only [Option.getD_none, UInt8.toNat_zero]
  omega

/-- Decisions in a breach are found, and climb as often as they are taken. -/
theorem passAll_climbs (range : c.minSpeed ≤ c.maxSpeed) (breach : isBreach c cpu gpu = true)
    (permitted : c.Permits h.currentSpeed) (plain : ∀ x ∈ xs, x.IsPlain cpu gpu) :
    ∃ h', h.passAll c xs = .ok h' ∧
      (h'.currentSpeed.toNat : Int) =
        climbed c h.currentSpeed.toNat (needed c (excess c cpu gpu)).toInt xs.length := by
  induction xs generalizing h with
  | nil =>
    have high := UInt8.le_iff_toNat_le.mp permitted.2
    exact ⟨h, rfl, (climbed_zero c _ (Int.ofNat_le.mpr high)).symm⟩
  | cons x xs ih =>
    obtain ⟨first, others⟩ := List.forall_mem_cons.mp plain
    obtain ⟨next, passed, permitted, once⟩ := pass_climbs range breach permitted first
    obtain ⟨last, passedAll, climbs⟩ := ih permitted others
    refine ⟨last, (passAll_cons_of_pass passed xs).trans passedAll, ?_⟩
    rw [climbs, once, climbed_climbed, List.length_cons]

end Hysteresis

/-- In a breach that lasts, with the same readings, no override and no hint, the speed after some
cycles is their number of steps above the first speed, at most what is called for and what is
permitted, and never below the first; times do not matter, no cycle fails to come to its decision,
and cycles that break off elsewhere change nothing. So the speed never falls, rises by one step at
most, reaches what is called for, and stays there. What is called for is a step above idle and one
more for every five degrees above the thresholds, where 32 bits are enough to reckon it. -/
theorem speed_climbs_to_needed (s : Settings) (valid : s.check = .ok ()) (cpu gpu : Int32)
    (breach : s.fanControl.effectiveCpuThreshold < cpu ∨ s.fanControl.effectiveGpuThreshold < gpu)
    (st : State) (permitted : s.fanControl.Permits st.hysteresis.currentSpeed) :
    let c := s.fanControl
    let first : Int := st.hysteresis.currentSpeed.toNat
    let step : Int := c.effectiveStep.toNat
    let above : Int := max (max 0 (cpu.toInt - c.effectiveCpuThreshold.toInt))
      (gpu.toInt - c.effectiveGpuThreshold.toInt)
    let called : Int := (needed c (excess c cpu gpu)).toInt
    let level (count : Nat) : Int :=
      min c.maxSpeed.toNat (max first (min (first + count * step) called))
    (FitsWord c cpu gpu → called = c.effectiveIdle.toNat + (above / 5 + 1) * step) ∧
    (∀ xs : List Situation, (∀ x ∈ xs, x.IsPlain cpu gpu) →
      ∃ h, st.hysteresis.passAll c xs = .ok h ∧ h.currentSpeed.toNat = level xs.length) ∧
    (∀ ps st', Route s st ps st' → (∀ p ∈ ps, p.IsPlain cpu gpu) →
      st'.hysteresis.currentSpeed.toNat = level ps.length) ∧
    (∀ count, level count ≤ level (count + 1) ∧ level (count + 1) ≤ level count + step) ∧
    ∃ enough, ∀ count, enough ≤ count →
      level count = min (c.maxSpeed.toNat : Int) (max first called) := by
  intro c first step above called level
  obtain ⟨-, range, -⟩ := s.check_eq_ok_iff.mp valid
  have breach : isBreach c cpu gpu = true := by
    simpa only [isBreach, Bool.or_eq_true, decide_eq_true_eq] using breach
  refine ⟨FitsWord.toInt_needed, fun xs plain =>
    Hysteresis.passAll_climbs range breach permitted plain, ?_, ?_, ?_⟩
  · intro ps st' route plain
    obtain ⟨h, passedAll, same⟩ := route.decisions ⟨rfl, rfl⟩
    obtain ⟨h', passedAll', climbs⟩ :=
      Hysteresis.passAll_climbs range breach permitted (List.forall_mem_map.mpr plain)
    cases passedAll.symm.trans passedAll'
    rw [same.current, climbs, List.length_map]
    rfl
  · exact climbed_le_succ c called
  · refine ⟨called.toNat, fun count later => climbed_of_le c _ (Int.natCast_nonneg _) ?_⟩
    exact Int.toNat_le.mp later

/-- From the idle speed of 20 at 90 degrees, 25 above the threshold: 60 is on the way, and 80, six
steps above idle, is the end. -/
theorem default_climbs_to_eighty :
    let hot : Situation := ⟨90, 0, .empty, ⟨0, 0, by decide⟩⟩
    let start := (State.start .default).hysteresis
    Settings.default.check = .ok () ∧ FanControl.default.Permits start.currentSpeed ∧
      hot.IsPlain 90 0 ∧ FitsWord .default 90 0 ∧
      (needed .default (excess .default 90 0)).toInt = 20 + (25 / 5 + 1) * 10 ∧
      (∃ h, start.passAll .default (.replicate 4 hot) = .ok h ∧
        (h.currentSpeed.toNat : Int) = 60) ∧
      ∃ h, start.passAll .default (.replicate 8 hot) = .ok h ∧
        (h.currentSpeed.toNat : Int) = 80 := by
  intro hot start
  have permitted : FanControl.default.Permits start.currentSpeed := ⟨by decide, by decide⟩
  have plain : hot.IsPlain 90 0 := ⟨rfl, rfl, rfl, rfl⟩
  have fits : FitsWord .default 90 0 := ⟨by decide, by decide, by decide⟩
  obtain ⟨called, climbs, -⟩ :=
    speed_climbs_to_needed .default rfl 90 0 (.inl (by decide)) (.start .default) permitted
  have lasting (n : Nat) : ∀ x ∈ List.replicate n hot, x.IsPlain 90 0 :=
    fun _ member => List.eq_of_mem_replicate member ▸ plain
  exact ⟨rfl, permitted, plain, fits, called fits, climbs _ (lasting 4), climbs _ (lasting 8)⟩

end ChassisCooling.Control
