import ChassisCooling.Proofs.Speed

/-! # The automatic speed

Climbing and descending are a maximum of the current speed and a bound that moves by one step, and
the idle speed is the least that a machine at rest comes down to. What a climb is bounded by is a
number of 32 bits; it is the whole number that it stands for as long as nothing wraps around. The
automatic speed has four cases, told apart by the breach, by the memory of the last one, and by the
cooldown.
-/

namespace ChassisCooling.Control

open Calendar

variable {c : FanControl} {cpu gpu cpu' gpu' : Int32} {now : Instant}

/-! ## Numbers of 32 bits -/

theorem toInt_max (a b : Int32) : (max a b).toInt = max a.toInt b.toInt := by
  change (if a ≤ b then b else a).toInt = max a.toInt b.toInt
  split
  · next below =>
    have := Int32.le_iff_toInt_le.mp below
    omega
  · next above =>
    have := mt Int32.le_iff_toInt_le.mpr above
    omega

theorem toInt_sub_of_bounds {a b : Int32} (bounds : -2147483648 ≤ a.toInt - b.toInt ∧
    a.toInt - b.toInt < 2147483648) : (a - b).toInt = a.toInt - b.toInt := by
  rw [Int32.toInt_sub]
  exact Int.bmod_eq_of_le (by omega) (by omega)

theorem toInt_ofNat_byte (b : UInt8) : (Int32.ofNat b.toNat).toInt = b.toNat :=
  Int32.toInt_ofNat_of_lt (by have := b.toNat_lt; omega)

/-! ## What a breach calls for -/

/-- The degrees by which the temperatures are above their thresholds, as a whole number. -/
def above (c : FanControl) (cpu gpu : Int32) : Int :=
  max (max 0 (cpu.toInt - c.effectiveCpuThreshold.toInt))
    (gpu.toInt - c.effectiveGpuThreshold.toInt)

/-- The speed that so many degrees call for, as a whole number. -/
def calledFor (c : FanControl) (above : Int) : Int :=
  c.effectiveIdle.toNat + (above / 5 + 1) * c.effectiveStep.toNat

/-- 32 bits are enough to reckon with two temperatures: neither a difference to a threshold nor the
speed that is called for wraps around. -/
structure FitsWord (c : FanControl) (cpu gpu : Int32) : Prop where
  onCpu : -2147483648 ≤ cpu.toInt - c.effectiveCpuThreshold.toInt ∧
    cpu.toInt - c.effectiveCpuThreshold.toInt < 2147483648
  onGpu : -2147483648 ≤ gpu.toInt - c.effectiveGpuThreshold.toInt ∧
    gpu.toInt - c.effectiveGpuThreshold.toInt < 2147483648
  speed : calledFor c (above c cpu gpu) < 2147483648

theorem above_nonneg (c : FanControl) (cpu gpu : Int32) : 0 ≤ above c cpu gpu := by
  rw [above]
  omega

theorem above_mono (cooler : cpu ≤ cpu') (coolerGpu : gpu ≤ gpu') :
    above c cpu gpu ≤ above c cpu' gpu' := by
  rw [Int32.le_iff_toInt_le] at cooler coolerGpu
  rw [above, above]
  omega

theorem calledFor_mono (c : FanControl) {low high : Int} (below : low ≤ high) :
    calledFor c low ≤ calledFor c high := by
  have quotient : low / 5 ≤ high / 5 := Int.ediv_le_ediv (by decide) below
  have steps : (low / 5 + 1) * (c.effectiveStep.toNat : Int) ≤
      (high / 5 + 1) * c.effectiveStep.toNat :=
    Int.mul_le_mul_of_nonneg_right (by omega) (Int.natCast_nonneg _)
  rw [calledFor, calledFor]
  omega

theorem FitsWord.toInt_excess (fits : FitsWord c cpu gpu) :
    (excess c cpu gpu).toInt = above c cpu gpu := by
  rw [excess, toInt_max, toInt_max, toInt_sub_of_bounds fits.onCpu, toInt_sub_of_bounds fits.onGpu]
  rfl

/-- Where nothing wraps around, the speed that is called for is what whole numbers give. -/
theorem FitsWord.toInt_needed (fits : FitsWord c cpu gpu) :
    (needed c (excess c cpu gpu)).toInt = calledFor c (above c cpu gpu) := by
  have degrees := above_nonneg c cpu gpu
  have speed := fits.speed
  rw [calledFor] at speed ⊢
  have quotient : (excess c cpu gpu / degreesPerStep).toInt = above c cpu gpu / 5 := by
    rw [Int32.toInt_div_of_ne_right _ _ (by decide), fits.toInt_excess]
    exact Int.tdiv_eq_ediv_of_nonneg degrees
  have one : (excess c cpu gpu / degreesPerStep + 1).toInt = above c cpu gpu / 5 + 1 := by
    have := (excess c cpu gpu).toInt_lt
    rw [fits.toInt_excess] at this
    rw [Int32.toInt_add, quotient, Int32.toInt_one]
    exact Int.bmod_eq_of_le (by omega) (by omega)
  have steps : 0 ≤ (above c cpu gpu / 5 + 1) * (c.effectiveStep.toNat : Int) :=
    Int.mul_nonneg (by omega) (Int.natCast_nonneg _)
  have product : ((excess c cpu gpu / degreesPerStep + 1) * .ofNat c.effectiveStep.toNat).toInt =
      (above c cpu gpu / 5 + 1) * c.effectiveStep.toNat := by
    rw [Int32.toInt_mul, one, toInt_ofNat_byte]
    exact Int.bmod_eq_of_le (by omega) (by omega)
  rw [needed, Int32.toInt_add, product, toInt_ofNat_byte]
  exact Int.bmod_eq_of_le (by omega) (by omega)

/-- At readings whose difference is too great for 32 bits the speed that is called for is below 0. -/
example : (needed .default (excess .default 40 2147483647)).toInt = -96 := by decide

/-! ## The parts of a decision -/

theorem climb_eq_max (c : FanControl) (current : Int) (excess : Int32) :
    climb c current excess =
      max current (min (current + c.effectiveStep.toNat) (needed c excess).toInt) := by
  rw [climb]
  split <;> omega

theorem descend_eq_max (c : FanControl) (current : Int) :
    descend c current = max (current - c.effectiveStep.toNat) c.effectiveIdle.toNat := by
  rw [descend]
  split <;> omega

/-- Where nothing wraps around, hotter readings and a higher speed climb no less far. -/
theorem climb_mono {low high : Int} (fits : FitsWord c cpu gpu) (fits' : FitsWord c cpu' gpu')
    (below : low ≤ high) (cooler : cpu ≤ cpu') (coolerGpu : gpu ≤ gpu') :
    climb c low (excess c cpu gpu) ≤ climb c high (excess c cpu' gpu') := by
  have := calledFor_mono c (above_mono (c := c) cooler coolerGpu)
  rw [climb_eq_max, climb_eq_max, fits.toInt_needed, fits'.toInt_needed]
  omega

theorem isBreach_iff : isBreach c cpu gpu = true ↔
    c.effectiveCpuThreshold.toInt < cpu.toInt ∨ c.effectiveGpuThreshold.toInt < gpu.toInt := by
  simp only [isBreach, Bool.or_eq_true, decide_eq_true_eq, Int32.lt_iff_toInt_lt]

/-- Hotter readings breach what cooler ones breach. -/
theorem isBreach_mono (cooler : cpu ≤ cpu') (coolerGpu : gpu ≤ gpu')
    (breach : isBreach c cpu gpu = true) : isBreach c cpu' gpu' = true := by
  rw [Int32.le_iff_toInt_le] at cooler coolerGpu
  rw [isBreach_iff] at breach ⊢
  omega

/-! ## The cases -/

namespace Hysteresis

variable {h : Hysteresis} {speed : Int}

/-- The automatic speed climbs in a breach; otherwise it is idle before the first breach, held in
the cooldown, and descends after it. -/
inductive Automatic (h : Hysteresis) (c : FanControl) (cpu gpu : Int32) (now : Instant) : Int → Prop
  | climb (breach : isBreach c cpu gpu = true) :
    Automatic h c cpu gpu now (climb c h.currentSpeed.toNat (excess c cpu gpu))
  | idle (calm : isBreach c cpu gpu = false) (never : h.lastBreach = none) :
    Automatic h c cpu gpu now c.effectiveIdle.toNat
  | hold {last : Instant} {cooldown : Span} (calm : isBreach c cpu gpu = false)
    (memory : h.lastBreach = some last) (span : c.effectiveCooldown = .ok cooldown)
    (within : (now.since last).nanos ≤ cooldown.nanos) :
    Automatic h c cpu gpu now h.currentSpeed.toNat
  | descend {last : Instant} {cooldown : Span} (calm : isBreach c cpu gpu = false)
    (memory : h.lastBreach = some last) (span : c.effectiveCooldown = .ok cooldown)
    (later : cooldown.nanos < (now.since last).nanos) :
    Automatic h c cpu gpu now (descend c h.currentSpeed.toNat)

theorem automatic_of_eq (found : h.automatic c cpu gpu now = .ok speed) :
    Automatic h c cpu gpu now speed := by
  rw [automatic] at found
  split at found
  · next breach =>
    cases found
    exact .climb breach
  · next calm =>
    have calm := Bool.eq_false_iff.mpr calm
    rw [settle.eq_def] at found
    split at found
    · next never =>
      cases found
      exact .idle calm never
    · next last memory =>
      obtain ⟨cooldown, span, same⟩ := ok_of_bind found
      cases same
      split
      · next later => exact .descend calm memory span later
      · next within => exact .hold calm memory span (Int.not_lt.mp within)

/-- The automatic speed never leaves the current one for less than idle. -/
theorem Automatic.ge (found : Automatic h c cpu gpu now speed) :
    min (h.currentSpeed.toNat : Int) c.effectiveIdle.toNat ≤ speed := by
  cases found with
  | climb => rw [climb_eq_max]; omega
  | idle => omega
  | hold => omega
  | descend => rw [descend_eq_max]; omega

/-- Hotter readings, a higher current speed and a later breach give no less, idle aside, as long as
nothing wraps around. -/
theorem Automatic.le_max {h' : Hysteresis} {speed' : Int}
    (found : Automatic h c cpu gpu now speed) (found' : Automatic h' c cpu' gpu' now speed')
    (fits : isBreach c cpu gpu = true → FitsWord c cpu gpu)
    (fits' : isBreach c cpu' gpu' = true → FitsWord c cpu' gpu')
    (cooler : cpu ≤ cpu') (coolerGpu : gpu ≤ gpu') (slower : h.currentSpeed ≤ h'.currentSpeed)
    (earlier : ∀ last, h.lastBreach = some last →
      ∃ last', h'.lastBreach = some last' ∧ last.nanos ≤ last'.nanos) :
    speed ≤ max speed' c.effectiveIdle.toNat := by
  rw [UInt8.le_iff_toNat_le] at slower
  have calm_of_calm (calm' : isBreach c cpu' gpu' = false) : isBreach c cpu gpu = false := by
    rw [Bool.eq_false_iff] at calm' ⊢
    exact mt (isBreach_mono cooler coolerGpu) calm'
  cases found' with
  | climb breach' =>
    cases found with
    | climb breach =>
      have := climb_mono (fits breach) (fits' breach') (Int.ofNat_le.mpr slower) cooler coolerGpu
      omega
    | idle => omega
    | hold => rw [climb_eq_max]; omega
    | descend => rw [descend_eq_max, climb_eq_max]; omega
  | idle calm' never' =>
    cases found with
    | climb breach => cases breach.symm.trans (calm_of_calm calm')
    | idle => omega
    | hold calm memory | descend calm memory =>
      obtain ⟨last', memory', -⟩ := earlier _ memory
      rw [never'] at memory'
      cases memory'
  | hold calm' memory' span' within =>
    cases found with
    | climb breach => cases breach.symm.trans (calm_of_calm calm')
    | idle => omega
    | hold => omega
    | descend => rw [descend_eq_max]; omega
  | descend calm' memory' span' later =>
    cases found with
    | climb breach => cases breach.symm.trans (calm_of_calm calm')
    | idle => omega
    | hold calm memory span within =>
      -- The hotter run breached no earlier, so its cooldown cannot be over before this one's.
      obtain ⟨last', same, order⟩ := earlier _ memory
      rw [memory'] at same
      cases same
      rw [span] at span'
      cases span'
      simp only [Instant.since] at within later
      omega
    | descend => rw [descend_eq_max, descend_eq_max]; omega

end Hysteresis

end ChassisCooling.Control
