import ChassisCooling.Proofs.CommitPoint
import ChassisCooling.Proofs.Routes

/-! # The idle speed as a floor

The idle speed, limited like every speed, is what a controller starts from, and no automatic
decision goes below both it and the current speed. An override can: it sets any permitted speed.
What it leaves is not repaired at once. In a breach the speed still climbs by one step a cycle, and
in the cooldown it is held. So the speed is below idle after an automatic decision only where an
override has left it there, and there are exactly these two ways for it to stay below.
-/

namespace ChassisCooling

/-- The speed at rest, as far as it is permitted. -/
def FanControl.restSpeed (c : FanControl) : UInt8 :=
  c.clamp c.effectiveIdle

namespace Control

open Calendar

namespace Hysteresis

variable {c : FanControl} {h h' : Hysteresis} {x : Situation}

/-- An automatic decision does not go below both the speed at rest and the current one. -/
theorem restSpeed_le_of_pass (permitted : c.Permits h.currentSpeed) (free : x.IsFree)
    (passed : h.pass c x = .ok h') : min c.restSpeed h.currentSpeed ≤ h'.currentSpeed := by
  obtain ⟨speed, found, current, -⟩ := pass_of_free free passed
  have least := found.ge
  have limited := toNat_limited c (x.registry.hintFloor x.now)
    (show 0 ≤ speed by omega)
  have high := UInt8.le_iff_toNat_le.mp permitted.2
  have low := UInt8.le_iff_toNat_le.mp permitted.1
  rw [UInt8.le_iff_toNat_le, toNat_min, FanControl.restSpeed, FanControl.toNat_clamp, current]
  omega

/-- The readings do not bring a speed below rest up to it: in a breach one step up is not enough,
and otherwise the cooldown is not over. -/
def IsHeldDown (h : Hysteresis) (c : FanControl) (cpu gpu : Int32) (now : Instant) : Prop :=
  if isBreach c cpu gpu then h.currentSpeed.toNat + c.effectiveStep.toNat < c.restSpeed.toNat
  else ∃ last cooldown, h.lastBreach = some last ∧ c.effectiveCooldown = .ok cooldown ∧
    ¬ cooldown < now.since last

theorem floors_lt_iff {floor : Option UInt8} {bound : UInt8} (positive : 0 < bound.toNat) :
    (∀ speed, floor = some speed → speed < bound) ↔ (floor.getD 0).toNat < bound.toNat := by
  cases floor with
  | none => exact iff_of_true nofun positive
  | some speed =>
    rw [Option.getD_some, ← UInt8.lt_iff_toNat_lt]
    exact ⟨fun below => below speed rfl, fun below _ same => Option.some.inj same ▸ below⟩

/-- What a breach calls for is not below idle, unless it wraps around. -/
theorem idle_le_needed {cpu gpu : Int32} (fits : FitsWord c cpu gpu) :
    (c.effectiveIdle.toNat : Int) ≤ (needed c (excess c cpu gpu)).toInt := by
  have degrees := above_nonneg c cpu gpu
  have steps : 0 ≤ (above c cpu gpu / 5 + 1) * (c.effectiveStep.toNat : Int) :=
    Int.mul_nonneg (by omega) (Int.natCast_nonneg _)
  rw [fits.toInt_needed, calledFor]
  omega

theorem Automatic.lt_restSpeed_iff {speed : Int} {cpu gpu : Int32} {now : Instant}
    (permitted : c.Permits h.currentSpeed) (below : h.currentSpeed < c.restSpeed)
    (found : Automatic h c cpu gpu now speed)
    (fits : isBreach c cpu gpu = true → FitsWord c cpu gpu) :
    speed < c.restSpeed.toNat ↔ h.IsHeldDown c cpu gpu now := by
  have low := UInt8.le_iff_toNat_le.mp permitted.1
  have below := UInt8.lt_iff_toNat_lt.mp below
  have rest := c.toNat_clamp c.effectiveIdle
  rw [← FanControl.restSpeed] at rest
  cases found with
  | climb breach =>
    have called := idle_le_needed (fits breach)
    rw [IsHeldDown, if_pos breach, climb_eq_max]
    omega
  | idle calm never =>
    rw [IsHeldDown, if_neg (Bool.eq_false_iff.mp calm), never]
    refine iff_of_false (by omega) ?_
    rintro ⟨last, -, memory, -⟩
    cases memory
  | hold calm memory span within =>
    rw [IsHeldDown, if_neg (Bool.eq_false_iff.mp calm)]
    exact iff_of_true (by omega) ⟨_, _, memory, span, Int.not_lt.mpr within⟩
  | descend calm memory span later =>
    rw [IsHeldDown, if_neg (Bool.eq_false_iff.mp calm), descend_eq_max]
    refine iff_of_false (by omega) ?_
    rintro ⟨last, cooldown, memory', span', within⟩
    cases memory.symm.trans memory'
    cases span.symm.trans span'
    exact within later

theorem lt_restSpeed_of_pass (permitted : c.Permits h.currentSpeed) (free : x.IsFree)
    (passed : h.pass c x = .ok h') (below : h'.currentSpeed < c.restSpeed) :
    h.currentSpeed < c.restSpeed := by
  have least := restSpeed_le_of_pass permitted free passed
  rw [UInt8.le_iff_toNat_le, toNat_min] at least
  rw [UInt8.lt_iff_toNat_lt] at below ⊢
  omega

/-- Where 32 bits are enough, an automatic decision is below rest exactly when the speed was, no
hint asks for so much, and the readings do not bring it up. -/
theorem pass_lt_restSpeed_iff (permitted : c.Permits h.currentSpeed) (free : x.IsFree)
    (fits : isBreach c x.cpu x.gpu = true → FitsWord c x.cpu x.gpu)
    (passed : h.pass c x = .ok h') :
    h'.currentSpeed < c.restSpeed ↔ h.currentSpeed < c.restSpeed ∧
      (∀ floor, x.registry.hintFloor x.now = some floor → floor < c.restSpeed) ∧
      h.IsHeldDown c x.cpu x.gpu x.now := by
  by_cases below : h.currentSpeed < c.restSpeed
  · obtain ⟨speed, found, current, -⟩ := pass_of_free free passed
    have least := found.ge
    have limited := toNat_limited c (x.registry.hintFloor x.now)
      (show 0 ≤ speed by omega)
    rw [← current] at limited
    have low := UInt8.le_iff_toNat_le.mp permitted.1
    have high := UInt8.le_iff_toNat_le.mp permitted.2
    have rest := c.toNat_clamp c.effectiveIdle
    rw [← FanControl.restSpeed] at rest
    rw [and_iff_right below, ← found.lt_restSpeed_iff permitted below fits]
    rw [UInt8.lt_iff_toNat_lt] at below ⊢
    rw [floors_lt_iff (by omega)]
    omega
  · exact iff_of_false (mt (lt_restSpeed_of_pass permitted free passed) below)
      fun low => below low.1

end Hysteresis

/-! ## Routes -/

namespace Route

variable {s : Settings} {st st' : State} {ps : List Passage}

theorem permits (route : Route s st ps st') (range : s.fanControl.minSpeed ≤ s.fanControl.maxSpeed)
    (permitted : s.fanControl.Permits st.hysteresis.currentSpeed) :
    s.fanControl.Permits st'.hysteresis.currentSpeed := by
  induction route with
  | here => exact permitted
  | request _ _ ih => exact ih permitted
  | cycle committed _ ih =>
    exact ih (Hysteresis.permits_of_pass range (State.pass_of_commit committed).1)
  | brokenCycle broke _ ih => exact ih ((State.sameMemory_of_broken broke).current ▸ permitted)

/-- A route that ends below rest has been there all along, or an override has led there and nothing
since has led out. -/
theorem lowered_by_override (route : Route s st ps st')
    (range : s.fanControl.minSpeed ≤ s.fanControl.maxSpeed)
    (permitted : s.fanControl.Permits st.hysteresis.currentSpeed)
    (below : st'.hysteresis.currentSpeed < s.fanControl.restSpeed) :
    (st.hysteresis.currentSpeed < s.fanControl.restSpeed ∧
      ∀ p ∈ ps, p.speed < s.fanControl.restSpeed) ∨
    ∃ older low younger o, ps = older ++ low :: younger ∧
      low.registry.activeOverride low.now = some o ∧ low.speed = s.fanControl.clamp o.speed ∧
      ∀ p ∈ low :: younger, p.speed < s.fanControl.restSpeed := by
  induction route with
  | here => exact .inl ⟨below, by simp⟩
  | request _ _ ih => exact ih permitted below
  | brokenCycle broke _ ih =>
    have kept := (State.sameMemory_of_broken broke).current
    rw [kept] at permitted ⊢
    exact ih permitted below
  | @cycle st next _ cpu gpu now report ps committed _ ih =>
    obtain ⟨passed, reported⟩ := State.pass_of_commit committed
    obtain ⟨low, lasting⟩ | ⟨older, low, younger, o, rfl, rest⟩ :=
      ih (Hysteresis.permits_of_pass range passed) below
    · rw [← reported] at low
      have all : ∀ p ∈ st.passage cpu gpu now report :: ps, p.speed < s.fanControl.restSpeed :=
        List.forall_mem_cons.mpr ⟨low, lasting⟩
      obtain ⟨o, active, copied, -⟩ | ⟨_, free, -⟩ := Hysteresis.pass_cases passed
      · exact .inr ⟨[], _, ps, o, rfl, active, reported.trans copied, all⟩
      · rw [reported] at low
        exact .inl ⟨Hysteresis.lt_restSpeed_of_pass permitted free passed low, all⟩
    · exact .inr ⟨st.passage cpu gpu now report :: older, low, younger, o, rfl, rest⟩

end Route

/-- From the start of a controller on, a cycle without an override gives at least the smaller of the
speed before it and the speed at rest, whatever the readings. Where 32 bits are enough to reckon
what is above a threshold, it ends below rest exactly when the speed was below before, no live hint
asks for so much, and a breach needs more than one step up or the cooldown since the last one is not
over. The speed is below rest only where an override has led there and no cycle since has led out,
so where no override asks for less than the speed at rest, no cycle gives less. -/
theorem speed_reaches_rest (s : Settings) (valid : s.check = .ok ()) {st st' : State}
    {ps : List Passage} (route : Route s (.start s) ps st) {cpu : CpuReading} {gpu : GpuReading}
    {now : Instant} {report : Report} (free : st.registry.activeOverride now = none)
    (committed : st.commit s cpu gpu now = (st', .ok report)) :
    let c := s.fanControl
    let rest := c.restSpeed
    let before := st.hysteresis.currentSpeed
    min rest before ≤ report.speed ∧
    ((isBreach c cpu.max gpu.max = true → FitsWord c cpu.max gpu.max) →
      (report.speed < rest ↔ before < rest ∧
        (∀ floor, st.registry.hintFloor now = some floor → floor < rest) ∧
        st.hysteresis.IsHeldDown c cpu.max gpu.max now)) ∧
    (before < rest → ∃ older low younger o, ps = older ++ low :: younger ∧
      low.registry.activeOverride low.now = some o ∧ low.speed = c.clamp o.speed ∧
      ∀ p ∈ low :: younger, p.speed < rest) ∧
    ((∀ p ∈ ps, ∀ o, p.registry.activeOverride p.now = some o → rest ≤ c.clamp o.speed) →
      rest ≤ report.speed) := by
  intro c rest before
  obtain ⟨-, range, -⟩ := s.check_eq_ok_iff.mp valid
  have started : c.Permits (State.start s).hysteresis.currentSpeed := c.permits_clamp range _
  have permitted : c.Permits before := route.permits range started
  obtain ⟨passed, reported⟩ := State.pass_of_commit committed
  have free : (st.passage cpu gpu now report).IsFree :=
    (st.registry.evict_activeOverride now).trans free
  have least : min rest before ≤ report.speed :=
    reported ▸ Hysteresis.restSpeed_le_of_pass permitted free passed
  have sunk : before < rest → ∃ older low younger o, ps = older ++ low :: younger ∧
      low.registry.activeOverride low.now = some o ∧ low.speed = c.clamp o.speed ∧
      ∀ p ∈ low :: younger, p.speed < rest := by
    intro below
    obtain ⟨absurd, -⟩ | found := route.lowered_by_override range started below
    · exact (UInt8.lt_irrefl _ absurd).elim
    · exact found
  refine ⟨least, ?_, sunk, ?_⟩
  · intro fits
    have ends := Hysteresis.pass_lt_restSpeed_iff permitted free fits passed
    simp only [State.passage, Registry.evict_hintFloor] at ends
    rw [reported]
    exact ends
  · intro overrides
    refine UInt8.not_lt.mp fun below => ?_
    have before_lt : before < rest :=
      Hysteresis.lt_restSpeed_of_pass permitted free passed (reported ▸ below)
    obtain ⟨older, low, younger, o, rfl, active, copied, slow⟩ := sunk before_lt
    have enough : rest ≤ low.speed :=
      copied ▸ overrides low (List.mem_append_right _ (List.mem_cons_self ..)) o active
    exact UInt8.not_lt.mpr enough (slow low (List.mem_cons_self ..))

/-- A fresh controller that has been given an override of 5. -/
def State.quieted : State :=
  { State.start .default with registry := ⟨[], some ⟨5, "", none, .ofMillis 0⟩⟩ }

/-- A cycle at 70 degrees, 5 above the threshold. -/
def State.warmed (st : State) : State × Except OutOfCalendar Report :=
  st.commit .default (.ofTemps [70]) .empty (.ofMillis 0)

/-- The same controller after one such cycle, with the override cleared again. -/
def State.resumed : State :=
  { State.quieted.warmed.1 with registry := State.quieted.warmed.1.registry.clearOverride }

/-- The next cycle of that controller at 70 degrees ends at 15, and 20 is the speed at rest. -/
theorem resumed_stays_below_rest :
    ∃ ps report, Settings.default.check = .ok () ∧ Route .default (.start .default) ps .resumed ∧
      State.resumed.registry.override = none ∧
      State.resumed.warmed = (State.resumed.warmed.1, .ok report) ∧
      State.resumed.hysteresis.currentSpeed = 5 ∧
      min 20 State.resumed.hysteresis.currentSpeed ≤ report.speed ∧ report.speed < 20 ∧
      State.resumed.hysteresis.IsHeldDown .default 70 0 (.ofMillis 0) ∧
      ∃ older low younger o, ps = older ++ low :: younger ∧
        low.registry.activeOverride low.now = some o ∧
        low.speed = FanControl.default.clamp o.speed ∧ ∀ p ∈ low :: younger, p.speed < 20 := by
  have answered : (State.start .default).registry.setOverride 5 ⟨0⟩ "" (.ofMillis 0) =
    .ok (.ok ⟨5, "", none, .ofMillis 0⟩, State.quieted.registry) := rfl
  have first : State.quieted.warmed = (State.quieted.warmed.1,
      .ok ⟨.ofMillis 0, 70, 0, 5, .idle, .override⟩) := Prod.ext rfl (by decide)
  have second : State.resumed.warmed = (State.resumed.warmed.1,
      .ok ⟨.ofMillis 0, 70, 0, 15, .active, .auto⟩) := Prod.ext rfl (by decide)
  have set : Route .default (.start .default) [] .quieted :=
    .request (.setOverride answered) (.here .quieted)
  have cleared : Route .default State.quieted.warmed.1 [] .resumed :=
    .request .clearOverride (.here .resumed)
  have route := set.trans (.cycle first cleared)
  obtain ⟨least, ends, sunk, -⟩ := speed_reaches_rest .default rfl route rfl second
  have fits : FitsWord .default 70 0 := ⟨by decide, by decide, by decide⟩
  obtain ⟨-, -, held⟩ := (ends fun _ => fits).mp (by decide)
  have current : State.resumed.hysteresis.currentSpeed = 5 := by decide
  have below : State.resumed.hysteresis.currentSpeed < FanControl.default.restSpeed := by decide
  have led := sunk below
  exact ⟨_, _, rfl, route, rfl, second, current, least, by decide, held, led⟩

/-- At 70 degrees, 5 above the threshold, an override of 5 leads below the speed at rest, and after
its end one step up does not lead back. At 40 degrees the cooldown keeps the speed there. -/
theorem cleared_override_leaves_below_rest :
    let host := Host.posed false
    let now : Except OutOfCalendar Instant := .ok (.ofMillis 1748764800000)
    let hot : Scene := ⟨now, .ofTemps [70], .empty⟩
    let cool : Scene := ⟨now, .ofTemps [40], .empty⟩
    let quiet : List (Operation Scene) :=
      [.setOverride 5 ⟨0⟩ "quiet", .runCycle, .clearOverride]
    let climbing := (Plant.new .default hot).run host .default (quiet ++ [.runCycle])
    let cooling := (Plant.new .default hot).run host .default
      (.runCycle :: quiet ++ [.turn fun _ => cool, .runCycle])
    Settings.default.check = .ok () ∧
      climbing.controller.state.registry.override = none ∧
      climbing.reports.map (·.speed) = [15, 5] ∧
      cooling.controller.state.registry.override = none ∧
      cooling.reports.map (·.speed) = [5, 5, 30] ∧
      FanControl.default.clamp FanControl.default.effectiveIdle = 20 :=
  ⟨rfl, rfl, rfl, rfl, rfl, rfl⟩

end Control

end ChassisCooling
