import ChassisCooling.Proofs.Routes

/-! # The descent after the last breach

Below both thresholds and without an override a remembered breach stays the last one. Until the
cooldown since then is over the speed is held: hints can raise it and nothing lowers it. Each
decision after that takes one step down, towards idle. So without hints the speed is given by the
number of decisions that came after the cooldown, whatever lies between them.
-/

namespace ChassisCooling.Control

open Calendar

/-! ## The formula -/

/-- The speed that a number of steps down lead to. -/
def lowered (c : FanControl) (start : Int) (count : Nat) : Int :=
  if count = 0 then start
  else min (max (max c.effectiveIdle.toNat (start - count * c.effectiveStep.toNat))
    c.minSpeed.toNat) c.maxSpeed.toNat

section Formula

variable (c : FanControl) {start : Int}

@[simp] theorem lowered_zero (start : Int) : lowered c start 0 = start := rfl

/-- After some steps down the formula goes on from the speed that they left. -/
theorem lowered_lowered (high : start ≤ c.maxSpeed.toNat) (count more : Nat) :
    lowered c (lowered c start count) more = lowered c start (count + more) := by
  have steps (count : Nat) : (0 : Int) ≤ count * c.effectiveStep.toNat :=
    Int.mul_nonneg (Int.natCast_nonneg _) (Int.natCast_nonneg _)
  cases count with
  | zero => rw [lowered_zero, Nat.zero_add]
  | succ count =>
    cases more with
    | zero => rfl
    | succ more =>
      have first := steps (count + 1)
      have second := steps (more + 1)
      have both : count + 1 + (more + 1) ≠ 0 := Nat.succ_ne_zero _
      have sum := Int.add_mul (count + 1 : Nat) (more + 1 : Nat) (c.effectiveStep.toNat : Int)
      rw [← Int.natCast_add] at sum
      simp only [lowered, both, Nat.succ_ne_zero, ↓reduceIte]
      omega

/-- One more step down lowers the speed by a step at most. -/
theorem lowered_le_succ (low : (c.minSpeed.toNat : Int) ≤ start) (high : start ≤ c.maxSpeed.toNat)
    (count : Nat) :
    lowered c start count ≤ lowered c start (count + 1) + c.effectiveStep.toNat := by
  cases count with
  | zero =>
    simp only [lowered, succ_steps, ↓reduceIte, Nat.succ_ne_zero]
    omega
  | succ count =>
    simp only [lowered, Nat.succ_ne_zero, ↓reduceIte, succ_steps]
    omega

/-- Enough steps down lead to idle, as far as the range allows. -/
theorem lowered_of_le (natural : 0 ≤ start) {count : Nat} (enough : start < count) :
    lowered c start count =
      min (max (c.effectiveIdle.toNat : Int) c.minSpeed.toNat) c.maxSpeed.toNat := by
  have steps : (count : Int) * 1 ≤ count * c.effectiveStep.toNat :=
    Int.mul_le_mul_of_nonneg_left (Int.ofNat_le.mpr (effectiveStep_pos c)) (Int.natCast_nonneg _)
  have some : count ≠ 0 := by omega
  rw [lowered, if_neg some]
  omega

end Formula

/-! ## The decisions -/

/-- The cooldown since a breach is over. -/
def Situation.isLate (cooldown : Span) (breach : Instant) (x : Situation) : Bool :=
  cooldown < x.now.since breach

/-- What decisions in a calm make of a speed, after a breach that they leave the last one. -/
structure Cooled (c : FanControl) (cooldown : Span) (breach : Instant) (first : UInt8)
    (xs : List Situation) (h : Hysteresis) : Prop where
  memory : h.lastBreach = some breach
  permitted : c.Permits h.currentSpeed
  /-- Within the cooldown nothing lowers the speed, whatever hints are live. -/
  held : (∀ x ∈ xs, x.isLate cooldown breach = false) → first ≤ h.currentSpeed
  /-- Without hints the speed has taken a step down for each decision after the cooldown. -/
  level : (∀ x ∈ xs, x.IsUnhinted) →
    (h.currentSpeed.toNat : Int) = lowered c first.toNat (xs.countP (·.isLate cooldown breach))

/-- Decisions after decisions. -/
theorem Cooled.append {c : FanControl} {cooldown : Span} {breach : Instant} {first : UInt8}
    {xs ys : List Situation} {h h' : Hysteresis} (high : first ≤ c.maxSpeed)
    (before : Cooled c cooldown breach first xs h)
    (after : Cooled c cooldown breach h.currentSpeed ys h') :
    Cooled c cooldown breach first (xs ++ ys) h' where
  memory := after.memory
  permitted := after.permitted
  held early :=
    UInt8.le_trans (before.held fun x member => early x (List.mem_append_left _ member))
      (after.held fun x member => early x (List.mem_append_right _ member))
  level unhinted := by
    have high := Int.ofNat_le.mpr (UInt8.le_iff_toNat_le.mp high)
    rw [after.level fun x member => unhinted x (List.mem_append_right _ member),
      before.level fun x member => unhinted x (List.mem_append_left _ member),
      lowered_lowered c high, List.countP_append]

namespace Hysteresis

variable {c : FanControl} {h h' : Hysteresis} {x : Situation} {xs : List Situation}
  {cooldown : Span} {breach : Instant}

theorem automatic_of_calm (span : c.effectiveCooldown = .ok cooldown)
    (memory : h.lastBreach = some breach) (calm : x.IsCalm c) :
    h.automatic c x.cpu x.gpu x.now = .ok (if x.isLate cooldown breach then
      descend c h.currentSpeed.toNat else h.currentSpeed.toNat) := by
  rw [automatic, calm, memory]
  simp only [Bool.false_eq_true, ↓reduceIte, settle, span, Situation.isLate, decide_eq_true_eq]
  rfl

/-- A decision in a calm holds the speed, or takes a step down. -/
theorem pass_cools (span : c.effectiveCooldown = .ok cooldown) (range : c.minSpeed ≤ c.maxSpeed)
    (permitted : c.Permits h.currentSpeed) (memory : h.lastBreach = some breach)
    (calm : x.IsCalm c) (free : x.IsFree) :
    ∃ h', h.pass c x = .ok h' ∧ Cooled c cooldown breach h.currentSpeed [x] h' := by
  obtain ⟨h', passed, current, remembered⟩ :=
    pass_of_automatic free (automatic_of_calm span memory calm)
  have low := UInt8.le_iff_toNat_le.mp permitted.1
  have high := UInt8.le_iff_toNat_le.mp permitted.2
  have natural : 0 ≤ if x.isLate cooldown breach then descend c h.currentSpeed.toNat
      else (h.currentSpeed.toNat : Int) := by
    rw [descend_eq_max]
    split <;> omega
  have number := toNat_limited c (x.registry.hintFloor x.now) natural
  rw [← current] at number
  have alone : x ∈ [x] := List.mem_singleton_self x
  refine ⟨h', passed, ?_, permits_of_pass range passed, ?_, ?_⟩
  · rw [remembered, calm, memory]
    rfl
  · intro early
    rw [early x alone, if_neg Bool.false_ne_true] at number
    rw [UInt8.le_iff_toNat_le]
    omega
  · intro unhinted
    rw [(unhinted x alone).hintFloor, Option.getD_none, UInt8.toNat_zero] at number
    rw [number, List.countP_singleton, descend_eq_max]
    cases x.isLate cooldown breach with
    | true => simp only [lowered, ↓reduceIte]; omega
    | false => simp only [lowered, Bool.false_eq_true, ↓reduceIte]; omega

/-- Decisions in a calm are found, and each of them holds the speed or takes a step down. -/
theorem passAll_cools (span : c.effectiveCooldown = .ok cooldown) (range : c.minSpeed ≤ c.maxSpeed)
    (permitted : c.Permits h.currentSpeed) (memory : h.lastBreach = some breach)
    (calm : ∀ x ∈ xs, x.IsCalm c ∧ x.IsFree) :
    ∃ h', h.passAll c xs = .ok h' ∧ Cooled c cooldown breach h.currentSpeed xs h' := by
  induction xs generalizing h with
  | nil => exact ⟨h, rfl, memory, permitted, fun _ => UInt8.le_refl _, fun _ => rfl⟩
  | cons x xs ih =>
    obtain ⟨⟨firstCalm, firstFree⟩, others⟩ := List.forall_mem_cons.mp calm
    obtain ⟨next, passed, once⟩ := pass_cools span range permitted memory firstCalm firstFree
    obtain ⟨last, passedAll, onward⟩ := ih once.permitted once.memory others
    exact ⟨last, (passAll_cons_of_pass passed xs).trans passedAll, once.append permitted.2 onward⟩

end Hysteresis

/-- A cooldown that is not longer than any span is one. -/
theorem effectiveCooldown_of_le {c : FanControl} (short : c.cooldown ≤ 9223372036854775) :
    c.effectiveCooldown =
      .ok ⟨(if c.cooldown = 0 then 60 else (c.cooldown.toNat : Int)) * 1000000000⟩ := by
  have short : c.cooldown.toNat ≤ 9223372036854775 := UInt64.le_iff_toNat_le.mp short
  have seconds : Span.signedSeconds (if c.cooldown = 0 then FanControl.default.cooldown
      else c.cooldown) = if c.cooldown = 0 then 60 else (c.cooldown.toNat : Int) := by
    split
    · rfl
    · exact if_pos (by omega)
  rw [FanControl.effectiveCooldown, seconds]
  refine if_pos ?_
  rw [Span.maxSeconds]
  split <;> omega

/-- On a route through a calm each cycle holds the speed or takes a step down. -/
theorem Route.cools {s : Settings} {st st' : State} {ps : List Passage} {cooldown : Span}
    {breach : Instant} (route : Route s st ps st')
    (span : s.fanControl.effectiveCooldown = .ok cooldown)
    (range : s.fanControl.minSpeed ≤ s.fanControl.maxSpeed)
    (permitted : s.fanControl.Permits st.hysteresis.currentSpeed)
    (memory : st.hysteresis.lastBreach = some breach)
    (calm : ∀ p ∈ ps, p.IsCalm s.fanControl ∧ p.IsFree) :
    Cooled s.fanControl cooldown breach st.hysteresis.currentSpeed (ps.map Passage.toSituation)
      st'.hysteresis := by
  obtain ⟨h, passedAll, same⟩ := route.decisions ⟨rfl, rfl⟩
  obtain ⟨h', passedAll', cooled⟩ :=
    Hysteresis.passAll_cools span range permitted memory (List.forall_mem_map.mpr calm)
  cases passedAll.symm.trans passedAll'
  exact ⟨same.breach.trans cooled.memory, same.current ▸ cooled.permitted,
    same.current ▸ cooled.held, same.current ▸ cooled.level⟩

/-- The last breach was at a known time, and from then on neither temperature is above its threshold
and no override is active. Then every decision is found and the breach stays the last one. From any
moment on, the speed does not fall as long as the cooldown is not over, whatever the hints do.
Without hints it stays the same in the cooldown, and has taken a step down for each decision after
it, but none past idle. So it falls by one step at most, reaches the idle speed as far as that is
permitted, and stays there. Cycles that break off elsewhere change nothing. -/
theorem speed_cools_to_idle (s : Settings) (valid : s.check = .ok ())
    (short : s.fanControl.cooldown ≤ 9223372036854775) (st : State)
    (permitted : s.fanControl.Permits st.hysteresis.currentSpeed) (breach : Instant)
    (memory : st.hysteresis.lastBreach = some breach) :
    let c := s.fanControl
    let first := st.hysteresis.currentSpeed
    let cooldown : Span := ⟨(if c.cooldown = 0 then 60 else (c.cooldown.toNat : Int)) * 1000000000⟩
    c.effectiveCooldown = .ok cooldown ∧
    (∀ xs ys : List Situation, (∀ x ∈ xs ++ ys, x.IsCalm c ∧ x.IsFree) →
      ∃ mid last, st.hysteresis.passAll c xs = .ok mid ∧ Cooled c cooldown breach first xs mid ∧
        mid.passAll c ys = .ok last ∧ Cooled c cooldown breach mid.currentSpeed ys last) ∧
    (∀ ps mid qs st', Route s st ps mid → Route s mid qs st' →
      (∀ p ∈ ps ++ qs, p.IsCalm c ∧ p.IsFree) →
      Cooled c cooldown breach first (ps.map (·.toSituation)) mid.hysteresis ∧
      Cooled c cooldown breach mid.hysteresis.currentSpeed (qs.map (·.toSituation))
        st'.hysteresis) ∧
    (∀ count, lowered c first.toNat count ≤
      lowered c first.toNat (count + 1) + c.effectiveStep.toNat) ∧
    ∃ enough, ∀ count, enough ≤ count →
      lowered c first.toNat count = (c.clamp c.effectiveIdle).toNat := by
  intro c first cooldown
  obtain ⟨-, range, -⟩ := s.check_eq_ok_iff.mp valid
  have span : c.effectiveCooldown = .ok cooldown := effectiveCooldown_of_le short
  refine ⟨span, ?_, ?_, ?_, ?_⟩
  · intro xs ys calm
    obtain ⟨before, after⟩ := List.forall_mem_append.mp calm
    obtain ⟨mid, passed, cooled⟩ := Hysteresis.passAll_cools span range permitted memory before
    obtain ⟨last, onward, cooledOn⟩ :=
      Hysteresis.passAll_cools span range cooled.permitted cooled.memory after
    exact ⟨mid, last, passed, cooled, onward, cooledOn⟩
  · intro ps mid qs st' route onward calm
    obtain ⟨before, after⟩ := List.forall_mem_append.mp calm
    have cooled := route.cools span range permitted memory before
    exact ⟨cooled, onward.cools span range cooled.permitted cooled.memory after⟩
  · exact lowered_le_succ c (Int.ofNat_le.mpr (UInt8.le_iff_toNat_le.mp permitted.1))
      (Int.ofNat_le.mpr (UInt8.le_iff_toNat_le.mp permitted.2))
  · refine ⟨first.toNat + 1, fun count later => ?_⟩
    rw [lowered_of_le c (Int.natCast_nonneg _) (Int.ofNat_lt.mpr later), FanControl.toNat_clamp]
    omega

/-- A breach at second 0 has left 50. It is held as long as the cooldown of a minute is not over,
and then falls to 20 in three steps. -/
theorem default_cools_in_three_steps :
    let breach : Instant := ⟨0, 0, by decide⟩
    let st : State := { State.start .default with hysteresis := ⟨50, 50, .active, some breach⟩ }
    let calm (second : Int) : Situation := ⟨40, 30, .empty, ⟨second, 0, by decide⟩⟩
    let run (seconds : List Int) := st.hysteresis.passAll .default (seconds.map calm)
    Settings.default.check = .ok () ∧ FanControl.default.cooldown ≤ 9223372036854775 ∧
      FanControl.default.Permits st.hysteresis.currentSpeed ∧
      st.hysteresis.lastBreach = some breach ∧
      (∀ second, (calm second).IsCalm .default ∧ (calm second).IsFree) ∧
      (∃ h, run [30, 60] = .ok h ∧ (h.currentSpeed.toNat : Int) = 50) ∧
      ∃ h, run [30, 60, 61, 71, 81, 91] = .ok h ∧ (h.currentSpeed.toNat : Int) = 20 := by
  intro breach st calm run
  have permitted : FanControl.default.Permits st.hysteresis.currentSpeed := ⟨by decide, by decide⟩
  have quiet (second : Int) : (calm second).IsCalm .default ∧ (calm second).IsFree := ⟨rfl, rfl⟩
  have cools := (speed_cools_to_idle .default rfl (by decide) st permitted breach rfl).2.1
  have level (seconds : List Int) : ∃ h, run seconds = .ok h ∧
      (h.currentSpeed.toNat : Int) = lowered .default 50
        ((seconds.map calm).countP (·.isLate ⟨60 * 1000000000⟩ breach)) := by
    obtain ⟨h, _, passedAll, cooled, -⟩ := cools (seconds.map calm) [] <| by
      rw [List.append_nil]
      exact List.forall_mem_map.mpr fun second _ => quiet second
    exact ⟨h, passedAll, cooled.level (List.forall_mem_map.mpr fun _ _ => rfl)⟩
  exact ⟨rfl, by decide, permitted, rfl, quiet, level [30, 60], level [30, 60, 61, 71, 81, 91]⟩

end ChassisCooling.Control
