import ChassisCooling.Control.Controller
import ChassisCooling.Proofs.Speed

/-! # What a cycle does as a whole

A commit succeeds under three conditions: the retention is a span, the cutoff lies in the calendar,
and a speed is decided. Then it has one result; otherwise it leaves the speeds and the memory of
the last breach alone. A cycle is written in phases; run without interruption it is a straight
sequence of two looks at the clock, the sensors, the commit and the commands.
-/

namespace ChassisCooling.Control

open Calendar

namespace State

variable {st : State} {s : Settings} {cpu : CpuReading} {gpu : GpuReading} {now : Instant}

/-- Drops the samples up to a cutoff. -/
def forget (st : State) (cutoff : Instant) : State :=
  { st with
    cpuSamples := st.cpuSamples.dropWhile fun sample => sample.time ≤ cutoff
    gpuSamples := st.gpuSamples.dropWhile fun sample => sample.time ≤ cutoff }

theorem trim_eq (st : State) (now : Instant) (retention : Span) :
    st.trim now retention = (now.sub retention).map st.forget := by
  rw [State.trim, Samples.trim, Samples.trim]
  cases now.sub retention <;> rfl

theorem settle_eq (st : State) (s : Settings) (now : Instant) :
    st.settle s now =
      (st.hysteresis.decide s.fanControl st.registry st.cpu.max st.gpu.max now).map
        fun h => { st with hysteresis := h.commit } := by
  rw [State.settle]
  cases st.hysteresis.decide s.fanControl st.registry st.cpu.max st.gpu.max now <;> rfl

/-- The state that a commit leaves when it comes to a decision. -/
def decided (st : State) (cpu : CpuReading) (gpu : GpuReading) (now cutoff : Instant)
    (h : Hysteresis) : State :=
  { ((st.observe cpu gpu now).forget cutoff).refresh cpu gpu now with hysteresis := h.commit }

/-- The state that a commit leaves when no speed can be decided: the zone is the new one already. -/
def undecided (st : State) (c : FanControl) (cpu : CpuReading) (gpu : GpuReading)
    (now cutoff : Instant) : State :=
  { ((st.observe cpu gpu now).forget cutoff).refresh cpu gpu now with
    hysteresis := { st.hysteresis with
      zone := classify cpu.max gpu.max (isBreach c cpu.max gpu.max) } }

/-- Past the retention and the cutoff, a commit does what the decision says. -/
theorem commit_eq {retention : Span} {cutoff : Instant}
    (kept : s.monitoring.effectiveRetention = .ok retention)
    (cut : now.sub retention = .ok cutoff) :
    st.commit s cpu gpu now =
      match st.hysteresis.decide s.fanControl (st.registry.evict now) cpu.max gpu.max now with
      | .error e => (st.undecided s.fanControl cpu gpu now cutoff, .error e)
      | .ok h => (st.decided cpu gpu now cutoff h, .ok ((st.decided cpu gpu now cutoff h).report now)) := by
  have settled : (((st.observe cpu gpu now).forget cutoff).refresh cpu gpu now).settle s now =
      (st.hysteresis.decide s.fanControl (st.registry.evict now) cpu.max gpu.max now).map
        fun h => st.decided cpu gpu now cutoff h := settle_eq ..
  simp only [commit, kept, trim_eq, cut, Except.map, settled]
  cases st.hysteresis.decide s.fanControl (st.registry.evict now) cpu.max gpu.max now <;> rfl

/-- The speeds and the memory of the last breach are those of another state. -/
structure SameSpeeds (st st' : State) : Prop where
  current : st'.hysteresis.currentSpeed = st.hysteresis.currentSpeed
  target : st'.hysteresis.targetSpeed = st.hysteresis.targetSpeed
  breach : st'.hysteresis.lastBreach = st.hysteresis.lastBreach

/-- A commit comes to a decision, or it breaks off and leaves the speeds alone. -/
theorem commit_cases (st : State) (s : Settings) (cpu : CpuReading) (gpu : GpuReading)
    (now : Instant) :
    (∃ retention cutoff h, s.monitoring.effectiveRetention = .ok retention ∧
      now.sub retention = .ok cutoff ∧
      st.hysteresis.decide s.fanControl (st.registry.evict now) cpu.max gpu.max now = .ok h ∧
      st.commit s cpu gpu now =
        (st.decided cpu gpu now cutoff h, .ok ((st.decided cpu gpu now cutoff h).report now))) ∨
    ∃ st' e, st.commit s cpu gpu now = (st', .error e) ∧ SameSpeeds st st' := by
  cases kept : s.monitoring.effectiveRetention with
  | error e =>
    exact .inr ⟨st, e, by simp only [commit, kept], rfl, rfl, rfl⟩
  | ok retention =>
    cases cut : now.sub retention with
    | error e =>
      refine .inr ⟨st.observe cpu gpu now, e, ?_, rfl, rfl, rfl⟩
      simp only [commit, kept, trim_eq, cut, Except.map]
    | ok cutoff =>
      have committed : st.commit s cpu gpu now = _ := commit_eq kept cut
      cases decision : st.hysteresis.decide s.fanControl (st.registry.evict now) cpu.max gpu.max now with
      | ok h =>
        rw [decision] at committed
        exact .inl ⟨retention, cutoff, h, rfl, cut, rfl, committed⟩
      | error e =>
        rw [decision] at committed
        exact .inr ⟨_, e, committed, rfl, rfl, rfl⟩

end State

variable {σ : Type} (host : Host σ) (s : Settings) (st : State) (w : σ)

/-- The commands that follow a decision. -/
def Host.carryOut (report : Report) (w : σ) : σ :=
  let driven := (host.perform (.setSpeed report.speed) w).2
  if host.keepsHistory then
    (host.perform (.record report.cpuMax report.gpuMax report.speed) driven).2
  else driven

/-- The phases from the time on: the commit, and what follows from its decision. -/
theorem advance_timed (cpu : CpuReading) (gpu : GpuReading) (now : Instant) :
    Progress.advance host s (Progress.advance host s (Progress.advance host s
      ⟨.timed cpu gpu now, st, w⟩)) =
    match st.commit s cpu gpu now with
    | (st', .error _) => ⟨.aborted, st', w⟩
    | (st', .ok report) => ⟨.finished report, st', host.carryOut report w⟩ := by
  simp only [Progress.advance]
  obtain ⟨st', result⟩ := st.commit s cpu gpu now
  cases result with
  | error e => rfl
  | ok report =>
    simp only [Host.carryOut]
    split <;> rfl

/-- A cycle with nothing in between, phase after phase. -/
theorem cycle_eq : cycle host s st w =
    match host.now w with
    | .error _ => ⟨.aborted, st, w⟩
    | .ok first =>
      let sensed := host.sense (st.registry.liveHints first).length w
      match host.now sensed.2 with
      | .error _ => ⟨.aborted, st, sensed.2⟩
      | .ok now =>
        match st.commit s sensed.1.1 sensed.1.2 now with
        | (st', .error _) => ⟨.aborted, st', sensed.2⟩
        | (st', .ok report) => ⟨.finished report, st', host.carryOut report sensed.2⟩ := by
  cases shown : host.now w with
  | error e => simp only [cycle, phaseCount, Nat.repeat, Progress.advance, shown]
  | ok first =>
    have started : Progress.advance host s ⟨.started, st, w⟩ =
        ⟨.counted (st.registry.liveHints first).length, st, w⟩ := by
      simp only [Progress.advance, shown]
    simp only [cycle, phaseCount, Nat.repeat, started]
    generalize (st.registry.liveHints first).length = hints
    generalize sensing : host.sense hints w = sensed
    have counted : Progress.advance host s ⟨.counted hints, st, w⟩ =
        ⟨.sensed sensed.1.1 sensed.1.2, st, sensed.2⟩ := by
      simp only [Progress.advance, sensing]
    rw [counted]
    cases shown : host.now sensed.2 with
    | error e => simp only [Progress.advance, shown]
    | ok now =>
      have timed : Progress.advance host s ⟨.sensed sensed.1.1 sensed.1.2, st, sensed.2⟩ =
          ⟨.timed sensed.1.1 sensed.1.2 now, st, sensed.2⟩ := by
        simp only [Progress.advance, shown]
      rw [timed, advance_timed]

/-- A cycle breaks off at a look at the clock, it breaks off at its commit, or it is carried out. -/
theorem cycle_cases :
    (∃ w', cycle host s st w = ⟨.aborted, st, w'⟩ ∧
      (w' = w ∨ ∃ hints, w' = (host.sense hints w).2)) ∨
    (∃ hints now st' e, host.now (host.sense hints w).2 = .ok now ∧
      st.commit s (host.sense hints w).1.1 (host.sense hints w).1.2 now = (st', .error e) ∧
      cycle host s st w = ⟨.aborted, st', (host.sense hints w).2⟩) ∨
    ∃ hints now st' report, host.now (host.sense hints w).2 = .ok now ∧
      st.commit s (host.sense hints w).1.1 (host.sense hints w).1.2 now = (st', .ok report) ∧
      cycle host s st w = ⟨.finished report, st', host.carryOut report (host.sense hints w).2⟩ := by
  rw [cycle_eq]
  cases host.now w with
  | error e => exact .inl ⟨w, rfl, .inl rfl⟩
  | ok first =>
    dsimp only
    generalize (st.registry.liveHints first).length = hints
    cases shown : host.now (host.sense hints w).2 with
    | error e => exact .inl ⟨_, rfl, .inr ⟨hints, rfl⟩⟩
    | ok now =>
      dsimp only
      cases committed : st.commit s (host.sense hints w).1.1 (host.sense hints w).1.2 now with
      | mk st' result =>
        cases result with
        | error e => exact .inr (.inl ⟨hints, now, st', e, shown, committed, rfl⟩)
        | ok report => exact .inr (.inr ⟨hints, now, st', report, shown, committed, rfl⟩)

end ChassisCooling.Control
