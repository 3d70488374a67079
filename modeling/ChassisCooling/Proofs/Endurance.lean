import ChassisCooling.Proofs.Automatic
import ChassisCooling.Proofs.Calendar
import ChassisCooling.Proofs.Plant

/-! # What can stop a loop

A loop ends when one of its cycles breaks off, and a cycle breaks off when it needs a time or a span
beyond the calendar. Three places can need one: the retention and the cooldown become spans, and the
retention is taken off the time. A loop also ends at once when its first tick lies beyond the last
one of the timer. The check of the settings looks at none of these numbers, but that the interval is
not zero. So the bounds that make every cycle come to its end and every loop begin are stated here,
and they are exact: in surroundings with moderate temperatures and times from the year 0 to the year
9999 nothing stops a loop if and only if the settings keep them.
-/

namespace ChassisCooling

open Calendar

/-! ## Settings -/

/-- The seconds for which readings are kept, as they are reckoned with. -/
def Monitoring.retentionSeconds (m : Monitoring) : Int :=
  Span.signedSeconds (if m.retention = 0 then default.retention else m.retention)

theorem Monitoring.effectiveRetention_eq (m : Monitoring)
    (low : -Span.maxSeconds ≤ m.retentionSeconds) (high : m.retentionSeconds ≤ Span.maxSeconds) :
    m.effectiveRetention = .ok ⟨m.retentionSeconds * 1000000000⟩ :=
  if_pos ⟨low, high⟩

/-- The seconds below both thresholds before the speed falls, as they are reckoned with. -/
def FanControl.cooldownSeconds (c : FanControl) : Int :=
  Span.signedSeconds (if c.cooldown = 0 then default.cooldown else c.cooldown)

/-- A temperature between -1000 and 1000 degrees. -/
def Moderate (temperature : Int32) : Prop :=
  -1000 ≤ temperature.toInt ∧ temperature.toInt ≤ 1000

/-- A moderate temperature may be above a threshold. -/
def FanControl.CanBreach (c : FanControl) : Prop :=
  c.effectiveCpuThreshold.toInt < 1000 ∨ c.effectiveGpuThreshold.toInt < 1000

/-- The retention leads from no common time out of the calendar, the cooldown is a span where it may
be asked for, and from a timer that has counted no more seconds than there are common times the
first tick of a loop can be waited for. -/
structure Settings.Endurable (s : Settings) : Prop where
  retention_le : s.monitoring.retentionSeconds ≤ Instant.firstCommon - Instant.firstSecond
  le_retention : Instant.lastCommon - Instant.lastSecond ≤ s.monitoring.retentionSeconds
  cooldown : s.fanControl.CanBreach → -Span.maxSeconds ≤ s.fanControl.cooldownSeconds ∧
    s.fanControl.cooldownSeconds ≤ Span.maxSeconds
  interval : (Instant.lastCommon - Instant.firstCommon) + s.monitoring.period ≤ Control.lastTick

namespace Control

variable {s : Settings} {st : State} {cpu : CpuReading} {gpu : GpuReading} {now : Instant}

/-- Moderate readings at a common time. -/
structure Ordinary (cpu : CpuReading) (gpu : GpuReading) (now : Instant) : Prop where
  cpu : Moderate cpu.max
  gpu : Moderate gpu.max
  now : now.IsCommon

/-! ## One commit -/

namespace Hysteresis

variable {h : Hysteresis} {c : FanControl} {r : Registry} {t g : Int32} {last : Instant}

/-- In a calm after a breach a decision needs the cooldown. -/
theorem span_of_decide {d : Hysteresis} (free : r.activeOverride now = none)
    (calm : isBreach c t g = false) (memory : h.lastBreach = some last)
    (decision : h.decide c r t g now = .ok d) :
    ∃ cooldown, c.effectiveCooldown = .ok cooldown := by
  obtain ⟨o, active, -⟩ | ⟨speed, -, found, -⟩ := decide_cases decision
  · rw [free] at active
    cases active
  · cases automatic_of_eq found with
    | climb breach =>
      rw [calm] at breach
      cases breach
    | idle _ never =>
      rw [memory] at never
      cases never
    | hold _ _ span | descend _ _ span => exact ⟨_, span⟩

/-- A speed is decided unless the cooldown is asked for and is no span. -/
theorem decide_ok_iff : (∃ d, h.decide c r t g now = .ok d) ↔
    (r.activeOverride now = none → isBreach c t g = false → h.lastBreach ≠ none →
      ∃ cooldown, c.effectiveCooldown = .ok cooldown) := by
  constructor
  · rintro ⟨d, decision⟩ free calm remembered
    obtain ⟨last, memory⟩ := Option.ne_none_iff_exists'.mp remembered
    exact span_of_decide free calm memory decision
  · intro span
    cases active : r.activeOverride now with
    | some o => exact ⟨_, decide_of_override active⟩
    | none =>
      rw [decide_of_automatic active, automatic]
      cases breach : isBreach c t g with
      | true => exact ⟨_, rfl⟩
      | false =>
        cases memory : h.lastBreach with
        | none => exact ⟨_, rfl⟩
        | some last =>
          obtain ⟨cooldown, same⟩ := span active breach (by simp [memory])
          simp only [settle, same]
          exact ⟨_, rfl⟩

end Hysteresis

/-- What moderate readings leave a memory of, they can breach. -/
theorem Reachable.canBreach (reached : Reachable s Ordinary st) {last : Instant}
    (memory : st.hysteresis.lastBreach = some last) : s.fanControl.CanBreach := by
  induction reached with
  | start => cases memory
  | request reached step ih => exact ih memory
  | @commit st reached cpu gpu now fits ih =>
    obtain ⟨_, _, h, -, -, decision, committed⟩ | ⟨st', e, committed, same⟩ :=
      State.commit_cases st s cpu gpu now
    · rw [committed] at memory
      obtain ⟨o, -, rfl⟩ | ⟨speed, -, -, rfl⟩ := Hysteresis.decide_cases decision
      · exact ih memory
      · simp only [State.decided, Hysteresis.commit_lastBreach] at memory
        split at memory
        · next breach =>
          have cpuBelow := fits.cpu.2
          have gpuBelow := fits.gpu.2
          rw [isBreach_iff] at breach
          rw [FanControl.CanBreach]
          omega
        · exact ih memory
    · rw [committed, same.breach] at memory
      exact ih memory

namespace State

/-- Within the bounds a commit comes to its end. -/
theorem commit_succeeds (endurable : s.Endurable) (reached : Reachable s Ordinary st)
    (fits : Ordinary cpu gpu now) :
    ∃ st' report, st.commit s cpu gpu now = (st', .ok report) := by
  obtain ⟨firstSecond, firstCommon, lastCommon, lastSecond⟩ := Instant.bounds
  have low := endurable.retention_le
  have high := endurable.le_retention
  have first := fits.now.first
  have last := fits.now.last
  have kept : s.monitoring.effectiveRetention = .ok ⟨s.monitoring.retentionSeconds * 1000000000⟩ := by
    apply s.monitoring.effectiveRetention_eq
    · rw [Span.maxSeconds]
      omega
    · rw [Span.maxSeconds]
      omega
  obtain ⟨cutoff, cut⟩ :=
    (Instant.sub_seconds_iff fits.now.nano s.monitoring.retentionSeconds).mpr (by omega)
  obtain ⟨h, decision⟩ : ∃ h, st.hysteresis.decide s.fanControl (st.registry.evict now) cpu.max
      gpu.max now = .ok h := by
    refine Hysteresis.decide_ok_iff.mpr fun _ _ remembered => ?_
    obtain ⟨last, memory⟩ := Option.ne_none_iff_exists'.mp remembered
    exact (Span.ofSeconds_iff _).mpr (endurable.cooldown (reached.canBreach memory))
  exact ⟨_, _, by rw [commit_eq kept cut, decision]⟩

/-- A commit without an override that comes to its end keeps its own time of a breach, and in a calm
it has needed the cooldown. -/
theorem breach_of_commit {st' : State} {report : Report} (free : st.registry.override = none)
    (committed : st.commit s cpu gpu now = (st', .ok report)) :
    st'.registry.override = none ∧
      (isBreach s.fanControl cpu.max gpu.max = true → st'.hysteresis.lastBreach = some now) ∧
      (isBreach s.fanControl cpu.max gpu.max = false → st.hysteresis.lastBreach ≠ none →
        ∃ cooldown, s.fanControl.effectiveCooldown = .ok cooldown) := by
  obtain ⟨retention, cutoff, h, -, -, decision, run⟩ | ⟨st', e, broken, -⟩ :=
    commit_cases st s cpu gpu now
  · have evicted : (st.registry.evict now).override = none := by
      simp only [Registry.evict, Registry.activeOverride, free, Option.filter_none]
    have inactive : (st.registry.evict now).activeOverride now = none := by
      simp only [Registry.activeOverride, evicted, Option.filter_none]
    cases run.symm.trans committed
    refine ⟨evicted, ?_, ?_⟩
    · intro breach
      obtain ⟨o, active, -⟩ | ⟨speed, -, -, rfl⟩ := Hysteresis.decide_cases decision
      · rw [inactive] at active
        cases active
      · simp only [decided, Hysteresis.commit_lastBreach, breach, ↓reduceIte]
    · intro calm remembered
      obtain ⟨last, memory⟩ := Option.ne_none_iff_exists'.mp remembered
      exact Hysteresis.span_of_decide inactive calm memory decision
  · rw [broken] at committed
    cases committed

/-- A commit that comes to its end has taken the retention off its time. -/
theorem retention_of_commit {st' : State} {report : Report} (shown : now.nano < 1000000000)
    (committed : st.commit s cpu gpu now = (st', .ok report)) :
    Instant.firstSecond ≤ now.second - s.monitoring.retentionSeconds ∧
      now.second - s.monitoring.retentionSeconds ≤ Instant.lastSecond := by
  obtain ⟨retention, cutoff, h, kept, cut, -⟩ | ⟨st', e, broken, -⟩ :=
    commit_cases st s cpu gpu now
  · refine (Instant.sub_seconds_iff shown _).mp ⟨cutoff, ?_⟩
    obtain rfl := Span.eq_of_ofSeconds kept
    exact cut
  · rw [broken] at committed
    cases committed

end State

/-! ## Cycles and loops -/

/-- Surroundings whose clock shows common times and whose sensors, when they answer, read moderate
temperatures. Commands may end in any way. -/
structure Host.Ordinary {σ : Type} (host : Host σ) : Prop where
  now : ∀ w, ∃ t, host.now w = .ok t ∧ t.IsCommon
  readCpu : ∀ hints w reading, (host.readCpu hints w).1 = .ok reading → Moderate reading.max
  readGpu : ∀ hints w reading, (host.readGpu hints w).1 = .ok reading → Moderate reading.max

theorem moderate_zero : Moderate 0 :=
  ⟨by decide, by decide⟩

section Loops

variable {σ : Type} {host : Host σ} {c : Controller} {w : σ} {number : Nat}

theorem Host.Ordinary.sense (ordinary : host.Ordinary) (hints : Nat) (w : σ) :
    Moderate (host.sense hints w).1.1.max ∧ Moderate (host.sense hints w).1.2.max := by
  have cpu := ordinary.readCpu hints w
  have gpu := ordinary.readGpu hints (host.readCpu hints w).2
  rw [Host.sense]
  generalize host.readCpu hints w = answer at cpu gpu ⊢
  obtain ⟨outcome, w⟩ := answer
  cases outcome with
  | crashed => exact ⟨moderate_zero, moderate_zero⟩
  | failed =>
    dsimp only at gpu ⊢
    generalize host.readGpu hints w = answer at gpu ⊢
    obtain ⟨outcome, w⟩ := answer
    cases outcome with
    | ok device => exact ⟨moderate_zero, gpu device rfl⟩
    | failed | crashed => exact ⟨moderate_zero, moderate_zero⟩
  | ok reading =>
    dsimp only at gpu ⊢
    generalize host.readGpu hints w = answer at gpu ⊢
    obtain ⟨outcome, w⟩ := answer
    cases outcome with
    | ok device => exact ⟨cpu reading rfl, gpu device rfl⟩
    | failed => exact ⟨cpu reading rfl, moderate_zero⟩
    | crashed => exact ⟨moderate_zero, moderate_zero⟩

theorem Host.Ordinary.allows (ordinary : host.Ordinary) : host.Allows Control.Ordinary := by
  intro hints w now shown
  obtain ⟨cpu, gpu⟩ := ordinary.sense hints w
  obtain ⟨t, shown', common⟩ := ordinary.now (host.sense hints w).2
  rw [shown] at shown'
  cases shown'
  exact ⟨cpu, gpu, common⟩

namespace Controller

/-- Within the bounds a cycle gives its report. -/
theorem runCycle_succeeds (endurable : s.Endurable) (ordinary : host.Ordinary)
    (reached : Reachable s Ordinary c.state) (w : σ) :
    ∃ report, (c.runCycle host s w).1 = some report := by
  rw [runCycle, cycle_eq]
  obtain ⟨first, shown, -⟩ := ordinary.now w
  rw [shown]
  dsimp only
  generalize (c.state.registry.liveHints first).length = hints
  obtain ⟨now, shown, -⟩ := ordinary.now (host.sense hints w).2
  obtain ⟨st', report, committed⟩ :=
    State.commit_succeeds endurable reached (ordinary.allows hints w now shown)
  rw [shown]
  dsimp only
  rw [committed]
  exact ⟨report, rfl⟩

/-- The controller runs since the start of this number, and a loop of that start waits. -/
structure Waits (c : Controller) (number : Nat) : Prop where
  running : c.running = true
  starts : c.starts = number
  waiting : ∃ l ∈ c.loops, l.number = number

theorem Waits.wants (waits : c.Waits number) {l : Loop} (same : l.number = number) :
    c.wants l = true := by
  simp only [Controller.wants, waits.running, waits.starts, same, Bool.true_and, beq_self_eq_true]

theorem wake_waits (waits : c.Waits number) : c.wake.Waits number := by
  rw [wake]
  split
  · next first rest _ loops =>
    refine ⟨waits.running, waits.starts, ?_⟩
    obtain ⟨l, member, same⟩ := waits.waiting
    rw [loops] at member
    dsimp only
    split
    · exact ⟨l, member, same⟩
    · next unwanted =>
      rcases List.mem_cons.mp member with rfl | later
      · exact absurd (waits.wants same) unwanted
      · exact ⟨l, later, same⟩
  · exact waits

/-- A start that succeeds leaves a loop of its number that waits. -/
theorem start_waits (started : (c.start host s w).1 = .started) :
    (c.start host s w).2.1.Waits (c.starts + 1) := by
  simp only [start, runCycle] at started ⊢
  split at started
  · cases started
  · next idle =>
    rw [if_neg idle]
    generalize cycle host s c.state (host.perform .enableManual w).2 = p at started ⊢
    cases came : p.phase.report? with
    | none =>
      rw [came] at started
      cases started
    | some report =>
      rw [came] at started
      dsimp only at started ⊢
      split at started
      · next inTime =>
        rw [if_pos inTime]
        exact wake_waits ⟨rfl, rfl, _, List.mem_append_right _ (List.mem_singleton_self _), rfl⟩
      · cases started

/-- A controller that does not run is started once its first cycle has given its report, and a tick
can be waited for. -/
theorem start_started (idle : c.running = false)
    (reports : ∀ w, ∃ report, (c.runCycle host s w).1 = some report) (w : σ) :
    (c.start host s w).1 = .started ↔ c.timer + s.monitoring.period ≤ lastTick := by
  obtain ⟨report, came⟩ := reports (host.perform .enableManual w).2
  simp only [start, runCycle] at came ⊢
  rw [if_neg (Bool.eq_false_iff.mp idle)]
  generalize cycle host s c.state (host.perform .enableManual w).2 = p at came ⊢
  rw [came]
  dsimp only
  split
  · next inTime => exact iff_of_true rfl inTime
  · next late => exact iff_of_false (by simp) late

/-- Within the bounds a start of a controller that does not run succeeds. -/
theorem start_succeeds (endurable : s.Endurable) (ordinary : host.Ordinary)
    (reached : Reachable s Ordinary c.state) (idle : c.running = false)
    (early : (c.timer : Int) ≤ Instant.lastCommon - Instant.firstCommon) (w : σ) :
    (c.start host s w).1 = .started := by
  have interval := endurable.interval
  refine (start_started idle (fun w => runCycle_succeeds endurable ordinary reached w) w).mpr ?_
  omega

theorem runCycle_running (host : Host σ) (s : Settings) (c : Controller) (w : σ) :
    (c.runCycle host s w).2.1.running = c.running ∧
      (c.runCycle host s w).2.1.starts = c.starts :=
  ⟨rfl, rfl⟩

theorem tick_running (host : Host σ) (s : Settings) (c : Controller) (l : Loop) (w : σ) :
    (c.tick host s l w).2.1.running = c.running ∧ (c.tick host s l w).2.1.starts = c.starts := by
  rw [tick]
  split
  · have kept := runCycle_running host s c w
    generalize c.runCycle host s w = cycle at kept ⊢
    obtain ⟨report, c', w'⟩ := cycle
    cases report <;> exact kept
  · exact ⟨rfl, rfl⟩

/-- Within the bounds a loop that is wanted goes on after its tick. -/
theorem tick_keeps (endurable : s.Endurable) (ordinary : host.Ordinary)
    (reached : Reachable s Ordinary c.state) {l : Loop} (wanted : c.wants l = true) (w : σ) :
    ∃ next, (c.tick host s l w).1 = some next ∧ next.number = l.number := by
  obtain ⟨report, came⟩ := runCycle_succeeds endurable ordinary reached w
  rw [tick, if_pos wanted]
  generalize c.runCycle host s w = cycle at came ⊢
  obtain ⟨result, c', w'⟩ := cycle
  cases came
  exact ⟨_, rfl, rfl⟩

theorem attend_running (host : Host σ) (s : Settings) (c : Controller) (l : Loop) (w : σ) :
    (c.attend host s l w).2.1.running = c.running ∧
      (c.attend host s l w).2.1.starts = c.starts := by
  rw [attend]
  split
  · exact tick_running host s c l w
  · exact ⟨rfl, rfl⟩

theorem ticks_running (host : Host σ) (s : Settings) (loops : List Loop) (c : Controller) (w : σ) :
    (ticks host s loops c w).2.1.running = c.running ∧
      (ticks host s loops c w).2.1.starts = c.starts := by
  induction loops generalizing c w with
  | nil => exact ⟨rfl, rfl⟩
  | cons l rest ih =>
    rw [ticks_cons]
    have first := attend_running host s c l w
    have others := ih (c.attend host s l w).2.1 (c.attend host s l w).2.2
    exact ⟨others.1.trans first.1, others.2.trans first.2⟩

/-- Within the bounds a loop that is wanted is left after the ticks. -/
theorem ticks_keep (endurable : s.Endurable) (ordinary : host.Ordinary) {loops : List Loop}
    {l : Loop} (member : l ∈ loops) (wanted : c.wants l = true)
    (reached : Reachable s Ordinary c.state) (w : σ) :
    ∃ next ∈ (ticks host s loops c w).1, next.number = l.number := by
  induction loops generalizing c w with
  | nil => cases member
  | cons first rest ih =>
    rw [ticks_cons]
    dsimp only
    rcases List.mem_cons.mp member with rfl | later
    · obtain ⟨next, kept, same⟩ : ∃ next, (c.attend host s l w).1 = some next ∧
          next.number = l.number := by
        rw [attend]
        split
        · exact tick_keeps endurable ordinary reached wanted w
        · exact ⟨l, rfl, rfl⟩
      exact ⟨next, List.mem_append_left _ (Option.mem_toList.mpr kept), same⟩
    · have stays := attend_running host s c first w
      have wanted : (c.attend host s first w).2.1.wants l = true := by
        rwa [wants, stays.1, stays.2]
      have reached := attend_lasting (w := w) (Plant.lasting_reachable ordinary.allows) reached first
      obtain ⟨next, kept, same⟩ := ih later wanted reached _
      exact ⟨next, List.mem_append_right _ kept, same⟩

theorem second_waits (endurable : s.Endurable) (ordinary : host.Ordinary)
    (reached : Reachable s Ordinary c.state) (waits : c.Waits number) (w : σ) :
    (c.second host s w).1.Waits number := by
  obtain ⟨l, member, same⟩ := waits.waiting
  have stays := ticks_running host s c.loops { c with timer := c.timer + 1 } w
  obtain ⟨next, kept, number⟩ := ticks_keep (c := { c with timer := c.timer + 1 })
    endurable ordinary member (waits.wants same) reached w
  exact ⟨stays.1.trans waits.running, stays.2.trans waits.starts, next, kept, number.trans same⟩

end Controller

namespace Plant

variable {p : Plant σ}

theorem request_waits (waits : p.controller.Waits number) {operation : Operation σ}
    (isRequest : operation.isRequest = true) :
    (p.after host s operation).controller.Waits number := by
  obtain same | ⟨registry, -, run⟩ := after_request host s p isRequest
  · rwa [same]
  · rw [run]
    exact ⟨waits.running, waits.starts, waits.waiting⟩

/-- Within the bounds only a stop ends the wait of a loop. -/
theorem after_waits (endurable : s.Endurable) (ordinary : host.Ordinary)
    (reached : Reachable s Control.Ordinary p.controller.state) (waits : p.controller.Waits number)
    {operation : Operation σ} (goesOn : operation ≠ .stop) :
    (p.after host s operation).controller.Waits number := by
  cases operation with
  | runCycle => exact ⟨waits.running, waits.starts, waits.waiting⟩
  | start =>
    rw [after, Controller.start, if_pos waits.running]
    exact waits
  | stop => exact absurd rfl goesOn
  | second => exact Controller.second_waits endurable ordinary reached waits p.world
  | turn change => exact waits
  | addHint | removeHint | setOverride | clearOverride => exact request_waits waits rfl

theorem run_waits (endurable : s.Endurable) (ordinary : host.Ordinary)
    (reached : Reachable s Control.Ordinary p.controller.state) (waits : p.controller.Waits number)
    {operations : List (Operation σ)} (goesOn : .stop ∉ operations) :
    (p.run host s operations).controller.Waits number := by
  induction operations generalizing p with
  | nil => exact waits
  | cons operation rest ih =>
    rw [List.mem_cons, not_or] at goesOn
    refine ih ?_ ?_ goesOn.2
    · exact run_reachable ordinary.allows [operation] reached
    · exact after_waits endurable ordinary reached waits (Ne.symm goesOn.1)

end Plant

end Loops

/-! ## The exact bounds -/

/-- In ordinary surroundings every cycle gives its report, and every start of a controller that does
not run begins a loop, which waits for its next tick through all operations but a stop. The timer
has counted no more seconds than there are common times. -/
structure Endures (s : Settings) : Prop where
  reports : ∀ {σ : Type} {host : Host σ} {c : Controller} (w : σ), host.Ordinary →
    Reachable s Ordinary c.state → ∃ report, (c.runCycle host s w).1 = some report
  loops : ∀ {σ : Type} {host : Host σ} {p : Plant σ} {operations : List (Operation σ)},
    host.Ordinary → Reachable s Ordinary p.controller.state → p.controller.running = false →
    (p.controller.timer : Int) ≤ Instant.lastCommon - Instant.firstCommon → .stop ∉ operations →
    (p.controller.start host s p.world).1 = .started ∧
      (p.run host s (.start :: operations)).controller.Waits (p.controller.starts + 1)

theorem still_ordinary (fits : Ordinary cpu gpu now) : (Host.still now cpu gpu).Ordinary where
  now _ := ⟨now, rfl, fits.now⟩
  readCpu := by
    rintro _ _ _ ⟨⟩
    exact fits.cpu
  readGpu := by
    rintro _ _ _ ⟨⟩
    exact fits.gpu

/-- Where nothing stops a loop, every commit comes to its end. -/
theorem Endures.commit (endures : Endures s) (reached : Reachable s Ordinary st)
    (fits : Ordinary cpu gpu now) :
    ∃ st' report, st.commit s cpu gpu now = (st', .ok report) := by
  obtain ⟨report, came⟩ := endures.reports (c := { Controller.new s with state := st }) ()
    (still_ordinary fits) reached
  rw [Controller.runCycle, cycle_eq] at came
  simp only [Host.still, Host.sense] at came
  generalize st.commit s cpu gpu now = committed at came ⊢
  obtain ⟨st', result⟩ := committed
  cases result with
  | error e => cases came
  | ok report => exact ⟨st', report, rfl⟩

/-- A graphics card at a temperature. -/
def gpuAt (temperature : Int32) : GpuReading :=
  .ofDevices [⟨0, "", temperature, 0, 0, 0, 0⟩]

theorem ordinary_at {temperature : Int32} (moderate : Moderate temperature) {t : Instant}
    (common : t.IsCommon) : Ordinary (.ofTemps [temperature]) (gpuAt temperature) t :=
  ⟨moderate, moderate, common⟩

/-- Where every start begins a loop, so does the latest one. -/
theorem Endures.interval (endures : Endures s) :
    (Instant.lastCommon - Instant.firstCommon) + s.monitoring.period ≤ lastTick := by
  obtain ⟨-, firstCommon, lastCommon, -⟩ := Instant.bounds
  let first : Instant := ⟨Instant.firstCommon, 0, by decide⟩
  have firstIs : first.IsCommon := ⟨by decide, by decide, by decide⟩
  have ordinary : (Host.still first .empty .empty).Ordinary :=
    still_ordinary ⟨moderate_zero, moderate_zero, firstIs⟩
  let late : Controller :=
    { Controller.new s with timer := (Instant.lastCommon - Instant.firstCommon).toNat }
  have positive : 0 ≤ Instant.lastCommon - Instant.firstCommon := by omega
  have latest : (late.timer : Int) = Instant.lastCommon - Instant.firstCommon :=
    Int.toNat_of_nonneg positive
  have reports : ∀ w, ∃ report, (late.runCycle _ s w).1 = some report := fun w =>
    endures.reports w ordinary .start
  obtain ⟨started, -⟩ := endures.loops (p := ⟨late, (), []⟩) ordinary .start
    rfl (Int.le_of_eq latest) List.not_mem_nil
  have inTime := (Controller.start_started rfl reports ()).mp started
  omega

/-- The greatest interval passes the check, and no tick after so long a time can be waited for. -/
example :
    let monitoring := { Monitoring.default with interval := 18446744073709551615 }
    let s := { Settings.default with monitoring }
    s.check = .ok () ∧ ¬ Endures s :=
  ⟨rfl, fun endures => absurd endures.interval (by decide)⟩

theorem Endures.endurable (endures : Endures s) (cpu : Moderate s.fanControl.effectiveCpuThreshold)
    (gpu : Moderate s.fanControl.effectiveGpuThreshold) : s.Endurable := by
  obtain ⟨firstSecond, firstCommon, lastCommon, lastSecond⟩ := Instant.bounds
  let first : Instant := ⟨Instant.firstCommon, 0, by decide⟩
  let last : Instant := ⟨Instant.lastCommon, 0, by decide⟩
  have firstIs : first.IsCommon := ⟨by decide, by decide, by decide⟩
  have lastIs : last.IsCommon := ⟨by decide, by decide, by decide⟩
  have hot : Moderate 1000 := ⟨by decide, by decide⟩
  have cold : Moderate (-1000) := ⟨by decide, by decide⟩
  -- The bounds of the retention come from the two ends of the common times.
  obtain ⟨st, report, committed⟩ := endures.commit .start (ordinary_at hot firstIs)
  obtain ⟨_, _, committedLast⟩ := endures.commit .start (ordinary_at hot lastIs)
  have low : Instant.firstSecond ≤ Instant.firstCommon - s.monitoring.retentionSeconds :=
    (State.retention_of_commit firstIs.nano committed).1
  have high : Instant.lastCommon - s.monitoring.retentionSeconds ≤ Instant.lastSecond :=
    (State.retention_of_commit lastIs.nano committedLast).2
  refine ⟨by omega, by omega, fun canBreach => ?_, endures.interval⟩
  -- The bounds of the cooldown come from a calm after a breach.
  have breach : isBreach s.fanControl 1000 1000 = true := by
    rw [isBreach_iff]
    exact canBreach
  have calm : isBreach s.fanControl (-1000) (-1000) = false := by
    have coldest : (-1000 : Int32).toInt = -1000 := by decide
    rw [← Bool.not_eq_true, isBreach_iff, coldest]
    exact not_or.mpr ⟨Int.not_lt.mpr cpu.1, Int.not_lt.mpr gpu.1⟩
  obtain ⟨free, remembers, -⟩ := State.breach_of_commit rfl committed
  have reached := Reachable.commit .start (s := s) (ordinary_at hot firstIs)
  rw [committed] at reached
  obtain ⟨_, _, committedCalm⟩ := endures.commit reached (ordinary_at cold firstIs)
  obtain ⟨-, -, needs⟩ := State.breach_of_commit free committedCalm
  exact (Span.ofSeconds_iff _).mp (needs calm (by rw [remembers breach]; nofun))

/-- Settings whose thresholds are moderate let nothing stop a loop exactly when they keep the
bounds. -/
theorem endures_iff (s : Settings) (cpu : Moderate s.fanControl.effectiveCpuThreshold)
    (gpu : Moderate s.fanControl.effectiveGpuThreshold) : Endures s ↔ s.Endurable := by
  constructor
  · exact fun endures => endures.endurable cpu gpu
  · intro endurable
    exact {
      reports := fun w ordinary reached =>
        Controller.runCycle_succeeds endurable ordinary reached w
      loops := fun ordinary reached idle early goesOn =>
        have started := Controller.start_succeeds endurable ordinary reached idle early _
        ⟨started, Plant.run_waits endurable ordinary
          (Plant.run_reachable ordinary.allows [.start] reached)
          (Controller.start_waits started) goesOn⟩ }

/-- Nothing stops a loop under the default settings. -/
theorem default_endures : Moderate Settings.default.fanControl.effectiveCpuThreshold ∧
    Moderate Settings.default.fanControl.effectiveGpuThreshold ∧ Endures .default := by
  have cpu : Moderate Settings.default.fanControl.effectiveCpuThreshold := ⟨by decide, by decide⟩
  have gpu : Moderate Settings.default.fanControl.effectiveGpuThreshold := ⟨by decide, by decide⟩
  refine ⟨cpu, gpu, (endures_iff .default cpu gpu).mpr ?_⟩
  exact ⟨by decide, by decide, fun _ => ⟨by decide, by decide⟩, by decide⟩

/-- The greatest retention that is a signed number passes the check, and already the first cycle
gives no report. -/
theorem accepted_retention_stops_loop :
    let monitoring := { Monitoring.default with retention := 9223372036854775807 }
    let s := { Settings.default with monitoring }
    let host := Host.still (.ofMillis 1748764800000) (.ofTemps [40]) .empty
    s.check = .ok () ∧ ((Controller.new s).runCycle host s ()).1 = none ∧ ¬ Endures s := by
  intro monitoring s host
  have common : (Instant.ofMillis 1748764800000).IsCommon := ⟨by decide, by decide, by decide⟩
  have broken : ((Controller.new s).runCycle host s ()).1 = none := rfl
  refine ⟨rfl, broken, fun endures => ?_⟩
  have ordinary : host.Ordinary :=
    still_ordinary ⟨⟨by decide, by decide⟩, moderate_zero, common⟩
  obtain ⟨report, came⟩ := endures.reports (c := Controller.new s) () ordinary .start
  rw [broken] at came
  cases came

end Control

end ChassisCooling
