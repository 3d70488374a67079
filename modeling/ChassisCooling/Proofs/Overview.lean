import ChassisCooling.Proofs.Answers
import ChassisCooling.Proofs.Floors
import ChassisCooling.Proofs.Indifference

/-! # One picture of the controller

The hints that a status shows, its override and its mode, the number of live hints that the sensors
are told, the floor of the hints, the eviction and the decision all look at one registry, each in its
own way. At any one time they see the same: the hints and the override whose end does not lie behind.
-/

namespace ChassisCooling

open Calendar

theorem FanControl.clamp_mono (c : FanControl) {slow fast : UInt8} (order : slow ≤ fast) :
    c.clamp slow ≤ c.clamp fast := by
  rw [UInt8.le_iff_toNat_le] at order ⊢
  simp only [toNat_clamp]
  omega

namespace Control

/-! ## What is registered -/

namespace Registry

variable {s : Settings} {r : Registry} {now t : Instant}

/-- Every hint has the floor of its intensity. -/
def FloorsFit (r : Registry) : Prop :=
  ∀ h ∈ r.hints, h.floor = (Intensity.ofLabel h.intensity).floor

theorem floor_of_hintOf {request : HintRequest} {h : Hint} (made : hintOf request t = .ok h) :
    h.floor = (Intensity.ofLabel h.intensity).floor := by
  obtain ⟨expires, -, fields⟩ := ok_of_bind made
  cases fields
  rfl

theorem FloorsFit.undergo (fit : r.FloorsFit) (ordered : AreOrdered r.hints) (event : Event) :
    (r.undergo s event).FloorsFit := by
  intro h among
  obtain before | ⟨request, t, -, made⟩ := mem_undergo s ordered among
  · exact fit h before
  · exact floor_of_hintOf made

theorem FloorsFit.undergoAll (fit : r.FloorsFit) (ordered : AreOrdered r.hints)
    (events : List Event) : (r.undergoAll s events).FloorsFit := by
  induction events generalizing r with
  | nil => exact fit
  | cons event rest ih => exact ih (fit.undergo ordered event) (undergo_ordered s ordered event)

/-- The mode is told by whether an override is active and whether a hint is live. -/
theorem mode_iff (r : Registry) (now : Instant) :
    (r.mode now = .override ↔ ∃ o, r.activeOverride now = some o) ∧
      (r.mode now = .hinted ↔ r.activeOverride now = none ∧ r.liveHints now ≠ []) ∧
      (r.mode now = .auto ↔ r.activeOverride now = none ∧ r.liveHints now = []) := by
  rw [mode]
  cases r.activeOverride now with
  | some o => simp
  | none => cases r.liveHints now <;> simp

/-- At its own time a cycle changes no answer of the registry. -/
theorem undergo_cycle_sameAnswers (s : Settings) (r : Registry) (cpu : CpuReading)
    (gpu : GpuReading) (now : Instant) :
    SameAnswers (r.undergo s (.cycle cpu gpu now)) r now := by
  rw [undergo]
  split
  · exact sameAnswers (evict_liveHints r (Int.le_refl _)) (evict_activeOverride r now)
  · exact sameAnswers rfl rfl

end Registry

/-! ## What a status shows -/

section Shown

variable {s : Settings} {st : State} {now : Instant} {status : Status}

theorem registry_of_status (shown : st.status s now = .ok status) :
    status.hints = st.registry.liveHints now ∧
      status.override = st.registry.activeOverride now ∧ status.mode = st.registry.mode now := by
  obtain ⟨cpuTrend, -, shown⟩ := ok_of_bind shown
  obtain ⟨gpuTrend, -, shown⟩ := ok_of_bind shown
  cases shown
  exact ⟨rfl, rfl, rfl⟩

/-- A status and a registry tell the same story at a time. -/
structure Tells (now : Instant) (r : Registry) (status : Status) : Prop where
  /-- The hints are in strictly ascending order of the bytes of their sources. -/
  ordered : AreOrdered status.hints
  sources : (status.hints.map Hint.source).Nodup
  live : ∀ h, h ∈ status.hints ↔ h ∈ r.hints ∧ h.isExpired now = false
  floors : ∀ h ∈ status.hints, h.floor = (Intensity.ofLabel h.intensity).floor
  override : ∀ o, status.override = some o ↔ r.override = some o ∧ o.isExpired now = false
  overridden : status.mode = .override ↔ ∃ o, status.override = some o
  hinted : status.mode = .hinted ↔ status.override = none ∧ status.hints ≠ []
  auto : status.mode = .auto ↔ status.override = none ∧ status.hints = []
  raised : ∀ floor, r.hintFloor now = some floor ↔ IsHighestFloor status.hints floor
  unraised : r.hintFloor now = none ↔ status.hints = []

theorem AreOrdered.nodup_sources {hints : List Hint} (ordered : AreOrdered hints) :
    (hints.map Hint.source).Nodup := by
  refine List.pairwise_map.mpr (ordered.imp fun {h h'} before same => ?_)
  rw [same, sourceBefore_irrefl] at before
  cases before

theorem Tells.of_status (ordered : AreOrdered st.registry.hints) (fit : st.registry.FloorsFit)
    (shown : st.status s now = .ok status) : Tells now st.registry status := by
  obtain ⟨hints, override, mode⟩ := registry_of_status shown
  have sorted : AreOrdered status.hints := by
    rw [hints]
    exact ordered.filter _
  have live : ∀ h, h ∈ status.hints ↔ h ∈ st.registry.hints ∧ h.isExpired now = false := by
    intro h
    rw [hints, Registry.mem_liveHints]
  obtain ⟨overridden, hinted, auto⟩ := st.registry.mode_iff now
  rw [← mode, ← override] at overridden
  rw [← mode, ← override, ← hints] at hinted auto
  refine {
    ordered := sorted
    sources := sorted.nodup_sources
    live
    floors := fun h among => fit h ((live h).mp among).1
    override := fun o => by rw [override, Registry.activeOverride_eq_some]
    overridden
    hinted
    auto
    raised := fun floor => by rw [hints, Registry.hintFloor_eq_some_iff]
    unraised := by rw [hints, Registry.hintFloor_eq_none_iff] }

theorem Tells.of_reachable (reached : Reachable s (fun _ _ _ => True) st)
    (shown : st.status s now = .ok status) : Tells now st.registry status := by
  obtain ⟨events, rfl⟩ := State.reachable_iff_course.mp reached
  have empty : AreOrdered (State.start s).registry.hints := .nil
  have fit : (State.start s).registry.FloorsFit := fun h among => absurd among List.not_mem_nil
  refine .of_status ?_ ?_ shown
  · rw [State.undergoAll_registry]
    exact Registry.undergoAll_ordered s empty events
  · rw [State.undergoAll_registry]
    exact fit.undergoAll empty events

end Shown

/-! ## What a cycle does at the time of a status -/

namespace State

variable {s : Settings} {st : State} {cpu : CpuReading} {gpu : GpuReading} {now : Instant}
  {report : Report}

/-- A commit reports the mode and the speed that the registry at its time calls for. -/
theorem report_of_commit (reported : (st.commit s cpu gpu now).2 = .ok report) :
    report.mode = st.registry.mode now ∧
      (∀ o, st.registry.activeOverride now = some o → report.speed = s.fanControl.clamp o.speed) ∧
      (st.registry.activeOverride now = none → ∀ h ∈ st.registry.liveHints now,
        s.fanControl.clamp h.floor ≤ report.speed) := by
  cases cut : s.monitoring.cutoff now with
  | error e =>
    rw [commit_result_of_no_cutoff cut] at reported
    cases reported
  | ok cutoff =>
    rw [commit_result cut] at reported
    obtain ⟨h, passed, rfl⟩ := ok_of_map reported
    have same := Registry.undergo_cycle_sameAnswers s st.registry cpu gpu now
    rw [Registry.undergo_cycle cut] at same
    refine ⟨same.mode, ?_, ?_⟩
    · intro o active
      obtain ⟨o', active', speed, -⟩ | ⟨_, free, -⟩ := Hysteresis.pass_cases passed
      · cases (same.override.symm.trans active').symm.trans active
        exact speed
      · cases (same.override.symm.trans free).symm.trans active
    · intro free hint live
      obtain ⟨o', active', -⟩ | ⟨speed, -, -, current, -⟩ := Hysteresis.pass_cases passed
      · cases (same.override.symm.trans active').symm.trans free
      · cases floor : st.registry.hintFloor now with
        | none =>
          rw [Registry.hintFloor_eq_none_iff.mp floor] at live
          cases live
        | some f =>
          have below := (Registry.hintFloor_eq_some_iff.mp floor).highest hint live
          have limited := UInt8.le_iff_toNat_le.mp (s.fanControl.clamp_mono below)
          change s.fanControl.clamp hint.floor ≤ h.currentSpeed
          rw [current, same.floor, floor, clamp_raiseTo, UInt8.le_iff_toNat_le, toNat_max]
          omega

/-- A commit comes to its report unless it cannot forget samples or cannot decide. -/
theorem commit_ok_iff : (∃ report, (st.commit s cpu gpu now).2 = .ok report) ↔
    (∃ cutoff, s.monitoring.cutoff now = .ok cutoff) ∧
      (st.registry.activeOverride now = none → isBreach s.fanControl cpu.max gpu.max = false →
        st.hysteresis.lastBreach ≠ none →
        ∃ cooldown, s.fanControl.effectiveCooldown = .ok cooldown) := by
  cases cut : s.monitoring.cutoff now with
  | error e =>
    refine iff_of_false ?_ (fun ⟨⟨_, reached⟩, _⟩ => nomatch reached)
    rintro ⟨report, reported⟩
    rw [commit_result_of_no_cutoff cut] at reported
    cases reported
  | ok cutoff =>
    rw [← Registry.evict_activeOverride, ← Hysteresis.decide_ok_iff, commit_of_cutoff cut]
    cases st.hysteresis.decide s.fanControl (st.registry.evict now) cpu.max gpu.max now with
    | error e => exact iff_of_false nofun nofun
    | ok d => exact iff_of_true ⟨_, rfl⟩ ⟨⟨_, rfl⟩, _, rfl⟩

end State

section Cycles

variable {σ : Type} {host : Host σ} {s : Settings} {st : State} {w : σ} {now : Instant}
  {status : Status}

theorem sense_logged_eq (host : Host σ) (hints : Nat) (calls : List Call) (w : σ) :
    host.logged.sense hints (calls, w) =
      ((host.sense hints w).1, host.readCalls hints w ++ calls, (host.sense hints w).2) := by
  rw [Host.sense_eq, Host.reads_logged, Host.sense_eq]

/-- A cycle at one time tells the sensors the number of hints that are live then, commits what they
read, and carries out its report, if there is one. -/
theorem cycle_logged_at (s : Settings) {hints : Nat}
    (count : (st.registry.liveHints now).length = hints) (clock : host.now w = .ok now)
    (clock' : host.now (host.sense hints w).2 = .ok now) :
    let committed := st.commit s (host.sense hints w).1.1 (host.sense hints w).1.2 now
    let p := cycle host.logged s st ([], w)
    p.state = committed.1 ∧
      (∀ report, p.phase.report? = some report ↔ committed.2 = .ok report) ∧
      p.world.1 =
        (p.phase.report?.map host.conclusion).getD [] ++ host.readCalls hints w := by
  subst count
  have first : host.logged.now ([], w) = .ok now := clock
  have second (calls : List Call) :
      host.logged.now (calls, (host.sense (st.registry.liveHints now).length w).2) = .ok now :=
    clock'
  rw [cycle_eq]
  simp only [first, sense_logged_eq, second, List.append_nil]
  obtain ⟨next, _ | report⟩ := st.commit s
    (host.sense (st.registry.liveHints now).length w).1.1
    (host.sense (st.registry.liveHints now).length w).1.2 now
  · exact ⟨rfl, fun _ => iff_of_false nofun nofun, rfl⟩
  · refine ⟨rfl, fun other => ?_, carryOut_logged host _ _ report⟩
    rw [Phase.report?, Option.some.injEq, Except.ok.injEq]

/-- A cycle keeps to a status: what the sensors are told, what is commanded and reported, and what a
status shows afterwards. -/
structure KeepsTo (host : Host σ) (s : Settings) (w : σ) (now : Instant) (status : Status)
    (p : Progress (List Call × σ)) : Prop where
  /-- The sensors are told the number of hints, and after the report there are its commands. -/
  calls : p.world.1 =
    (p.phase.report?.map host.conclusion).getD [] ++ host.readCalls status.hints.length w
  after : ∃ later, p.state.status s now = .ok later ∧ later.hints = status.hints ∧
    later.override = status.override ∧ later.mode = status.mode
  mode : ∀ report, p.phase.report? = some report → report.mode = status.mode
  overridden : ∀ report, p.phase.report? = some report → ∀ o, status.override = some o →
    report.speed = s.fanControl.clamp o.speed
  raised : ∀ report, p.phase.report? = some report → status.override = none →
    ∀ h ∈ status.hints, s.fanControl.clamp h.floor ≤ report.speed

theorem keepsTo_of_status (shown : st.status s now = .ok status) (clock : host.now w = .ok now)
    (clock' : host.now (host.sense status.hints.length w).2 = .ok now) :
    KeepsTo host s w now status (cycle host.logged s st ([], w)) := by
  obtain ⟨hints, override, mode⟩ := registry_of_status shown
  obtain ⟨left, reported, calls⟩ :=
    cycle_logged_at s (congrArg List.length hints.symm) clock clock'
  have same := Registry.undergo_cycle_sameAnswers s st.registry
    (host.sense status.hints.length w).1.1 (host.sense status.hints.length w).1.2 now
  rw [← State.undergo_registry] at same
  have report r (came : (cycle host.logged s st ([], w)).phase.report? = some r) :=
    State.report_of_commit ((reported r).mp came)
  refine ⟨calls, ?_, fun r came => ?_, fun r came => ?_, fun r came => ?_⟩
  · rw [left]
    obtain ⟨later, shown'⟩ := (Server.status_ok_iff
      (st.undergo s (.cycle (host.sense status.hints.length w).1.1
        (host.sense status.hints.length w).1.2 now)) s now).mpr
      ((Server.status_ok_iff st s now).mp ⟨status, shown⟩)
    obtain ⟨hints', override', mode'⟩ := registry_of_status shown'
    refine ⟨later, shown', ?_, ?_, ?_⟩
    · rw [hints', same.hints, hints]
    · rw [override', same.override, override]
    · rw [mode', same.mode, mode]
  · rw [mode]
    exact (report r came).1
  · rw [override]
    exact (report r came).2.1
  · rw [override, hints]
    exact (report r came).2.2

end Cycles

/-- Of every state that can be reached there is a status at every time from which the calendar
reaches back by a minute. It shows the live hints in strictly ascending order of their sources, each
with the floor of its intensity, and the mode that the override and the hints make up; the sensors
are told the number of these hints, and the floor of the registry is the highest of theirs. A cycle at
the same time changes nothing of it, reports this mode, and commands the speed of the override or one
that is no lower than any of the floors. -/
theorem status_tells_one_story {s : Settings} {st : State}
    (reached : Reachable s (fun _ _ _ => True) st) (now : Instant) :
    ((∃ status, st.status s now = .ok status) ↔
      ∃ cutoff, now.sub Samples.trendWindow = .ok cutoff) ∧
    ∀ status, st.status s now = .ok status →
      Tells now st.registry status ∧
      ∀ (σ : Type) (host : Host σ) (w : σ), host.now w = .ok now →
        host.now (host.sense status.hints.length w).2 = .ok now →
        let sensed := (host.sense status.hints.length w).1
        let p := cycle host.logged s st ([], w)
        KeepsTo host s w now status p ∧
        ((∃ report, p.phase.report? = some report) ↔
          (∃ cutoff, s.monitoring.cutoff now = .ok cutoff) ∧
          (status.override = none → isBreach s.fanControl sensed.1.max sensed.2.max = false →
            st.hysteresis.lastBreach ≠ none →
            ∃ cooldown, s.fanControl.effectiveCooldown = .ok cooldown)) := by
  refine ⟨Server.status_ok_iff st s now, fun status shown => ⟨.of_reachable reached shown, ?_⟩⟩
  intro σ host w clock clock' sensed p
  refine ⟨keepsTo_of_status shown clock clock', ?_⟩
  obtain ⟨hints, override, -⟩ := registry_of_status shown
  obtain ⟨-, reported, -⟩ := cycle_logged_at s (congrArg List.length hints.symm) clock clock'
  rw [override, ← State.commit_ok_iff]
  exact exists_congr reported

/-- After two requests for hints and a cycle. -/
def busyState : State :=
  (State.start .default).undergoAll .default
    [.addHint ⟨"train", "start", "low", "lab", ⟨0⟩⟩ (.ofMillis 0),
      .addHint briefHint (.ofMillis 0),
      .cycle (.ofTemps [80]) .empty (.ofMillis 10000)]

/-- At the very end of the brief hint it is still shown, counted and kept to. -/
theorem busy_state_at_expiry :
    let now : Instant := .ofMillis 60000
    let host := Host.still now (.ofTemps [40]) .empty
    Reachable .default (fun _ _ _ => True) busyState ∧
    ∃ status report, busyState.status .default now = .ok status ∧
      Tells now busyState.registry status ∧ status.hints.map Hint.source = ["job", "lab"] ∧
      (cycle host.logged .default busyState ([], ())).phase.report? = some report ∧
      report.mode = .hinted ∧ 45 ≤ report.speed := by
  intro now host
  have reached : Reachable .default (fun _ _ _ => True) busyState :=
    State.undergoAll_reachable .start _
  obtain ⟨exists_iff, tells⟩ := status_tells_one_story reached (.ofMillis 60000)
  obtain ⟨status, shown⟩ := exists_iff.mpr ⟨_, rfl⟩
  obtain ⟨told, cycles⟩ := tells status shown
  obtain ⟨hints, override, mode⟩ := registry_of_status shown
  obtain ⟨keeps, reports⟩ := cycles Unit host () rfl rfl
  obtain ⟨report, came⟩ := reports.mpr ⟨⟨_, rfl⟩, fun _ _ _ => ⟨_, rfl⟩⟩
  obtain ⟨⟨h, among, floor⟩, -⟩ := (told.raised 45).mp rfl
  refine ⟨reached, status, report, shown, told, hints ▸ rfl, came, ?_, ?_⟩
  · rw [keeps.mode report came, mode]
    rfl
  · have raised := keeps.raised report came (override.trans rfl) h among
    rwa [floor] at raised

end Control

end ChassisCooling
