import ChassisCooling.Proofs.Plant
import ChassisCooling.Sensors.Ipmi

/-! # One speed, and always a permitted one

The speed that is decided, commanded, kept in the history, reported and shown is one number in the
permitted range. The invariant ties the state of the controller to the calls that it has made: the
newest speed among the calls is the current one, and an entry of the history follows the command for
the same speed. It holds through cycles that break off and through collaborators that fail.
-/

namespace ChassisCooling.Control

open Calendar

/-! ## Commits -/

namespace State

variable {st st' : State} {s : Settings} {cpu : CpuReading} {gpu : GpuReading} {now : Instant}
  {report : Report}

/-- A commit that breaks off leaves the speeds alone. -/
theorem sameSpeeds_of_commit {e : OutOfCalendar}
    (committed : st.commit s cpu gpu now = (st', .error e)) : SameSpeeds st st' := by
  obtain ⟨retention, cutoff, h, -, -, -, decided⟩ | ⟨kept, e', broken, same⟩ :=
    commit_cases st s cpu gpu now
  · rw [decided] at committed
    cases committed
  · rw [broken] at committed
    cases committed
    exact same

/-- The report of a commit has the speed of the state, which is the target, within the limits. -/
theorem report_speed_of_commit (committed : st.commit s cpu gpu now = (st', .ok report)) :
    report.speed = st'.hysteresis.currentSpeed ∧
      st'.hysteresis.currentSpeed = st'.hysteresis.targetSpeed ∧
      ∃ speed, report.speed = s.fanControl.clamp speed := by
  obtain ⟨retention, cutoff, h, -, -, decision, decided⟩ | ⟨kept, e, broken, -⟩ :=
    commit_cases st s cpu gpu now
  · rw [decided] at committed
    cases committed
    exact ⟨rfl, rfl, (Hysteresis.decide_target decision).2⟩
  · rw [broken] at committed
    cases committed

end State

/-! ## Calls -/

/-- The speed that a call commands, or keeps in the history. -/
def Call.speed? : Call → Option UInt8
  | .perform (.setSpeed speed) => some speed
  | .perform (.record _ _ speed) => some speed
  | _ => none

/-- Every entry of the history comes right after the command for the same speed. The newest call
comes first. -/
def EntriesFollow : List Call → Prop
  | [] => True
  | .perform (.record _ _ speed) :: older =>
    older.head? = some (.perform (.setSpeed speed)) ∧ EntriesFollow older
  | _ :: older => EntriesFollow older

/-- The calls that follow a decision, newest first. -/
def Host.conclusion {σ : Type} (host : Host σ) (report : Report) : List Call :=
  if host.keepsHistory then
    [.perform (.record report.cpuMax report.gpuMax report.speed),
      .perform (.setSpeed report.speed)]
  else [.perform (.setSpeed report.speed)]

section Logged

variable {σ : Type} (host : Host σ) (calls : List Call) (w : σ)

theorem logged_readCpu (hints : Nat) : host.logged.readCpu hints (calls, w) =
    ((host.readCpu hints w).1, .readCpu hints :: calls, (host.readCpu hints w).2) := rfl

theorem logged_readGpu (hints : Nat) : host.logged.readGpu hints (calls, w) =
    ((host.readGpu hints w).1, .readGpu hints :: calls, (host.readGpu hints w).2) := rfl

theorem logged_perform (command : Command) : host.logged.perform command (calls, w) =
    ((host.perform command w).1, .perform command :: calls, (host.perform command w).2) := rfl

/-- Reading the sensors commands nothing. -/
theorem sense_logged (hints : Nat) :
    ∃ readings, (host.logged.sense hints (calls, w)).2.1 = readings ++ calls ∧
      ∀ call ∈ readings, call.speed? = none := by
  have both : ∀ call ∈ [Call.readGpu hints, Call.readCpu hints], call.speed? = none := by
    simp [Call.speed?]
  have alone : ∀ call ∈ [Call.readCpu hints], call.speed? = none := by
    simp [Call.speed?]
  rw [Host.sense, logged_readCpu]
  generalize (host.readCpu hints w).2 = next
  cases (host.readCpu hints w).1 with
  | crashed => exact ⟨[.readCpu hints], rfl, alone⟩
  | failed =>
    dsimp only
    rw [logged_readGpu]
    cases (host.readGpu hints next).1 <;> exact ⟨[.readGpu hints, .readCpu hints], rfl, both⟩
  | ok cpu =>
    dsimp only
    rw [logged_readGpu]
    cases (host.readGpu hints next).1 <;> exact ⟨[.readGpu hints, .readCpu hints], rfl, both⟩

theorem carryOut_logged (report : Report) :
    (host.logged.carryOut report (calls, w)).1 = host.conclusion report ++ calls := by
  have keeps : host.logged.keepsHistory = host.keepsHistory := rfl
  simp only [Host.carryOut, Host.conclusion, logged_perform, keeps]
  split <;> rfl

end Logged

/-! ## The invariant -/

/-- The controller and the calls that it has made agree on permitted speeds. -/
structure SpeedsInStep (c : FanControl) (st : State) (calls : List Call) : Prop where
  /-- The target is reached. -/
  settled : st.hysteresis.currentSpeed = st.hysteresis.targetSpeed
  permitted : c.Permits st.hysteresis.currentSpeed
  /-- Whatever was commanded or kept is permitted. -/
  commanded : ∀ call ∈ calls, ∀ speed, call.speed? = some speed → c.Permits speed
  /-- The last speed that was commanded or kept is the current one. -/
  latest : ∀ speed, calls.findSome? Call.speed? = some speed → speed = st.hysteresis.currentSpeed
  entries : EntriesFollow calls

namespace SpeedsInStep

variable {c : FanControl} {st st' : State} {calls : List Call}

/-- A call without a speed changes nothing. -/
theorem cons (inStep : SpeedsInStep c st calls) {call : Call} (silent : call.speed? = none) :
    SpeedsInStep c st (call :: calls) where
  settled := inStep.settled
  permitted := inStep.permitted
  commanded := by
    intro other member speed command
    rcases List.mem_cons.mp member with rfl | member
    · rw [silent] at command
      cases command
    · exact inStep.commanded other member speed command
  latest := by
    rw [List.findSome?_cons, silent]
    exact inStep.latest
  entries := by
    cases call with
    | readCpu | readGpu => exact inStep.entries
    | perform command =>
      cases command with
      | enableManual | restoreAuto => exact inStep.entries
      | setSpeed | record => cases silent

theorem append (inStep : SpeedsInStep c st calls) {readings : List Call}
    (silent : ∀ call ∈ readings, call.speed? = none) : SpeedsInStep c st (readings ++ calls) := by
  induction readings with
  | nil => exact inStep
  | cons call rest ih =>
    exact (ih fun other member => silent other (List.mem_cons_of_mem _ member)).cons
      (silent call (List.mem_cons_self ..))

theorem of_sameSpeeds (inStep : SpeedsInStep c st calls) (same : State.SameSpeeds st st') :
    SpeedsInStep c st' calls where
  settled := by rw [same.current, same.target, inStep.settled]
  permitted := same.current ▸ inStep.permitted
  commanded := inStep.commanded
  latest := same.current ▸ inStep.latest
  entries := inStep.entries

/-- The commands of a cycle bring the calls in step with the state that it committed. -/
theorem conclude {σ : Type} (inStep : SpeedsInStep c st calls) (host : Host σ) {report : Report}
    (speed : report.speed = st'.hysteresis.currentSpeed)
    (settled : st'.hysteresis.currentSpeed = st'.hysteresis.targetSpeed)
    (permitted : c.Permits report.speed) :
    SpeedsInStep c st' (host.conclusion report ++ calls) where
  settled := settled
  permitted := speed ▸ permitted
  commanded := by
    intro call member commanded command
    rcases List.mem_append.mp member with new | old
    · have same : commanded = report.speed := by
        rw [Host.conclusion] at new
        split at new
        · rcases List.mem_cons.mp new with rfl | new
          · exact (Option.some.inj command).symm
          · rw [List.mem_singleton.mp new] at command
            exact (Option.some.inj command).symm
        · rw [List.mem_singleton.mp new] at command
          exact (Option.some.inj command).symm
      exact same ▸ permitted
    · exact inStep.commanded call old commanded command
  latest := by
    intro latest found
    rw [← speed]
    rw [Host.conclusion] at found
    split at found <;> exact (Option.some.inj found).symm
  entries := by
    rw [Host.conclusion]
    split
    · exact ⟨rfl, inStep.entries⟩
    · exact inStep.entries

end SpeedsInStep

/-! ## Runs -/

/-- An operation on a plant whose calls are kept. The surroundings cannot change the calls. -/
def Operation.logged {σ : Type} : Operation σ → Operation (List Call × σ)
  | .runCycle => .runCycle
  | .start => .start
  | .stop => .stop
  | .second => .second
  | .addHint request => .addHint request
  | .removeHint source => .removeHint source
  | .setOverride speed duration reason => .setOverride speed duration reason
  | .clearOverride => .clearOverride
  | .turn change => .turn fun (calls, w) => (calls, change w)

section Runs

variable {s : Settings} {σ : Type} {host : Host σ} {st : State} {calls : List Call} {w : σ}

/-- A cycle that is carried out: its calls, its report and the state that it leaves. -/
theorem logged_cycle_of_report {report : Report} {st' : State} {w' : List Call × σ}
    (run : cycle host.logged s st (calls, w) = ⟨.finished report, st', w'⟩) :
    (∃ speed, report.speed = s.fanControl.clamp speed) ∧
      report.speed = st'.hysteresis.currentSpeed ∧
      st'.hysteresis.currentSpeed = st'.hysteresis.targetSpeed ∧
      ∃ readings, w'.1 = host.conclusion report ++ (readings ++ calls) ∧
        ∀ call ∈ readings, call.speed? = none := by
  obtain ⟨_, run', -⟩ | ⟨_, _, _, _, -, -, run'⟩ | ⟨hints, now, next, report', -, committed, run'⟩ :=
    cycle_cases host.logged s st (calls, w)
  · cases run'.symm.trans run
  · cases run'.symm.trans run
  · cases run'.symm.trans run
    obtain ⟨current, settled, limited⟩ := State.report_speed_of_commit committed
    obtain ⟨readings, read, silent⟩ := sense_logged host calls w hints
    refine ⟨limited, current, settled, readings, ?_, silent⟩
    rw [← read]
    exact carryOut_logged host _ _ report

theorem cycle_speedsInStep (valid : s.fanControl.minSpeed ≤ s.fanControl.maxSpeed)
    (inStep : SpeedsInStep s.fanControl st calls) :
    SpeedsInStep s.fanControl (cycle host.logged s st (calls, w)).state
      (cycle host.logged s st (calls, w)).world.1 := by
  obtain ⟨w', run, same⟩ | ⟨hints, now, st', e, -, committed, run⟩ |
    ⟨hints, now, st', report, -, committed, run⟩ := cycle_cases host.logged s st (calls, w)
  · rw [run]
    obtain rfl | ⟨hints, rfl⟩ := same
    · exact inStep
    · obtain ⟨readings, read, silent⟩ := sense_logged host calls w hints
      exact read ▸ inStep.append silent
  · rw [run]
    obtain ⟨readings, read, silent⟩ := sense_logged host calls w hints
    exact read ▸ (inStep.append silent).of_sameSpeeds (State.sameSpeeds_of_commit committed)
  · obtain ⟨⟨speed, limited⟩, current, settled, readings, read, silent⟩ :=
      logged_cycle_of_report run
    rw [run]
    exact read ▸ (inStep.append silent).conclude host current settled
      (limited ▸ s.fanControl.permits_clamp valid speed)

theorem lasting_speedsInStep (valid : s.fanControl.minSpeed ≤ s.fanControl.maxSpeed) :
    Lasting host.logged s fun st w => SpeedsInStep s.fanControl st w.1 where
  cycle := fun {_ w} inStep => cycle_speedsInStep (w := w.2) valid inStep
  enableManual inStep := inStep.cons rfl
  restoreAuto inStep := inStep.cons rfl
  request _ inStep := ⟨inStep.settled, inStep.permitted, inStep.commanded, inStep.latest, inStep.entries⟩

theorem speedsInStep_start (valid : s.fanControl.minSpeed ≤ s.fanControl.maxSpeed) :
    SpeedsInStep s.fanControl (.start s) [] where
  settled := rfl
  permitted := s.fanControl.permits_clamp valid _
  commanded := by simp
  latest := by simp
  entries := trivial

theorem run_speedsInStep (valid : s.fanControl.minSpeed ≤ s.fanControl.maxSpeed) (w : σ)
    (operations : List (Operation σ)) :
    SpeedsInStep s.fanControl
      ((Plant.new s ([], w)).run host.logged s (operations.map .logged)).controller.state
      ((Plant.new s ([], w)).run host.logged s (operations.map .logged)).world.1 := by
  refine Plant.run_lasting (lasting_speedsInStep valid) _ ?_ (speedsInStep_start valid)
  intro change turned st w inStep
  obtain ⟨operation, -, same⟩ := List.mem_map.mp turned
  cases operation <;> cases same
  exact inStep

theorem cycle_of_runCycle {σ : Type} {host : Host σ} {c c' : Controller} {w w' : σ}
    {report : Report} (run : c.runCycle host s w = (some report, c', w')) :
    cycle host s c.state w = ⟨.finished report, c'.state, w'⟩ := by
  rw [Controller.runCycle] at run
  generalize cycle host s c.state w = p at run ⊢
  obtain ⟨phase, st', world⟩ := p
  cases phase <;> cases run
  rfl

/-- A report that was asked for has a limited speed. -/
theorem limited_of_runCycle {σ : Type} {host : Host σ} {c c' : Controller} {w w' : σ}
    {report : Report} (run : c.runCycle host s w = (some report, c', w')) :
    ∃ speed, report.speed = s.fanControl.clamp speed := by
  have run := cycle_of_runCycle run
  obtain ⟨_, run', -⟩ | ⟨_, _, _, _, -, -, run'⟩ | ⟨hints, now, next, report', -, committed, run'⟩ :=
    cycle_cases host s c.state w
  all_goals cases run'.symm.trans run
  exact (State.report_speed_of_commit committed).2.2

theorem run_reports_permitted (valid : s.fanControl.minSpeed ≤ s.fanControl.maxSpeed)
    {p : Plant σ} (operations : List (Operation σ))
    (holds : ∀ report ∈ p.reports, s.fanControl.Permits report.speed) :
    ∀ report ∈ (p.run host s operations).reports, s.fanControl.Permits report.speed := by
  induction operations generalizing p with
  | nil => exact holds
  | cons operation rest ih =>
    apply ih
    cases operation with
    | runCycle =>
      intro report member
      rw [Plant.after] at member
      cases run : p.controller.runCycle host s p.world with
      | mk answer next =>
        rw [run] at member
        rcases List.mem_append.mp member with new | old
        · rw [Option.mem_toList.mp new] at run
          obtain ⟨speed, limited⟩ := limited_of_runCycle run
          exact limited ▸ s.fanControl.permits_clamp valid speed
        · exact holds report old
    | addHint | setOverride =>
      simp only [Plant.after, Plant.timed]
      split <;> exact holds
    | start | stop | second | removeHint | clearOverride | turn => exact holds

theorem speeds_of_status {now : Instant} {status : Status} (shown : st.status s now = .ok status) :
    status.currentSpeed = st.hysteresis.currentSpeed ∧
      status.targetSpeed = st.hysteresis.targetSpeed := by
  obtain ⟨cpuTrend, -, onward⟩ := ok_of_bind shown
  obtain ⟨gpuTrend, -, same⟩ := ok_of_bind onward
  cases same
  exact ⟨rfl, rfl⟩

/-- A permitted speed passes the limit of the fans' program unchanged. -/
theorem speedArguments_of_permits {c : FanControl} (limit : c.maxSpeed ≤ 100) {speed : UInt8}
    (permitted : c.Permits speed) : min speed 100 = speed ∧
      Sensors.Ipmi.speedArguments speed =
        ["raw", "0x30", "0x30", "0x02", "0xff", Sensors.Ipmi.percentArgument speed] := by
  have same : min speed 100 = speed := by
    apply UInt8.toNat_inj.mp
    have below := permitted.2
    simp only [UInt8.le_iff_toNat_le] at limit below
    rw [toNat_min]
    omega
  exact ⟨same, by rw [Sensors.Ipmi.speedArguments, same]⟩

/-- Settings that pass their check keep every speed in their range, through every run of operations
and whatever the surroundings answer, and one cycle has one speed: the one that it commands, keeps,
reports, and shows afterwards. -/
theorem speeds_permitted_and_agree (s : Settings) (valid : s.check = .ok ()) {σ : Type}
    (host : Host σ) (w : σ) (operations : List (Operation σ)) :
    let plant := (Plant.new s ([], w)).run host.logged s (operations.map .logged)
    SpeedsInStep s.fanControl plant.controller.state plant.world.1 ∧
      (∀ report ∈ plant.reports, s.fanControl.Permits report.speed) ∧
      ∀ report c calls w',
        plant.controller.runCycle host.logged s plant.world = (some report, c, (calls, w')) →
        s.fanControl.Permits report.speed ∧
        (∃ readings, calls = host.conclusion report ++ (readings ++ plant.world.1) ∧
          ∀ call ∈ readings, call.speed? = none) ∧
        c.state.hysteresis.currentSpeed = report.speed ∧
        (∀ now status, c.state.status s now = .ok status →
          status.currentSpeed = report.speed ∧ status.targetSpeed = report.speed) ∧
        min report.speed 100 = report.speed ∧
        Sensors.Ipmi.speedArguments report.speed =
          ["raw", "0x30", "0x30", "0x02", "0xff", Sensors.Ipmi.percentArgument report.speed] := by
  obtain ⟨limit, range, -⟩ := s.check_eq_ok_iff.mp valid
  intro plant
  refine ⟨run_speedsInStep range w operations, ?_, ?_⟩
  · exact run_reports_permitted range _ fun _ absent => absurd absent List.not_mem_nil
  · intro report c calls w' run
    obtain ⟨⟨speed, limited⟩, current, settled, readings, made, silent⟩ :=
      logged_cycle_of_report (cycle_of_runCycle run)
    have permitted : s.fanControl.Permits report.speed :=
      limited ▸ s.fanControl.permits_clamp range speed
    refine ⟨permitted, ⟨readings, made, silent⟩, current.symm, ?_,
      speedArguments_of_permits limit permitted⟩
    intro now status shown
    obtain ⟨shownCurrent, shownTarget⟩ := speeds_of_status shown
    exact ⟨shownCurrent.trans current.symm, shownTarget.trans (settled.symm.trans current.symm)⟩

/-- A breach at the start, and then an override below the least permitted speed. -/
theorem speeds_of_low_override :
    let host := Host.still (.ofMillis 1748764800000) (.ofTemps [90]) .empty
    let plant := (Plant.new .default ([], ())).run host.logged .default
      ([.start, .setOverride 3 ⟨0⟩ "quiet", .runCycle].map .logged)
    Settings.default.check = .ok () ∧
      plant.world.1.filterMap Call.speed? = [5, 5, 30, 30] ∧
      SpeedsInStep FanControl.default plant.controller.state plant.world.1 :=
  ⟨rfl, by decide, (speeds_permitted_and_agree .default rfl _ () _).1⟩

end Runs

end ChassisCooling.Control
