import ChassisCooling.Proofs.Calendar
import ChassisCooling.Proofs.Cycle

/-! # Runs of a controller in its surroundings

A plant is a controller together with the clock, the sensors, the fans and the history that it works
with. One operation after another is asked of it, and in between the surroundings may change in any
way. An operation reaches the state of the controller through whole cycles and through the registry
only, so a property that cycles, the two commands around a run, and the registry keep is kept by
every operation. The reachable states are the least such property.
-/

namespace ChassisCooling.Control

open Calendar

/-! ## Reachable states -/

/-- One request of a registry that came to its end. -/
inductive RegistryStep (r : Registry) : Registry → Prop
  | addHint {request : HintRequest} {now : Instant} {hint : Hint} {next : Registry}
      (added : r.addHint request now = .ok (hint, next)) : RegistryStep r next
  | removeHint (source : String) : RegistryStep r (r.removeHint source)
  | setOverride {speed : Int} {duration : Span} {reason : String} {now : Instant}
      {result : Except Fault Override} {next : Registry}
      (answered : r.setOverride speed duration reason now = .ok (result, next)) :
      RegistryStep r next
  | clearOverride : RegistryStep r r.clearOverride

/-- The states that requests and cycles lead to, for readings and times of the cycles that are
allowed. A cycle that breaks off leads on, too. -/
inductive Reachable (s : Settings) (allowed : CpuReading → GpuReading → Instant → Prop) :
    State → Prop
  | start : Reachable s allowed (.start s)
  | request {st : State} {registry : Registry} (reached : Reachable s allowed st)
      (step : RegistryStep st.registry registry) : Reachable s allowed { st with registry }
  | commit {st : State} (reached : Reachable s allowed st) {cpu : CpuReading} {gpu : GpuReading}
      {now : Instant} (fits : allowed cpu gpu now) :
      Reachable s allowed (st.commit s cpu gpu now).1

/-! ## Plants -/

/-- What can be asked of a controller, and what can happen around it. -/
inductive Operation (σ : Type) where
  | runCycle
  | start
  | stop
  /-- A second of the timer goes by, and the loops whose time has come run their cycles. -/
  | second
  | addHint (request : HintRequest)
  | removeHint (source : String)
  | setOverride (speed : Int) (duration : Span) (reason : String)
  | clearOverride
  /-- The clock moves, or the sensors, the fans and the history come to behave in another way. -/
  | turn (change : σ → σ)

/-- The operation is about the hints or the override. -/
def Operation.isRequest {σ : Type} : Operation σ → Bool
  | .addHint _ | .removeHint _ | .setOverride .. | .clearOverride => true
  | _ => false

/-- A controller, what it works with, and the reports that were asked for, newest first. -/
structure Plant (σ : Type) where
  controller : Controller
  world : σ
  reports : List Report

namespace Plant

variable {σ : Type}

/-- Before the first operation. -/
def new (s : Settings) (w : σ) : Plant σ :=
  ⟨.new s, w, []⟩

/-- A request that needs the time. When it breaks off nothing has changed. -/
def timed (p : Plant σ) (host : Host σ) (request : Instant → Except OutOfCalendar Controller) :
    Plant σ :=
  match host.now p.world >>= request with
  | .ok controller => { p with controller }
  | .error _ => p

/-- What an operation leads to. -/
def after (host : Host σ) (s : Settings) (p : Plant σ) : Operation σ → Plant σ
  | .runCycle =>
    let (report, controller, world) := p.controller.runCycle host s p.world
    ⟨controller, world, report.toList ++ p.reports⟩
  | .start =>
    let (_, controller, world) := p.controller.start host s p.world
    { p with controller, world }
  | .stop =>
    let (_, controller, world) := p.controller.stop host p.world
    { p with controller, world }
  | .second =>
    let (controller, world) := p.controller.second host s p.world
    { p with controller, world }
  | .addHint request => p.timed host fun now => (·.2) <$> p.controller.addHint request now
  | .removeHint source => { p with controller := p.controller.removeHint source }
  | .setOverride speed duration reason =>
    p.timed host fun now => (·.2) <$> p.controller.setOverride speed duration reason now
  | .clearOverride => { p with controller := p.controller.clearOverride }
  | .turn change => { p with world := change p.world }

/-- What operations lead to, one after another. -/
def run (host : Host σ) (s : Settings) (p : Plant σ) (operations : List (Operation σ)) : Plant σ :=
  operations.foldl (after host s) p

end Plant

/-- Surroundings that stand still: the clock shows one time, the sensors always read the same, and
every command succeeds. -/
def Host.still (t : Instant) (cpu : CpuReading) (gpu : GpuReading) : Host Unit where
  now _ := .ok t
  readCpu _ w := (.ok cpu, w)
  readGpu _ w := (.ok gpu, w)
  perform _ w := (.ok (), w)
  live := true
  keepsHistory := true

/-- What the sensors read and the clock then shows is allowed. -/
def Host.Allows {σ : Type} (host : Host σ) (allowed : CpuReading → GpuReading → Instant → Prop) :
    Prop :=
  ∀ hints w now, host.now (host.sense hints w).2 = .ok now →
    allowed (host.sense hints w).1.1 (host.sense hints w).1.2 now

/-! ## What every operation keeps -/

variable {σ : Type} {host : Host σ} {s : Settings} {P : State → σ → Prop}

/-- A property of the controller's state and the surroundings that every part of an operation
keeps. -/
structure Lasting (host : Host σ) (s : Settings) (P : State → σ → Prop) : Prop where
  cycle : ∀ {st w}, P st w → P (cycle host s st w).state (cycle host s st w).world
  enableManual : ∀ {st w}, P st w → P st (host.perform .enableManual w).2
  restoreAuto : ∀ {st w}, P st w → P st (host.perform .restoreAuto w).2
  request : ∀ {st w registry}, RegistryStep st.registry registry → P st w →
    P { st with registry } w

namespace Controller

variable {c : Controller} {w : σ}

@[simp] theorem wake_state (c : Controller) : c.wake.state = c.state := by
  rw [wake]
  split <;> rfl

theorem runCycle_lasting (lasting : Lasting host s P) (holds : P c.state w) :
    P (c.runCycle host s w).2.1.state (c.runCycle host s w).2.2 :=
  lasting.cycle holds

theorem start_lasting (lasting : Lasting host s P) (holds : P c.state w) :
    P (c.start host s w).2.1.state (c.start host s w).2.2 := by
  rw [start]
  split
  · exact holds
  · have taken : P c.state (host.perform .enableManual w).2 := lasting.enableManual holds
    have cycled := runCycle_lasting (c := { c with running := true, starts := c.starts + 1 })
      lasting taken
    dsimp only
    generalize runCycle host s _ _ = cycle at cycled ⊢
    obtain ⟨report, c, w⟩ := cycle
    cases report with
    | none => exact cycled
    | some report =>
      dsimp only
      split
      · simpa only [wake_state] using cycled
      · exact cycled

theorem stop_lasting (lasting : Lasting host s P) (holds : P c.state w) :
    P (c.stop host w).2.1.state (c.stop host w).2.2 := by
  rw [stop]
  split
  · simp only [wake_state]
    split
    · exact lasting.restoreAuto holds
    · exact holds
  · exact holds

theorem tick_lasting (lasting : Lasting host s P) (holds : P c.state w) (l : Loop) :
    P (c.tick host s l w).2.1.state (c.tick host s l w).2.2 := by
  rw [tick]
  split
  · have cycled := runCycle_lasting lasting holds
    generalize runCycle host s c w = cycle at cycled ⊢
    obtain ⟨report, c, w⟩ := cycle
    cases report <;> exact cycled
  · exact holds

/-- What a loop does in a second of the timer. -/
def attend (host : Host σ) (s : Settings) (c : Controller) (l : Loop) (w : σ) :
    Option Loop × Controller × σ :=
  if l.nextTick = c.timer then c.tick host s l w else (some l, c, w)

theorem ticks_cons (host : Host σ) (s : Settings) (l : Loop) (rest : List Loop) (c : Controller)
    (w : σ) :
    ticks host s (l :: rest) c w =
      let first := c.attend host s l w
      let others := ticks host s rest first.2.1 first.2.2
      (first.1.toList ++ others.1, others.2) :=
  rfl

theorem attend_lasting (lasting : Lasting host s P) (holds : P c.state w) (l : Loop) :
    P (c.attend host s l w).2.1.state (c.attend host s l w).2.2 := by
  rw [attend]
  split
  · exact tick_lasting lasting holds l
  · exact holds

theorem ticks_lasting (lasting : Lasting host s P) (loops : List Loop) (holds : P c.state w) :
    P (ticks host s loops c w).2.1.state (ticks host s loops c w).2.2 := by
  induction loops generalizing c w with
  | nil => exact holds
  | cons l rest ih =>
    rw [ticks_cons]
    exact ih (attend_lasting lasting holds l)

theorem second_lasting (lasting : Lasting host s P) (holds : P c.state w) :
    P (c.second host s w).1.state (c.second host s w).2 :=
  ticks_lasting (c := { c with timer := c.timer + 1 }) lasting c.loops holds

end Controller

namespace Plant

variable {p : Plant σ} {allowed : CpuReading → GpuReading → Instant → Prop}

/-- A request that needs the time comes to its end, or nothing has changed. -/
theorem timed_cases (p : Plant σ) (host : Host σ)
    (request : Instant → Except OutOfCalendar Controller) :
    p.timed host request = p ∨ ∃ now c, host.now p.world = .ok now ∧ request now = .ok c ∧
      p.timed host request = { p with controller := c } := by
  rw [timed]
  split
  · next c ended =>
    obtain ⟨now, shown, requested⟩ := ok_of_bind ended
    exact .inr ⟨now, c, shown, requested, rfl⟩
  · exact .inl rfl

theorem addHint_step {c c' : Controller} {request : HintRequest} {now : Instant}
    (added : (·.2) <$> c.addHint request now = .ok c') :
    ∃ registry, RegistryStep c.state.registry registry ∧
      c' = { c with state := { c.state with registry } } := by
  obtain ⟨_, answered, rfl⟩ := ok_of_map added
  obtain ⟨⟨hint, registry⟩, answer, same⟩ := ok_of_bind answered
  cases same
  exact ⟨registry, .addHint answer, rfl⟩

theorem setOverride_step {c c' : Controller} {speed : Int} {duration : Span} {reason : String}
    {now : Instant} (set : (·.2) <$> c.setOverride speed duration reason now = .ok c') :
    ∃ registry, RegistryStep c.state.registry registry ∧
      c' = { c with state := { c.state with registry } } := by
  obtain ⟨_, answered, rfl⟩ := ok_of_map set
  obtain ⟨⟨result, registry⟩, answer, same⟩ := ok_of_bind answered
  cases same
  exact ⟨registry, .setOverride answer, rfl⟩

/-- An operation on the hints and the override changes the registry by one step, or nothing. -/
theorem after_request (host : Host σ) (s : Settings) (p : Plant σ) {operation : Operation σ}
    (isRequest : operation.isRequest = true) :
    p.after host s operation = p ∨ ∃ registry, RegistryStep p.controller.state.registry registry ∧
      p.after host s operation =
        { p with controller.state := { p.controller.state with registry } } := by
  cases operation with
  | addHint request =>
    obtain same | ⟨now, c, -, added, run⟩ := timed_cases p host _
    · exact .inl same
    · obtain ⟨registry, step, rfl⟩ := addHint_step added
      exact .inr ⟨registry, step, run⟩
  | removeHint source => exact .inr ⟨_, .removeHint source, rfl⟩
  | setOverride speed duration reason =>
    obtain same | ⟨now, c, -, set, run⟩ := timed_cases p host _
    · exact .inl same
    · obtain ⟨registry, step, rfl⟩ := setOverride_step set
      exact .inr ⟨registry, step, run⟩
  | clearOverride => exact .inr ⟨_, .clearOverride, rfl⟩
  | runCycle | start | stop | second | turn => cases isRequest

theorem request_lasting (lasting : Lasting host s P) (holds : P p.controller.state p.world)
    {operation : Operation σ} (isRequest : operation.isRequest = true) :
    P (p.after host s operation).controller.state (p.after host s operation).world := by
  obtain same | ⟨registry, step, run⟩ := after_request host s p isRequest
  · rwa [same]
  · rw [run]
    exact lasting.request step holds

/-- A lasting property survives every operation, provided it survives the turns of the world. -/
theorem after_lasting (lasting : Lasting host s P) (operation : Operation σ)
    (turns : ∀ change, operation = .turn change → ∀ st w, P st w → P st (change w))
    (holds : P p.controller.state p.world) :
    P (p.after host s operation).controller.state (p.after host s operation).world := by
  cases operation with
  | runCycle => exact Controller.runCycle_lasting lasting holds
  | start => exact Controller.start_lasting lasting holds
  | stop => exact Controller.stop_lasting lasting holds
  | second => exact Controller.second_lasting lasting holds
  | addHint | removeHint | setOverride | clearOverride => exact request_lasting lasting holds rfl
  | turn change => exact turns change rfl _ _ holds

theorem run_lasting (lasting : Lasting host s P) (operations : List (Operation σ))
    (turns : ∀ change, .turn change ∈ operations → ∀ st w, P st w → P st (change w))
    (holds : P p.controller.state p.world) :
    P (p.run host s operations).controller.state (p.run host s operations).world := by
  induction operations generalizing p with
  | nil => exact holds
  | cons operation rest ih =>
    refine ih (fun change later => turns change (List.mem_cons_of_mem _ later)) ?_
    refine after_lasting lasting operation (fun change same => turns change ?_) holds
    exact same ▸ List.mem_cons_self ..

/-- The state of a cycle at its end is the one that it began with or the one that it committed. -/
theorem cycle_reachable (allows : host.Allows allowed) {st : State} {w : σ}
    (reached : Reachable s allowed st) : Reachable s allowed (cycle host s st w).state := by
  obtain ⟨w', run, -⟩ | ⟨hints, now, st', e, shown, committed, run⟩ |
    ⟨hints, now, st', report, shown, committed, run⟩ := cycle_cases host s st w
  · rw [run]
    exact reached
  all_goals
    have next := reached.commit (allows hints w now shown)
    rw [committed] at next
    rw [run]
    exact next

theorem lasting_reachable (allows : host.Allows allowed) :
    Lasting host s fun st _ => Reachable s allowed st where
  cycle := cycle_reachable allows
  enableManual reached := reached
  restoreAuto reached := reached
  request step reached := reached.request step

/-- Every operation of every plant leads to a reachable state. -/
theorem run_reachable (allows : host.Allows allowed) (operations : List (Operation σ))
    (reached : Reachable s allowed p.controller.state) :
    Reachable s allowed (p.run host s operations).controller.state :=
  run_lasting (lasting_reachable allows) operations (fun _ _ _ _ reached => reached) reached

end Plant

end ChassisCooling.Control
