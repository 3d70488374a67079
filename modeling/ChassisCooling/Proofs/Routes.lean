import ChassisCooling.Proofs.Endurance
import ChassisCooling.Proofs.Registry

/-! # Decision after decision

A decision looks at the readings, at the registry and at the time, and at the speed and the breach
that the last one left behind. Nothing else moves the speed: a route leads a controller from one
state to another through requests and cycles, and the speeds along it are those of its decisions,
taken one after another. So what is said of decisions in a row is said of every controller.
-/

namespace ChassisCooling.Control

open Calendar

/-! ## Situations -/

/-- What a decision looks at besides what the last one left behind. -/
structure Situation where
  cpu : Int32
  gpu : Int32
  registry : Registry
  now : Instant

namespace Situation

/-- No override is active, so the speed is decided automatically. -/
def IsFree (x : Situation) : Prop :=
  x.registry.activeOverride x.now = none

/-- No hint is live. -/
def IsUnhinted (x : Situation) : Prop :=
  x.registry.liveHints x.now = []

/-- Neither temperature is above its threshold. -/
def IsCalm (c : FanControl) (x : Situation) : Prop :=
  isBreach c x.cpu x.gpu = false

theorem IsUnhinted.hintFloor {x : Situation} (unhinted : x.IsUnhinted) :
    x.registry.hintFloor x.now = none := by
  rw [Registry.hintFloor, unhinted]
  rfl

end Situation

/-! ## Numbers -/

theorem effectiveStep_pos (c : FanControl) : 1 ≤ c.effectiveStep.toNat := by
  rw [FanControl.effectiveStep]
  split
  · decide
  · next moves =>
    have : c.stepSize.toNat ≠ 0 := fun none => moves (UInt8.toNat_inj.mp none)
    omega

theorem succ_steps (count : Nat) (step : Int) :
    ((count + 1 : Nat) : Int) * step = count * step + step := by
  rw [Int.natCast_succ, Int.add_mul, Int.one_mul]

/-- A whole number as a speed within the limits, raised to a floor. -/
theorem toNat_limited (c : FanControl) (floor : Option UInt8) {speed : Int} (natural : 0 ≤ speed) :
    ((c.clamp (toSpeed (raiseTo floor speed))).toNat : Int) =
      min (max (max speed (floor.getD 0).toNat) c.minSpeed.toNat) c.maxSpeed.toNat := by
  have byte := c.maxSpeed.toNat_lt
  rw [raiseTo_eq_max floor natural, FanControl.toNat_clamp, toNat_toSpeed]
  omega

/-! ## Decisions in a row -/

namespace Hysteresis

variable {c : FanControl} {h h' k : Hysteresis} {x : Situation} {xs : List Situation}

/-- Decides in a situation; what is decided is the speed from then on. -/
def pass (c : FanControl) (h : Hysteresis) (x : Situation) : Except OutOfCalendar Hysteresis :=
  (h.decide c x.registry x.cpu x.gpu x.now).map commit

/-- Decides in one situation after another. -/
def passAll (c : FanControl) (h : Hysteresis) (xs : List Situation) :
    Except OutOfCalendar Hysteresis :=
  xs.foldlM (pass c) h

theorem passAll_cons_of_pass (passed : h.pass c x = .ok h') (xs : List Situation) :
    h.passAll c (x :: xs) = h'.passAll c xs := by
  rw [passAll, List.foldlM_cons, passed]
  rfl

/-- A decision copies the speed of the override and leaves the memory of the last breach alone, or
it limits an automatic speed that is raised to the floor of the hints. -/
theorem pass_cases (passed : h.pass c x = .ok h') :
    (∃ o, x.registry.activeOverride x.now = some o ∧ h'.currentSpeed = c.clamp o.speed ∧
      h'.lastBreach = h.lastBreach) ∨
    ∃ speed, x.IsFree ∧ Automatic h c x.cpu x.gpu x.now speed ∧
      h'.currentSpeed = c.clamp (toSpeed (raiseTo (x.registry.hintFloor x.now) speed)) ∧
      h'.lastBreach = if isBreach c x.cpu x.gpu then some x.now else h.lastBreach := by
  obtain ⟨decided, decision, rfl⟩ := ok_of_map passed
  obtain ⟨o, active, rfl⟩ | ⟨speed, free, found, rfl⟩ := decide_cases decision
  · exact .inl ⟨o, active, rfl, rfl⟩
  · exact .inr ⟨speed, free, automatic_of_eq found, rfl, rfl⟩

theorem permits_of_pass (range : c.minSpeed ≤ c.maxSpeed) (passed : h.pass c x = .ok h') :
    c.Permits h'.currentSpeed := by
  obtain ⟨o, -, current, -⟩ | ⟨speed, -, -, current, -⟩ := pass_cases passed
  all_goals
    rw [current]
    exact c.permits_clamp range _

/-- Where no override is active the speed is an automatic one, raised to the floor of the hints. -/
theorem pass_of_free (free : x.IsFree) (passed : h.pass c x = .ok h') :
    ∃ speed, Automatic h c x.cpu x.gpu x.now speed ∧
      h'.currentSpeed = c.clamp (toSpeed (raiseTo (x.registry.hintFloor x.now) speed)) ∧
      h'.lastBreach = if isBreach c x.cpu x.gpu then some x.now else h.lastBreach := by
  obtain ⟨o, active, -⟩ | ⟨speed, -, found⟩ := pass_cases passed
  · rw [free] at active
    cases active
  · exact ⟨speed, found⟩

/-- An automatic speed that is found is raised to the floor of the hints and limited. -/
theorem pass_of_automatic {speed : Int} (free : x.IsFree)
    (found : h.automatic c x.cpu x.gpu x.now = .ok speed) :
    ∃ h', h.pass c x = .ok h' ∧
      h'.currentSpeed = c.clamp (toSpeed (raiseTo (x.registry.hintFloor x.now) speed)) ∧
      h'.lastBreach = if isBreach c x.cpu x.gpu then some x.now else h.lastBreach :=
  ⟨_, by rw [pass, decide_of_automatic free, found]; rfl, rfl, rfl⟩

/-- All that the next decision looks at in what the last one left behind. -/
structure SameMemory (h k : Hysteresis) : Prop where
  current : h.currentSpeed = k.currentSpeed
  breach : h.lastBreach = k.lastBreach

theorem SameMemory.automatic (same : SameMemory h k) (cpu gpu : Int32) (now : Instant) :
    h.automatic c cpu gpu now = k.automatic c cpu gpu now := by
  rw [Hysteresis.automatic, Hysteresis.automatic, same.current, same.breach]

theorem SameMemory.pass (same : SameMemory h k) (passed : h.pass c x = .ok h') :
    ∃ k', k.pass c x = .ok k' ∧ SameMemory h' k' := by
  obtain ⟨decided, decision, rfl⟩ := ok_of_map passed
  cases active : x.registry.activeOverride x.now with
  | some o =>
    rw [decide_of_override active] at decision
    cases decision
    refine ⟨_, by rw [Hysteresis.pass, decide_of_override active]; rfl, ?_⟩
    exact ⟨rfl, same.breach⟩
  | none =>
    rw [decide_of_automatic active, same.automatic] at decision
    obtain ⟨speed, found, rfl⟩ := ok_of_map decision
    refine ⟨_, by rw [Hysteresis.pass, decide_of_automatic active, found]; rfl, ?_⟩
    exact ⟨rfl, by simp only [commit_lastBreach, same.breach]⟩

end Hysteresis

/-! ## Routes -/

/-- A cycle that came to its decision: the situation that it found, and its speed. -/
structure Passage extends Situation where
  speed : UInt8

/-- The passage of a cycle. What is past has left the registry before the decision. -/
def State.passage (st : State) (cpu : CpuReading) (gpu : GpuReading) (now : Instant)
    (report : Report) : Passage :=
  ⟨⟨cpu.max, gpu.max, st.registry.evict now, now⟩, report.speed⟩

/-- A way from one state to another through requests and cycles, with the cycles on it that came to
their decisions. A cycle that breaks off leads on, too. -/
inductive Route (s : Settings) : State → List Passage → State → Prop
  | here (st : State) : Route s st [] st
  | request {st st' : State} {registry : Registry} {ps : List Passage}
      (step : RegistryStep st.registry registry) (onward : Route s { st with registry } ps st') :
      Route s st ps st'
  | cycle {st next st' : State} {cpu : CpuReading} {gpu : GpuReading} {now : Instant}
      {report : Report} {ps : List Passage}
      (committed : st.commit s cpu gpu now = (next, .ok report)) (onward : Route s next ps st') :
      Route s st (st.passage cpu gpu now report :: ps) st'
  | brokenCycle {st next st' : State} {cpu : CpuReading} {gpu : GpuReading} {now : Instant}
      {e : OutOfCalendar} {ps : List Passage}
      (broke : st.commit s cpu gpu now = (next, .error e)) (onward : Route s next ps st') :
      Route s st ps st'

namespace State

variable {st st' : State} {s : Settings} {cpu : CpuReading} {gpu : GpuReading} {now : Instant}
  {report : Report}

/-- A commit that comes to its end decides in its situation, and reports the speed. -/
theorem pass_of_commit (committed : st.commit s cpu gpu now = (st', .ok report)) :
    st.hysteresis.pass s.fanControl (st.passage cpu gpu now report).toSituation =
        .ok st'.hysteresis ∧ report.speed = st'.hysteresis.currentSpeed := by
  obtain ⟨retention, cutoff, h, -, -, decision, run⟩ | ⟨_, e, broken, -⟩ :=
    commit_cases st s cpu gpu now
  · cases run.symm.trans committed
    exact ⟨by rw [Hysteresis.pass, passage, decision]; rfl, rfl⟩
  · rw [broken] at committed
    cases committed

theorem sameMemory_of_broken {e : OutOfCalendar}
    (broke : st.commit s cpu gpu now = (st', .error e)) :
    st.hysteresis.SameMemory st'.hysteresis := by
  obtain ⟨retention, cutoff, h, -, -, -, run⟩ | ⟨_, e', run, same⟩ := commit_cases st s cpu gpu now
  · rw [run] at broke
    cases broke
  · cases run.symm.trans broke
    exact ⟨same.current.symm, same.breach.symm⟩

end State

namespace Route

variable {s : Settings} {st mid st' : State} {ps qs : List Passage}

theorem trans (first : Route s st ps mid) (second : Route s mid qs st') :
    Route s st (ps ++ qs) st' := by
  induction first with
  | here => exact second
  | request step _ ih => exact .request step (ih second)
  | cycle committed _ ih => exact .cycle committed (ih second)
  | brokenCycle broke _ ih => exact .brokenCycle broke (ih second)

/-- The decisions on a route, taken one after another, lead to the speed and to the memory of a
breach that the route leads to. -/
theorem decisions (route : Route s st ps st') {h : Hysteresis} (same : st.hysteresis.SameMemory h) :
    ∃ h', h.passAll s.fanControl (ps.map Passage.toSituation) = .ok h' ∧
      st'.hysteresis.SameMemory h' := by
  induction route generalizing h with
  | here => exact ⟨h, rfl, same⟩
  | request _ _ ih => exact ih same
  | cycle committed _ ih =>
    obtain ⟨next, passed, same⟩ := same.pass (State.pass_of_commit committed).1
    obtain ⟨h', passedAll, same⟩ := ih same
    refine ⟨h', ?_, same⟩
    rw [List.map_cons, Hysteresis.passAll_cons_of_pass passed, passedAll]
  | brokenCycle broke _ ih =>
    have kept := State.sameMemory_of_broken broke
    exact ih ⟨kept.current.symm.trans same.current, kept.breach.symm.trans same.breach⟩

/-- Routes lead from reachable states to reachable states. -/
theorem reachable (route : Route s st ps st') (reached : Reachable s (fun _ _ _ => True) st) :
    Reachable s (fun _ _ _ => True) st' := by
  induction route with
  | here => exact reached
  | request step _ ih => exact ih (reached.request step)
  | @cycle st _ _ cpu gpu now _ _ committed _ ih =>
    have next : Reachable s _ (st.commit s cpu gpu now).1 := reached.commit trivial
    rw [committed] at next
    exact ih next
  | @brokenCycle st _ _ cpu gpu now _ _ broke _ ih =>
    have next : Reachable s _ (st.commit s cpu gpu now).1 := reached.commit trivial
    rw [broke] at next
    exact ih next

end Route

/-- The states that can be reached are those that routes from the start lead to. -/
theorem reachable_iff_route {s : Settings} {st : State} :
    Reachable s (fun _ _ _ => True) st ↔ ∃ ps, Route s (.start s) ps st := by
  constructor
  · intro reached
    induction reached with
    | start => exact ⟨[], .here _⟩
    | request _ step ih =>
      obtain ⟨ps, route⟩ := ih
      exact ⟨_, route.trans (.request step (.here _))⟩
    | @commit st _ cpu gpu now _ ih =>
      obtain ⟨ps, route⟩ := ih
      cases committed : st.commit s cpu gpu now with
      | mk next result =>
        cases result with
        | ok report => exact ⟨_, route.trans (.cycle committed (.here _))⟩
        | error e => exact ⟨_, route.trans (.brokenCycle committed (.here _))⟩
  · rintro ⟨ps, route⟩
    exact route.reachable .start

end ChassisCooling.Control
