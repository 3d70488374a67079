import ChassisCooling.Proofs.SpeedRange
import Mathlib.Data.List.Forall2

/-! # Failures of the surroundings stay outside

Two controllers with the same settings are asked the same things. Their clocks show the same times,
and their sensors' reads count for the same readings; how the commands to the fans and to the
history end may differ at every call. Then all that is heard from the two controllers is the same,
and so are the calls that they make. Each phase of a cycle keeps the two runs together, and so does
each operation, since an outcome of a command is never looked at.
-/

namespace ChassisCooling.Control

open Calendar

variable {σ σ₁ σ₂ : Type}

/-! ## Reads -/

/-- The reads of a cycle: how they ended, and what they leave. The second sensor is not asked once
the first has crashed. -/
def Host.reads (host : Host σ) (hints : Nat) (w : σ) :
    (Outcome CpuReading × Option (Outcome GpuReading)) × σ :=
  match host.readCpu hints w with
  | (.crashed, w) => ((.crashed, none), w)
  | (cpu, w) => ((cpu, some (host.readGpu hints w).1), (host.readGpu hints w).2)

/-- The calls of the reads, newest first. -/
def Host.readCalls (host : Host σ) (hints : Nat) (w : σ) : List Call :=
  match (host.readCpu hints w).1 with
  | .crashed => [.readCpu hints]
  | _ => [.readGpu hints, .readCpu hints]

/-- What the reads of a cycle count for. -/
def counted : Outcome CpuReading × Option (Outcome GpuReading) → CpuReading × GpuReading
  | (.ok cpu, some (.ok gpu)) => (cpu, gpu)
  | (.ok cpu, some .failed) => (cpu, .empty)
  | (.failed, some (.ok gpu)) => (.empty, gpu)
  | _ => (.empty, .empty)

/-- Reads that are as good as each other. A read that failed is as good as one of the empty reading,
and a crash of either is as good as a failure of both. -/
inductive AsGood :
    Outcome CpuReading × Option (Outcome GpuReading) →
      Outcome CpuReading × Option (Outcome GpuReading) → Prop
  | refl (reads) : AsGood reads reads
  | symm {reads others} (same : AsGood reads others) : AsGood others reads
  | trans {reads others last} (first : AsGood reads others) (second : AsGood others last) :
      AsGood reads last
  | cpuFailed (gpu) : AsGood (.failed, some gpu) (.ok .empty, some gpu)
  | gpuFailed (cpu) : AsGood (cpu, some .failed) (cpu, some (.ok .empty))
  | cpuCrashed : AsGood (.crashed, none) (.failed, some .failed)
  | gpuCrashed (cpu) : AsGood (cpu, some .crashed) (.failed, some .failed)

theorem AsGood.counted_eq {reads others : Outcome CpuReading × Option (Outcome GpuReading)}
    (same : AsGood reads others) : counted reads = counted others := by
  induction same with
  | refl => rfl
  | symm _ ih => exact ih.symm
  | trans _ _ first second => exact first.trans second
  | cpuFailed gpu => cases gpu <;> rfl
  | gpuFailed cpu | gpuCrashed cpu => cases cpu <;> rfl
  | cpuCrashed => rfl

theorem Host.sense_eq (host : Host σ) (hints : Nat) (w : σ) :
    host.sense hints w = (counted (host.reads hints w).1, (host.reads hints w).2) := by
  rw [sense, reads]
  obtain ⟨cpu, next⟩ := host.readCpu hints w
  cases cpu with
  | crashed => rfl
  | ok | failed =>
    dsimp only
    obtain ⟨gpu, next⟩ := host.readGpu hints next
    cases gpu <;> rfl

theorem Host.reads_logged (host : Host σ) (hints : Nat) (calls : List Call) (w : σ) :
    host.logged.reads hints (calls, w) =
      ((host.reads hints w).1, host.readCalls hints w ++ calls, (host.reads hints w).2) := by
  rw [reads, logged_readCpu, reads, readCalls]
  obtain ⟨cpu, next⟩ := host.readCpu hints w
  cases cpu <;> rfl

/-! ## Two hosts, side by side -/

/-- Two hosts, with a relation between their states that every call keeps. They show the same times,
and their reads are as good as each other. Nothing is said of how a command ends. -/
structure Alike (host₁ : Host σ₁) (host₂ : Host σ₂) (R : σ₁ → σ₂ → Prop) : Prop where
  live : host₁.live = host₂.live
  keepsHistory : host₁.keepsHistory = host₂.keepsHistory
  now : ∀ {w₁ w₂}, R w₁ w₂ → host₁.now w₁ = host₂.now w₂
  reads : ∀ {w₁ w₂}, R w₁ w₂ → ∀ hints,
    AsGood (host₁.reads hints w₁).1 (host₂.reads hints w₂).1 ∧
      R (host₁.reads hints w₁).2 (host₂.reads hints w₂).2
  perform : ∀ {w₁ w₂}, R w₁ w₂ → ∀ command,
    R (host₁.perform command w₁).2 (host₂.perform command w₂).2

/-- The first sensor crashes for both hosts or for neither. -/
def CrashTogether (host₁ : Host σ₁) (host₂ : Host σ₂) (R : σ₁ → σ₂ → Prop) : Prop :=
  ∀ w₁ w₂, R w₁ w₂ → ∀ hints,
    (host₁.readCpu hints w₁).1 = .crashed ↔ (host₂.readCpu hints w₂).1 = .crashed

/-- The call is not one of the second sensor. -/
def Call.isShared : Call → Bool
  | .readGpu _ => false
  | _ => true

section Logs

variable {host₁ : Host σ₁} {host₂ : Host σ₂} {R : σ₁ → σ₂ → Prop}

/-- A relation between the calls that the hosts keep, which the calls of a cycle do not disturb. -/
structure Keeps (host₁ : Host σ₁) (host₂ : Host σ₂) (R : σ₁ → σ₂ → Prop)
    (L : List Call → List Call → Prop) : Prop where
  reads : ∀ {w₁ w₂}, R w₁ w₂ → ∀ {calls₁ calls₂}, L calls₁ calls₂ → ∀ hints,
    L (host₁.readCalls hints w₁ ++ calls₁) (host₂.readCalls hints w₂ ++ calls₂)
  perform : ∀ {calls₁ calls₂}, L calls₁ calls₂ → ∀ command,
    L (.perform command :: calls₁) (.perform command :: calls₂)

theorem filter_readCalls (host : Host σ) (hints : Nat) (w : σ) :
    (host.readCalls hints w).filter Call.isShared = [.readCpu hints] := by
  rw [Host.readCalls]
  split <;> rfl

theorem readCalls_eq (together : CrashTogether host₁ host₂ R) {w₁ : σ₁} {w₂ : σ₂}
    (related : R w₁ w₂) (hints : Nat) :
    host₁.readCalls hints w₁ = host₂.readCalls hints w₂ := by
  have same := together w₁ w₂ related hints
  rw [Host.readCalls, Host.readCalls]
  cases first : (host₁.readCpu hints w₁).1 with
  | crashed => rw [same.mp first]
  | ok | failed =>
    cases second : (host₂.readCpu hints w₂).1 with
    | crashed => cases first.symm.trans (same.mpr second)
    | ok | failed => rfl

theorem keeps_shared (host₁ : Host σ₁) (host₂ : Host σ₂) (R : σ₁ → σ₂ → Prop) :
    Keeps host₁ host₂ R fun calls₁ calls₂ =>
      calls₁.filter Call.isShared = calls₂.filter Call.isShared where
  reads _ _ _ same hints := by
    rw [List.filter_append, List.filter_append, filter_readCalls, filter_readCalls, same]
  perform same command := by
    rw [List.filter_cons_of_pos rfl, List.filter_cons_of_pos rfl, same]

theorem keeps_all (together : CrashTogether host₁ host₂ R) : Keeps host₁ host₂ R Eq where
  reads related _ _ same hints := by rw [readCalls_eq together related hints, same]
  perform same command := by rw [same]

/-- Hosts that are alike stay so when they keep their calls. -/
theorem Alike.logged (alike : Alike host₁ host₂ R) {L : List Call → List Call → Prop}
    (keeps : Keeps host₁ host₂ R L) :
    Alike host₁.logged host₂.logged fun w₁ w₂ => R w₁.2 w₂.2 ∧ L w₁.1 w₂.1 where
  live := alike.live
  keepsHistory := alike.keepsHistory
  now related := alike.now related.1
  reads {w₁ w₂} related hints := by
    obtain ⟨same, kept⟩ := alike.reads related.1 hints
    rw [Host.reads_logged, Host.reads_logged]
    exact ⟨same, kept, keeps.reads related.1 related.2 hints⟩
  perform related command :=
    ⟨alike.perform related.1 command, keeps.perform related.2 command⟩

end Logs

/-! ## Cycles -/

/-- Two cycles have come equally far, with the same state. -/
structure Progress.InStep (R : σ₁ → σ₂ → Prop) (p₁ : Progress σ₁) (p₂ : Progress σ₂) : Prop where
  phase : p₁.phase = p₂.phase
  state : p₁.state = p₂.state
  world : R p₁.world p₂.world

section Runs

variable {host₁ : Host σ₁} {host₂ : Host σ₂} {R : σ₁ → σ₂ → Prop} {s : Settings}
  {w₁ : σ₁} {w₂ : σ₂}

theorem Alike.sense (alike : Alike host₁ host₂ R) (related : R w₁ w₂) (hints : Nat) :
    (host₁.sense hints w₁).1 = (host₂.sense hints w₂).1 ∧
      R (host₁.sense hints w₁).2 (host₂.sense hints w₂).2 := by
  obtain ⟨same, kept⟩ := alike.reads related hints
  rw [Host.sense_eq, Host.sense_eq]
  exact ⟨same.counted_eq, kept⟩

/-- Each phase keeps two cycles in step. -/
theorem Progress.InStep.advance (alike : Alike host₁ host₂ R) {p₁ : Progress σ₁}
    {p₂ : Progress σ₂} (inStep : InStep R p₁ p₂) :
    InStep R (p₁.advance host₁ s) (p₂.advance host₂ s) := by
  obtain ⟨phase, st, w₁⟩ := p₁
  obtain ⟨_, _, w₂⟩ := p₂
  obtain ⟨rfl, rfl, related⟩ := inStep
  cases phase with
  | started | sensed =>
    simp only [Progress.advance, alike.now related]
    split <;> exact ⟨rfl, rfl, related⟩
  | counted hints =>
    obtain ⟨readings, kept⟩ := alike.sense related hints
    simp only [Progress.advance, readings]
    exact ⟨rfl, rfl, kept⟩
  | timed cpu gpu now =>
    simp only [Progress.advance]
    split <;> exact ⟨rfl, rfl, related⟩
  | decided report =>
    exact ⟨rfl, rfl, alike.perform related _⟩
  | driven report =>
    simp only [Progress.advance, alike.keepsHistory]
    split
    · exact ⟨rfl, rfl, alike.perform related _⟩
    · exact ⟨rfl, rfl, related⟩
  | finished | aborted => exact ⟨rfl, rfl, related⟩

theorem Progress.InStep.repeat (alike : Alike host₁ host₂ R) (n : Nat) {p₁ : Progress σ₁}
    {p₂ : Progress σ₂} (inStep : InStep R p₁ p₂) :
    InStep R (Nat.repeat (Progress.advance host₁ s) n p₁)
      (Nat.repeat (Progress.advance host₂ s) n p₂) := by
  induction n with
  | zero => exact inStep
  | succ n ih => exact ih.advance alike

theorem Alike.cycle (alike : Alike host₁ host₂ R) (related : R w₁ w₂) (st : State) :
    Progress.InStep R (cycle host₁ s st w₁) (cycle host₂ s st w₂) :=
  Progress.InStep.repeat alike phaseCount ⟨rfl, rfl, related⟩

/-! ## The controller -/

/-- Two calls of a controller give the same answer, and leave the same controller. -/
def SameAnswer {α : Type} (R : σ₁ → σ₂ → Prop) (x₁ : α × Controller × σ₁)
    (x₂ : α × Controller × σ₂) : Prop :=
  ∃ answer c w₁ w₂, x₁ = (answer, c, w₁) ∧ x₂ = (answer, c, w₂) ∧ R w₁ w₂

namespace Alike

theorem runCycle (alike : Alike host₁ host₂ R) (related : R w₁ w₂) (c : Controller) :
    SameAnswer R (c.runCycle host₁ s w₁) (c.runCycle host₂ s w₂) := by
  have inStep := alike.cycle (s := s) related c.state
  rw [Controller.runCycle, Controller.runCycle, inStep.phase, inStep.state]
  exact ⟨_, _, _, _, rfl, rfl, inStep.world⟩

theorem start (alike : Alike host₁ host₂ R) (related : R w₁ w₂) (c : Controller) :
    SameAnswer R (c.start host₁ s w₁) (c.start host₂ s w₂) := by
  rw [Controller.start, Controller.start]
  split
  · exact ⟨_, _, _, _, rfl, rfl, related⟩
  · obtain ⟨report, c, w₁, w₂, first, second, related⟩ :=
      alike.runCycle (s := s) (alike.perform related .enableManual)
        { c with running := true, starts := c.starts + 1 }
    simp only [first, second]
    cases report with
    | none => exact ⟨_, _, _, _, rfl, rfl, related⟩
    | some report =>
      dsimp only
      split <;> exact ⟨_, _, _, _, rfl, rfl, related⟩

theorem stop (alike : Alike host₁ host₂ R) (related : R w₁ w₂) (c : Controller) :
    SameAnswer R (c.stop host₁ w₁) (c.stop host₂ w₂) := by
  rw [Controller.stop, Controller.stop, alike.live]
  split
  · split
    · exact ⟨_, _, _, _, rfl, rfl, alike.perform related .restoreAuto⟩
    · exact ⟨_, _, _, _, rfl, rfl, related⟩
  · exact ⟨_, _, _, _, rfl, rfl, related⟩

theorem tick (alike : Alike host₁ host₂ R) (related : R w₁ w₂) (c : Controller) (l : Loop) :
    SameAnswer R (c.tick host₁ s l w₁) (c.tick host₂ s l w₂) := by
  rw [Controller.tick, Controller.tick]
  split
  · obtain ⟨report, c, w₁, w₂, first, second, related⟩ := alike.runCycle (s := s) related c
    simp only [first, second]
    cases report <;> exact ⟨_, _, _, _, rfl, rfl, related⟩
  · exact ⟨_, _, _, _, rfl, rfl, related⟩

theorem attend (alike : Alike host₁ host₂ R) (related : R w₁ w₂) (c : Controller) (l : Loop) :
    SameAnswer R (c.attend host₁ s l w₁) (c.attend host₂ s l w₂) := by
  rw [Controller.attend, Controller.attend]
  split
  · exact alike.tick related c l
  · exact ⟨_, _, _, _, rfl, rfl, related⟩

theorem ticks (alike : Alike host₁ host₂ R) (loops : List Loop) (related : R w₁ w₂)
    (c : Controller) :
    SameAnswer R (Controller.ticks host₁ s loops c w₁) (Controller.ticks host₂ s loops c w₂) := by
  induction loops generalizing c w₁ w₂ with
  | nil => exact ⟨_, _, _, _, rfl, rfl, related⟩
  | cons l rest ih =>
    obtain ⟨kept, next, v₁, v₂, first, second, related⟩ := alike.attend (s := s) related c l
    obtain ⟨others, last, v₁, v₂, firsts, seconds, related⟩ := ih related next
    rw [Controller.ticks_cons, Controller.ticks_cons, first, second]
    dsimp only
    rw [firsts, seconds]
    exact ⟨_, _, _, _, rfl, rfl, related⟩

theorem second (alike : Alike host₁ host₂ R) (related : R w₁ w₂) (c : Controller) :
    (c.second host₁ s w₁).1 = (c.second host₂ s w₂).1 ∧
      R (c.second host₁ s w₁).2 (c.second host₂ s w₂).2 := by
  obtain ⟨loops, last, v₁, v₂, first, second, related⟩ :=
    alike.ticks (s := s) c.loops related { c with timer := c.timer + 1 }
  rw [Controller.second, Controller.second]
  simp only [first, second, true_and]
  exact related

end Alike

end Runs

/-! ## What is heard from a plant -/

/-- What an operation answers. -/
inductive Reply where
  | report (report : Option Report)
  | started (outcome : Controller.Started)
  /-- There was something to stop, to remove or to clear. -/
  | found (something : Bool)
  | hint (result : Except OutOfCalendar Hint)
  | override (result : Except OutOfCalendar (Except Fault Override))
  | silent

namespace Plant

/-- What an operation answers. -/
def reply (host : Host σ) (s : Settings) (p : Plant σ) : Operation σ → Reply
  | .runCycle => .report (p.controller.runCycle host s p.world).1
  | .start => .started (p.controller.start host s p.world).1
  | .stop => .found (p.controller.stop host p.world).1
  | .addHint request =>
    .hint ((·.1) <$> (host.now p.world >>= p.controller.addHint request))
  | .removeHint source => .found (p.controller.state.registry.hasHint source)
  | .setOverride speed duration reason =>
    .override ((·.1) <$> (host.now p.world >>= p.controller.setOverride speed duration reason))
  | .clearOverride => .found p.controller.state.registry.override.isSome
  | .second | .turn _ => .silent

/-- The status that is shown. -/
def status (host : Host σ) (s : Settings) (p : Plant σ) : Except OutOfCalendar Status :=
  host.now p.world >>= p.controller.state.status s

/-- What is heard in a run: the answer to each operation, and the status after it. -/
def heard (host : Host σ) (s : Settings) (p : Plant σ) :
    List (Operation σ) → List (Reply × Except OutOfCalendar Status)
  | [] => []
  | operation :: rest =>
    let next := p.after host s operation
    (p.reply host s operation, next.status host s) :: next.heard host s rest

/-- Two plants that differ in their surroundings at most. -/
structure InStep (R : σ₁ → σ₂ → Prop) (p₁ : Plant σ₁) (p₂ : Plant σ₂) : Prop where
  controller : p₁.controller = p₂.controller
  reports : p₁.reports = p₂.reports
  world : R p₁.world p₂.world

end Plant

/-- The same operation on two plants. What happens around them keeps a relation. -/
inductive Operation.Matches (R : σ₁ → σ₂ → Prop) : Operation σ₁ → Operation σ₂ → Prop
  | runCycle : Matches R .runCycle .runCycle
  | start : Matches R .start .start
  | stop : Matches R .stop .stop
  | second : Matches R .second .second
  | addHint (request) : Matches R (.addHint request) (.addHint request)
  | removeHint (source) : Matches R (.removeHint source) (.removeHint source)
  | setOverride (speed duration reason) :
      Matches R (.setOverride speed duration reason) (.setOverride speed duration reason)
  | clearOverride : Matches R .clearOverride .clearOverride
  | turn {change₁ change₂} (keeps : ∀ w₁ w₂, R w₁ w₂ → R (change₁ w₁) (change₂ w₂)) :
      Matches R (.turn change₁) (.turn change₂)

theorem Operation.Matches.logged {R : σ₁ → σ₂ → Prop} {operation₁ : Operation σ₁}
    {operation₂ : Operation σ₂} (same : Matches R operation₁ operation₂)
    (L : List Call → List Call → Prop) :
    Matches (fun w₁ w₂ => R w₁.2 w₂.2 ∧ L w₁.1 w₂.1) operation₁.logged operation₂.logged := by
  cases same with
  | turn keeps => exact .turn fun w₁ w₂ related => ⟨keeps _ _ related.1, related.2⟩
  | _ => constructor

namespace Plant

variable {host₁ : Host σ₁} {host₂ : Host σ₂} {R : σ₁ → σ₂ → Prop} {s : Settings}
  {p₁ : Plant σ₁} {p₂ : Plant σ₂}

/-- An operation keeps two plants in step, and is answered by both in the same way. -/
theorem InStep.after (alike : Alike host₁ host₂ R) (inStep : InStep R p₁ p₂)
    {operation₁ : Operation σ₁} {operation₂ : Operation σ₂}
    (same : operation₁.Matches R operation₂) :
    p₁.reply host₁ s operation₁ = p₂.reply host₂ s operation₂ ∧
      InStep R (p₁.after host₁ s operation₁) (p₂.after host₂ s operation₂) := by
  obtain ⟨c, w₁, reports⟩ := p₁
  obtain ⟨_, w₂, _⟩ := p₂
  obtain ⟨rfl, rfl, related⟩ := inStep
  cases same with
  | runCycle =>
    obtain ⟨report, next, v₁, v₂, first, second, related⟩ := alike.runCycle (s := s) related c
    simp only [reply, Plant.after, first, second, true_and]
    exact ⟨rfl, rfl, related⟩
  | start =>
    obtain ⟨report, next, v₁, v₂, first, second, related⟩ := alike.start (s := s) related c
    simp only [reply, Plant.after, first, second, true_and]
    exact ⟨rfl, rfl, related⟩
  | stop =>
    obtain ⟨report, next, v₁, v₂, first, second, related⟩ := alike.stop related c
    simp only [reply, Plant.after, first, second, true_and]
    exact ⟨rfl, rfl, related⟩
  | second =>
    obtain ⟨same, related⟩ := alike.second (s := s) related c
    exact ⟨rfl, same, rfl, related⟩
  | addHint | setOverride =>
    simp only [reply, Plant.after, timed, alike.now related, true_and]
    split <;> exact ⟨rfl, rfl, related⟩
  | removeHint | clearOverride => exact ⟨rfl, rfl, rfl, related⟩
  | turn keeps => exact ⟨rfl, rfl, rfl, keeps w₁ w₂ related⟩

theorem InStep.status (alike : Alike host₁ host₂ R) (inStep : InStep R p₁ p₂) :
    p₁.status host₁ s = p₂.status host₂ s := by
  rw [Plant.status, Plant.status, alike.now inStep.world, inStep.controller]

/-- Runs of the same operations keep two plants in step, and the same is heard from both. -/
theorem InStep.run (alike : Alike host₁ host₂ R) {operations₁ : List (Operation σ₁)}
    {operations₂ : List (Operation σ₂)}
    (same : List.Forall₂ (Operation.Matches R) operations₁ operations₂)
    (inStep : InStep R p₁ p₂) :
    p₁.heard host₁ s operations₁ = p₂.heard host₂ s operations₂ ∧
      InStep R (p₁.run host₁ s operations₁) (p₂.run host₂ s operations₂) := by
  induction same generalizing p₁ p₂ with
  | nil => exact ⟨rfl, inStep⟩
  | cons first _ ih =>
    obtain ⟨answer, next⟩ := inStep.after (s := s) alike first
    obtain ⟨rest, last⟩ := ih next
    rw [heard, heard, answer, next.status alike, rest]
    exact ⟨rfl, last⟩

end Plant

/-! ## The calls of a run -/

/-- The calls of a cycle that began in these surroundings, newest first. A cycle that comes to its
report makes one command for the speed, and one for the history if there is one. -/
inductive CycleCalls (host : Host σ) (w : σ) : Option Report → List Call → Prop
  | untimed : CycleCalls host w none []
  | brokenOff (hints : Nat) : CycleCalls host w none (host.readCalls hints w)
  | carriedOut (hints : Nat) (report : Report) :
      CycleCalls host w (some report) (host.conclusion report ++ host.readCalls hints w)

/-- Calls, newest first, that are those of whole cycles, and of taking over the fans and giving them
back in between. -/
inductive InCycles (host : Host σ) : List Call → Prop
  | nil : InCycles host []
  | enableManual {calls : List Call} (before : InCycles host calls) :
      InCycles host (.perform .enableManual :: calls)
  | restoreAuto {calls : List Call} (before : InCycles host calls) :
      InCycles host (.perform .restoreAuto :: calls)
  | cycle {calls new : List Call} {w : σ} {report : Option Report} (before : InCycles host calls)
      (made : CycleCalls host w report new) : InCycles host (new ++ calls)

variable {host : Host σ} {s : Settings}

theorem sense_logged_calls (host : Host σ) (hints : Nat) (calls : List Call) (w : σ) :
    (host.logged.sense hints (calls, w)).2.1 = host.readCalls hints w ++ calls := by
  rw [Host.sense_eq, Host.reads_logged]

theorem cycle_calls (host : Host σ) (s : Settings) (st : State) (calls : List Call) (w : σ) :
    ∃ new, CycleCalls host w (cycle host.logged s st (calls, w)).phase.report? new ∧
      (cycle host.logged s st (calls, w)).world.1 = new ++ calls := by
  obtain ⟨w', run, rfl | ⟨hints, rfl⟩⟩ | ⟨hints, _, _, _, -, -, run⟩ |
    ⟨hints, _, _, report, -, -, run⟩ := cycle_cases host.logged s st (calls, w)
  all_goals rw [run]
  · exact ⟨_, .untimed, rfl⟩
  · exact ⟨_, .brokenOff hints, sense_logged_calls host hints calls w⟩
  · exact ⟨_, .brokenOff hints, sense_logged_calls host hints calls w⟩
  · refine ⟨_, .carriedOut hints report, ?_⟩
    rw [List.append_assoc, ← sense_logged_calls host hints calls w]
    exact carryOut_logged host _ _ report

theorem lasting_inCycles (host : Host σ) (s : Settings) :
    Lasting host.logged s fun _ w => InCycles host w.1 where
  cycle {st w} before := by
    obtain ⟨new, made, same⟩ := cycle_calls host s st w.1 w.2
    exact same ▸ before.cycle made
  enableManual before := before.enableManual
  restoreAuto before := before.restoreAuto
  request _ before := before

theorem run_inCycles (host : Host σ) (s : Settings) (w : σ) (operations : List (Operation σ)) :
    InCycles host
      ((Plant.new s ([], w)).run host.logged s (operations.map .logged)).world.1 := by
  refine Plant.run_lasting (lasting_inCycles host s) _ ?_ .nil
  intro change turned st w before
  obtain ⟨operation, -, same⟩ := List.mem_map.mp turned
  cases operation <;> cases same
  exact before

/-- Two runs of the same operations, whose surroundings show the same times and give reads that are
as good as each other, while the commands end in whatever way: the same is heard from both, the
controllers and the reports stay the same, and so do the calls, apart from those of a second sensor
that is not asked once the first has crashed. Every cycle makes one command for the speed, and one
for the history if there is one. -/
theorem failures_stay_outside (s : Settings) {host₁ : Host σ₁} {host₂ : Host σ₂}
    {R : σ₁ → σ₂ → Prop} (alike : Alike host₁ host₂ R) {w₁ : σ₁} {w₂ : σ₂} (related : R w₁ w₂)
    {operations₁ : List (Operation σ₁)} {operations₂ : List (Operation σ₂)}
    (same : List.Forall₂ (Operation.Matches R) operations₁ operations₂) :
    let begin₁ := Plant.new s ([], w₁)
    let begin₂ := Plant.new s ([], w₂)
    let logged₁ := operations₁.map .logged
    let logged₂ := operations₂.map .logged
    let end₁ := begin₁.run host₁.logged s logged₁
    let end₂ := begin₂.run host₂.logged s logged₂
    begin₁.heard host₁.logged s logged₁ = begin₂.heard host₂.logged s logged₂ ∧
      end₁.controller = end₂.controller ∧ end₁.reports = end₂.reports ∧
      end₁.world.1.filter Call.isShared = end₂.world.1.filter Call.isShared ∧
      (CrashTogether host₁ host₂ R → end₁.world.1 = end₂.world.1) ∧
      InCycles host₁ end₁.world.1 ∧ InCycles host₂ end₂.world.1 ∧
      ∀ st calls w, ∃ new,
        CycleCalls host₁ w (cycle host₁.logged s st (calls, w)).phase.report? new ∧
          (cycle host₁.logged s st (calls, w)).world.1 = new ++ calls := by
  intro begin₁ begin₂ logged₁ logged₂ end₁ end₂
  have runs : ∀ {L : List Call → List Call → Prop}, Keeps host₁ host₂ R L → L [] [] →
      begin₁.heard host₁.logged s logged₁ = begin₂.heard host₂.logged s logged₂ ∧
        Plant.InStep (fun w₁ w₂ => R w₁.2 w₂.2 ∧ L w₁.1 w₂.1) end₁ end₂ := by
    intro L keeps empty
    refine Plant.InStep.run (alike.logged keeps) ?_ ⟨rfl, rfl, related, empty⟩
    rw [List.forall₂_map_left_iff, List.forall₂_map_right_iff]
    exact same.imp fun _ _ same => same.logged L
  obtain ⟨heard, inStep⟩ := runs (keeps_shared host₁ host₂ R) rfl
  refine ⟨heard, inStep.controller, inStep.reports, inStep.world.2, fun together => ?_,
    run_inCycles host₁ s w₁ operations₁, run_inCycles host₂ s w₂ operations₂,
    cycle_calls host₁ s⟩
  exact (runs (keeps_all together) rfl).2.world.2

/-- Surroundings where the time stands still and no read succeeds. The commands succeed, fail and
crash in turn. -/
def Host.failing (t : Instant) : Host Nat where
  now _ := .ok t
  readCpu _ n := (.failed, n)
  readGpu _ n := (.crashed, n)
  perform _ n := (if n % 3 = 0 then .ok () else if n % 3 = 1 then .failed else .crashed, n + 1)
  live := true
  keepsHistory := true

/-- They cannot be told from surroundings where every command succeeds and nothing is read. -/
theorem failing_not_noticed :
    let still := Host.still (.ofMillis 1748764800000) .empty .empty
    let failing := Host.failing (.ofMillis 1748764800000)
    let ending₁ := (Plant.new .default ([], ())).run still.logged .default
      ([.start, .second, .runCycle, .stop].map .logged)
    let ending₂ := (Plant.new .default ([], 0)).run failing.logged .default
      ([.start, .second, .runCycle, .stop].map .logged)
    Alike still failing (fun _ _ => True) ∧ CrashTogether still failing (fun _ _ => True) ∧
      ending₁.world.1 = ending₂.world.1 ∧ ending₁.world.1.length = 10 := by
  intro still failing ending₁ ending₂
  have asGood : AsGood (.ok .empty, some (.ok .empty)) (.failed, some .crashed) :=
    (AsGood.gpuFailed _).symm.trans ((AsGood.cpuFailed _).symm.trans (AsGood.gpuCrashed _).symm)
  have alike : Alike still failing (fun _ _ => True) :=
    ⟨rfl, rfl, fun _ => rfl, fun _ _ => ⟨asGood, trivial⟩, fun _ _ => trivial⟩
  have together : CrashTogether still failing (fun _ _ => True) :=
    fun _ _ _ _ => ⟨nofun, nofun⟩
  have same : List.Forall₂ (Operation.Matches fun (_ : Unit) (_ : Nat) => True)
      [.start, .second, .runCycle, .stop] [.start, .second, .runCycle, .stop] :=
    .cons .start (.cons .second (.cons .runCycle (.cons .stop .nil)))
  obtain ⟨-, -, -, -, sameCalls, -⟩ := failures_stay_outside .default alike trivial same
  exact ⟨alike, together, sameCalls together, by decide⟩

end ChassisCooling.Control
