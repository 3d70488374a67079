import ChassisCooling.Proofs.Endurance
import ChassisCooling.Proofs.Indifference

/-! # The schedule of the cycles

When a controller runs cycles of its own is told by the timer and by the time of the latest start
alone, as long as that start has not been stopped. Loops of earlier starts may still be there, and
notices of earlier stops may still reach any loop: what decides is that one loop bears the number of
the latest start, and that its next tick is the first whole period after the present.
-/

namespace ChassisCooling

theorem Monitoring.period_pos (m : Monitoring) : 0 < m.period :=
  Nat.le_max_right _ _

namespace Control

open Calendar

variable {σ : Type}

/-! ## What can happen -/

/-- An operation, or the effect of something that was left behind by an earlier run. -/
inductive Happening (σ : Type) where
  | operation (operation : Operation σ)
  /-- A notice of a stop, which no loop had taken, reaches the loops. -/
  | notice
  /-- A loop that is not wanted any more is still there. -/
  | leftover (l : Loop)

/-- What happens to a plant whose calls are kept. -/
def Happening.logged : Happening σ → Happening (List Call × σ)
  | .operation asked => .operation asked.logged
  | .notice => .notice
  | .leftover l => .leftover l

namespace Controller

/-- A notice of a stop reaches the loops. -/
def notice (c : Controller) : Controller :=
  wake { c with wakeUp := true }

/-- A loop is still there, unless it would be wanted, or bears a number that is yet to come. -/
def keepLoop (c : Controller) (l : Loop) : Controller :=
  if c.wants l || c.starts < l.number then c else { c with loops := l :: c.loops }

end Controller

/-- The answer to what happens, and the plant afterwards. -/
def Plant.undergo (host : Host σ) (s : Settings) (p : Plant σ) : Happening σ → Reply × Plant σ
  | .operation operation => (p.reply host s operation, p.after host s operation)
  | .notice => (.silent, { p with controller := p.controller.notice })
  | .leftover l => (.silent, { p with controller := p.controller.keepLoop l })

/-! ## Schedules -/

/-- The time of the timer, and the time of the latest start if that has not been stopped. -/
structure Schedule where
  timer : Nat
  since : Option Nat

namespace Schedule

/-- One second later. -/
def second (schedule : Schedule) : Schedule :=
  { schedule with timer := schedule.timer + 1 }

/-- What happens to a schedule. -/
def next (schedule : Schedule) : Happening σ → Schedule
  | .operation .start => { schedule with since := schedule.since.or (some schedule.timer) }
  | .operation .stop => { schedule with since := none }
  | .operation .second => schedule.second
  | _ => schedule

/-- Whole periods have gone by since the start, at least one. -/
def IsDue (m : Monitoring) (schedule : Schedule) : Prop :=
  ∃ since k, schedule.since = some since ∧ 1 ≤ k ∧ schedule.timer = since + k * m.period

/-- The answer to what happens, and the calls that are made for it, newest first. A cycle that
begins in some surroundings makes calls of a cycle that begins there. -/
inductive Expects (host : Host σ) (m : Monitoring) (w : σ) (schedule : Schedule) :
    Happening σ → Reply → List Call → Prop
  | start {report : Report} {new : List Call} (idle : schedule.since = none)
      (made : CycleCalls host (host.perform .enableManual w).2 (some report) new) :
      Expects host m w schedule (.operation .start) (.started .started)
        (new ++ [.perform .enableManual])
  | refuse (running : schedule.since ≠ none) :
      Expects host m w schedule (.operation .start) (.started (.refused .alreadyRunning)) []
  | stop (running : schedule.since ≠ none) :
      Expects host m w schedule (.operation .stop) (.found true)
        (if host.live then [.perform .restoreAuto] else [])
  | ignore (idle : schedule.since = none) :
      Expects host m w schedule (.operation .stop) (.found false) []
  | tick {report : Report} {new : List Call} (due : schedule.second.IsDue m)
      (made : CycleCalls host w (some report) new) :
      Expects host m w schedule (.operation .second) .silent new
  | pass (notDue : ¬ schedule.second.IsDue m) :
      Expects host m w schedule (.operation .second) .silent []
  | runCycle {report : Report} {new : List Call} (made : CycleCalls host w (some report) new) :
      Expects host m w schedule (.operation .runCycle) (.report (some report)) new
  | request {operation : Operation σ} (isRequest : operation.isRequest = true) (reply : Reply) :
      Expects host m w schedule (.operation operation) reply []
  | turn (change : σ → σ) : Expects host m w schedule (.operation (.turn change)) .silent []
  | notice : Expects host m w schedule .notice .silent []
  | leftover (l : Loop) : Expects host m w schedule (.leftover l) .silent []

end Schedule

/-- The first tick after a time, of a loop that began at another. -/
structure IsNextTick (period since timer tick : Nat) : Prop where
  whole : ∃ k, tick = since + (k + 1) * period ∧ since + k * period ≤ timer
  after : timer < tick

/-- A controller goes by a schedule: it runs exactly while it is started, and then one loop is
wanted, which waits for the first tick to come; else none is. No loop bears a number that is yet to
come. -/
structure Controller.GoesBy (m : Monitoring) (schedule : Schedule) (c : Controller) : Prop where
  timer : c.timer = schedule.timer
  running : c.running = schedule.since.isSome
  numbers : ∀ l ∈ c.loops, l.number ≤ c.starts
  idle : schedule.since = none → c.loops.filter c.wants = []
  ticking : ∀ since, schedule.since = some since →
    ∃ tick, c.loops.filter c.wants = [⟨c.starts, tick⟩] ∧
      IsNextTick m.period since schedule.timer tick

/-- What a schedule takes for granted: a cycle that is run comes to its report, and the timer can
wait for the first tick of a loop that begins. -/
def Schedule.Grants (host : Host σ) (s : Settings) (schedule : Schedule)
    (p : Plant (List Call × σ)) : Happening σ → Prop
  | .operation .start => schedule.since = none →
      (∃ report, (cycle host.logged s p.controller.state
        (host.logged.perform .enableManual p.world).2).phase.report? = some report) ∧
      schedule.timer + s.monitoring.period ≤ lastTick
  | .operation .second => schedule.second.IsDue s.monitoring →
      ∃ report, (cycle host.logged s p.controller.state p.world).phase.report? = some report
  | .operation .runCycle =>
      ∃ report, (cycle host.logged s p.controller.state p.world).phase.report? = some report
  | _ => True

/-- All is granted that a schedule needs in a run. -/
def Schedule.GrantsAll (host : Host σ) (s : Settings) (schedule : Schedule)
    (p : Plant (List Call × σ)) : List (Happening σ) → Prop
  | [] => True
  | happening :: rest => schedule.Grants host s p happening ∧
      (schedule.next happening).GrantsAll host s (p.undergo host.logged s happening.logged).2 rest

/-- A schedule governs a run of a plant whose calls are kept: the controller goes by it all the
time, and each happening is answered, and makes the calls, as the schedule says. -/
inductive Schedule.Governs (host : Host σ) (s : Settings) :
    Schedule → Plant (List Call × σ) → List (Happening σ) → Prop
  | nil {schedule : Schedule} {p : Plant (List Call × σ)}
      (held : p.controller.GoesBy s.monitoring schedule) : Governs host s schedule p []
  | cons {schedule : Schedule} {p next : Plant (List Call × σ)} {happening : Happening σ}
      {rest : List (Happening σ)} {reply : Reply} {new : List Call}
      (held : p.controller.GoesBy s.monitoring schedule)
      (happens : p.undergo host.logged s happening.logged = (reply, next))
      (expected : schedule.Expects host s.monitoring p.world.2 happening reply new)
      (calls : next.world.1 = new ++ p.world.1)
      (later : Governs host s (schedule.next happening) next rest) :
      Governs host s schedule p (happening :: rest)

/-! ## Loops that are not wanted -/

namespace Controller

variable (host : Host σ) (s : Settings) {c : Controller} {w : σ} {l : Loop} {loops : List Loop}

@[simp] theorem wake_running (c : Controller) : c.wake.running = c.running := by
  rw [wake]
  split <;> rfl

@[simp] theorem wake_starts (c : Controller) : c.wake.starts = c.starts := by
  rw [wake]
  split <;> rfl

@[simp] theorem wake_timer (c : Controller) : c.wake.timer = c.timer := by
  rw [wake]
  split <;> rfl

@[simp] theorem wake_wants (c : Controller) : c.wake.wants = c.wants := by
  funext l
  rw [wants, wants, wake_running, wake_starts]

/-- Whoever is woken, the loops that are wanted stay. -/
theorem filter_wake (c : Controller) :
    c.wake.loops.filter c.wants = c.loops.filter c.wants ∧ c.wake.loops.Sublist c.loops := by
  rw [wake]
  split
  · next l rest _ same =>
    rw [same]
    by_cases wanted : c.wants l = true
    · rw [if_pos wanted]
      exact ⟨rfl, .refl _⟩
    · rw [if_neg wanted, List.filter_cons_of_neg wanted]
      exact ⟨rfl, List.sublist_cons_self l rest⟩
  · exact ⟨rfl, .refl _⟩

/-- A loop that is not wanted waits on, or ends. -/
theorem attend_of_not_wants (unwanted : c.wants l = false) :
    ∃ kept : Option Loop, c.attend host s l w = (kept, c, w) ∧ kept.toList.Sublist [l] := by
  rw [attend, tick, unwanted]
  split
  · exact ⟨none, rfl, List.nil_sublist _⟩
  · exact ⟨some l, rfl, .refl _⟩

/-- A second makes nothing of loops that are not wanted, but that some of them end. -/
theorem ticks_of_not_wants (unwanted : ∀ l ∈ loops, c.wants l = false) :
    ∃ kept, ticks host s loops c w = (kept, c, w) ∧ kept.Sublist loops := by
  induction loops with
  | nil => exact ⟨[], rfl, .refl _⟩
  | cons l rest ih =>
    obtain ⟨here, later⟩ := List.forall_mem_cons.mp unwanted
    obtain ⟨first, attended, fewer⟩ := attend_of_not_wants host s (w := w) here
    obtain ⟨others, run, fewerLater⟩ := ih later
    refine ⟨first.toList ++ others, ?_, fewer.append fewerLater⟩
    rw [ticks_cons, attended]
    dsimp only
    rw [run]

theorem ticks_append (first later : List Loop) (c : Controller) (w : σ) :
    ticks host s (first ++ later) c w =
      let done := ticks host s first c w
      let others := ticks host s later done.2.1 done.2.2
      (done.1 ++ others.1, others.2) := by
  induction first generalizing c w with
  | nil => rfl
  | cons l rest ih =>
    simp only [List.cons_append, ticks_cons, ih, List.append_assoc]

/-- Among loops that are not wanted, the one that is does in a second what it would do alone. -/
theorem ticks_of_wants {before after : List Loop} (unwanted : ∀ l ∈ before, c.wants l = false)
    {kept : Option Loop} {c' : Controller} {w' : σ}
    (attended : c.attend host s l w = (kept, c', w'))
    (unwantedLater : ∀ l ∈ after, c'.wants l = false) :
    ∃ earlier later, ticks host s (before ++ l :: after) c w =
        (earlier ++ kept.toList ++ later, c', w') ∧
      earlier.Sublist before ∧ later.Sublist after := by
  obtain ⟨earlier, run, fewer⟩ := ticks_of_not_wants host s (w := w) unwanted
  obtain ⟨later, runLater, fewerLater⟩ := ticks_of_not_wants host s (w := w') unwantedLater
  refine ⟨earlier, later, ?_, fewer, fewerLater⟩
  simp only [ticks_append, run, ticks_cons, attended, runLater, List.append_assoc]

end Controller

/-! ## What keeps to the schedule -/

theorem runCycle_calls (host : Host σ) (s : Settings) (c : Controller) (calls : List Call) (w : σ)
    {report : Report}
    (completes : (cycle host.logged s c.state (calls, w)).phase.report? = some report) :
    ∃ new st' w', CycleCalls host w (some report) new ∧
      c.runCycle host.logged s (calls, w) =
        (some report, { c with state := st' }, new ++ calls, w') := by
  obtain ⟨new, made, same⟩ := cycle_calls host s c.state calls w
  rw [completes] at made
  refine ⟨new, (cycle host.logged s c.state (calls, w)).state,
    (cycle host.logged s c.state (calls, w)).world.2, made, ?_⟩
  rw [Controller.runCycle, completes, ← same]

namespace Controller.GoesBy

variable {m : Monitoring} {schedule : Schedule} {c : Controller}

theorem withState (held : c.GoesBy m schedule) (state : State) :
    { c with state }.GoesBy m schedule :=
  ⟨held.timer, held.running, held.numbers, held.idle, held.ticking⟩

theorem withNotice (held : c.GoesBy m schedule) : { c with wakeUp := true }.GoesBy m schedule :=
  ⟨held.timer, held.running, held.numbers, held.idle, held.ticking⟩

/-- A loop that is woken changes nothing. -/
theorem wake (held : c.GoesBy m schedule) : c.wake.GoesBy m schedule := by
  obtain ⟨wanted, fewer⟩ := filter_wake c
  refine ⟨by rw [wake_timer, held.timer], by rw [wake_running, held.running], ?_, ?_, ?_⟩
  · intro l among
    rw [wake_starts]
    exact held.numbers l (fewer.subset among)
  · intro idle
    rw [wake_wants, wanted, held.idle idle]
  · intro since started
    rw [wake_wants, wanted, wake_starts]
    exact held.ticking since started

/-- Nor does a loop that is not wanted. -/
theorem keepLoop (held : c.GoesBy m schedule) (l : Loop) : (c.keepLoop l).GoesBy m schedule := by
  rw [Controller.keepLoop]
  split
  · exact held
  · next neither =>
    simp only [Bool.or_eq_true, decide_eq_true_eq, not_or, Nat.not_lt] at neither
    obtain ⟨unwanted, past⟩ := neither
    have same : (l :: c.loops).filter c.wants = c.loops.filter c.wants :=
      List.filter_cons_of_neg unwanted
    refine ⟨held.timer, held.running, List.forall_mem_cons.mpr ⟨past, held.numbers⟩, ?_, ?_⟩
    · exact fun idle => same.trans (held.idle idle)
    · intro since started
      obtain ⟨tick, wanted, next⟩ := held.ticking since started
      exact ⟨tick, same.trans wanted, next⟩

/-- A controller that does not run wants no loop. -/
theorem of_idle (timer : c.timer = schedule.timer) (idle : schedule.since = none)
    (running : c.running = false) (numbers : ∀ l ∈ c.loops, l.number ≤ c.starts) :
    c.GoesBy m schedule := by
  refine ⟨timer, by rw [running, idle]; rfl, numbers, fun _ => ?_, fun since started => ?_⟩
  · refine List.filter_eq_nil_iff.mpr fun l _ => ?_
    rw [wants, running]
    exact Bool.false_ne_true
  · rw [idle] at started
    cases started

/-- A start begins the one loop that is wanted. -/
theorem start (held : c.GoesBy m schedule) (state : State) :
    GoesBy m { schedule with since := some schedule.timer }
      { c with
        state
        running := true
        starts := c.starts + 1
        loops := c.loops ++ [⟨c.starts + 1, c.timer + m.period⟩] } := by
  set begun : Controller := { c with
    state
    running := true
    starts := c.starts + 1
    loops := c.loops ++ [⟨c.starts + 1, c.timer + m.period⟩] }
  have timer : begun.timer = schedule.timer := held.timer
  have past : c.loops.filter begun.wants = [] := by
    refine List.filter_eq_nil_iff.mpr fun l among => ?_
    have old := held.numbers l among
    simp only [begun, wants, Bool.true_and, beq_iff_eq]
    omega
  have newest : begun.wants ⟨c.starts + 1, c.timer + m.period⟩ = true := by
    simp only [begun, wants, Bool.true_and, beq_self_eq_true]
  refine ⟨timer, rfl, ?_, fun idle => absurd idle (Option.some_ne_none _), ?_⟩
  · intro l among
    obtain among | new := List.mem_append.mp among
    · exact Nat.le_succ_of_le (held.numbers l among)
    · cases List.mem_singleton.mp new
      exact Nat.le_refl _
  · rintro _ ⟨⟩
    have positive := m.period_pos
    refine ⟨schedule.timer + m.period, ?_, ⟨0, by rw [Nat.zero_add, Nat.one_mul], ?_⟩, ?_⟩
    · rw [List.filter_append, past, List.filter_cons_of_pos newest, held.timer]
      rfl
    · exact Nat.le_of_eq (by rw [Nat.zero_mul, Nat.add_zero])
    · exact Nat.lt_add_of_pos_right positive

/-- The loop that is wanted stays the only one, whatever becomes of the others. -/
theorem filter_of_kept {wants : Loop → Bool} {l : Loop} {earlier later before after : List Loop}
    (fewer : earlier.Sublist before) (unwanted : before.filter wants = [])
    (fewerLater : later.Sublist after) (unwantedLater : after.filter wants = [])
    (wanted : wants l = true) : (earlier ++ [l] ++ later).filter wants = [l] := by
  have none := List.sublist_nil.mp (unwanted ▸ fewer.filter wants)
  have noneLater := List.sublist_nil.mp (unwantedLater ▸ fewerLater.filter wants)
  rw [List.filter_append, List.filter_append, none, noneLater, List.filter_cons_of_pos wanted]
  rfl

end Controller.GoesBy

namespace IsNextTick

variable {period since timer tick : Nat}

/-- When the tick has come, the next one is a period later. -/
theorem come (next : IsNextTick period since timer tick) (positive : 0 < period)
    (now : tick = timer + 1) :
    (∃ k, 1 ≤ k ∧ timer + 1 = since + k * period) ∧
      IsNextTick period since (timer + 1) (tick + period) := by
  obtain ⟨⟨k, whole, past⟩, after⟩ := next
  refine ⟨⟨k + 1, Nat.le_add_left _ _, now.symm.trans whole⟩, ⟨k + 1, ?_, ?_⟩, ?_⟩
  · rw [whole, Nat.add_assoc, ← Nat.succ_mul]
  · exact Nat.le_of_eq (whole.symm.trans now)
  · omega

/-- As long as the tick has not come, none has. -/
theorem wait (next : IsNextTick period since timer tick) (other : tick ≠ timer + 1) :
    (¬ ∃ k, 1 ≤ k ∧ timer + 1 = since + k * period) ∧
      IsNextTick period since (timer + 1) tick := by
  obtain ⟨⟨k, whole, past⟩, after⟩ := next
  refine ⟨?_, ⟨k, whole, by omega⟩, by omega⟩
  rintro ⟨j, -, same⟩
  obtain before | later := Nat.lt_or_ge k j
  · have bound := Nat.mul_le_mul_right period before
    rw [Nat.succ_eq_add_one] at bound
    omega
  · have bound := Nat.mul_le_mul_right period later
    omega

end IsNextTick

namespace Controller.GoesBy

variable {host : Host σ} {s : Settings} {schedule : Schedule} {c : Controller}
  {calls : List Call} {w : σ}

/-- The loops that are left when the one that is wanted waits for another tick. -/
theorem keep {m : Monitoring} {c' : Controller} {since tick tick' : Nat}
    {before after earlier later : List Loop} (held : c.GoesBy m schedule)
    (started : schedule.since = some since) (same : c.loops = before ++ ⟨c.starts, tick⟩ :: after)
    (unwanted : before.filter c.wants = []) (wanted : c.wants ⟨c.starts, tick⟩ = true)
    (unwantedLater : after.filter c.wants = []) (timer : c'.timer = c.timer + 1)
    (running : c'.running = c.running) (starts : c'.starts = c.starts)
    (fewer : earlier.Sublist before) (fewerLater : later.Sublist after)
    (loops : c'.loops = earlier ++ [⟨c.starts, tick'⟩] ++ later)
    (next : IsNextTick m.period since (schedule.timer + 1) tick') :
    c'.GoesBy m schedule.second := by
  have wants : c'.wants = c.wants := by
    funext l
    rw [Controller.wants, Controller.wants, running, starts]
  refine ⟨by rw [timer, held.timer]; rfl, by rw [running, held.running]; rfl, ?_, ?_, ?_⟩
  · intro l among
    rw [starts]
    rw [loops, List.mem_append, List.mem_append] at among
    obtain (among | among) | among := among
    · exact held.numbers l (same ▸ List.mem_append_left _ (fewer.subset among))
    · cases List.mem_singleton.mp among
      exact Nat.le_refl _
    · exact held.numbers l
        (same ▸ List.mem_append_right _ (List.mem_cons_of_mem _ (fewerLater.subset among)))
  · intro idle
    exact absurd (started.symm.trans idle) (Option.some_ne_none since)
  · intro _ again
    cases started.symm.trans again
    refine ⟨tick', ?_, next⟩
    rw [loops, wants, starts]
    exact filter_of_kept fewer unwanted fewerLater unwantedLater wanted

theorem second_of_ticks {kept : List Loop} {c' : Controller} {w' : σ}
    (run : ticks host s c.loops { c with timer := c.timer + 1 } w = (kept, c', w')) :
    c.second host s w = ({ c' with loops := kept }, w') := by
  rw [Controller.second, run]

/-- A second goes by while the controller does not run. -/
theorem second_of_idle (held : c.GoesBy s.monitoring schedule) (idle : schedule.since = none) :
    ∃ c', c.second host s w = (c', w) ∧ c'.GoesBy s.monitoring schedule.second := by
  have unwanted : ∀ l ∈ c.loops, { c with timer := c.timer + 1 }.wants l = false :=
    fun l among => Bool.eq_false_iff.mpr (List.filter_eq_nil_iff.mp (held.idle idle) l among)
  obtain ⟨kept, run, fewer⟩ := ticks_of_not_wants host s (w := w) unwanted
  refine ⟨_, second_of_ticks run, of_idle ?_ idle ?_ fun l among => ?_⟩
  · exact congrArg (· + 1) held.timer
  · exact held.running.trans (by rw [idle]; rfl)
  · exact held.numbers l (fewer.subset among)

/-- A second goes by, and the cycle that is due is run. -/
theorem second (held : c.GoesBy s.monitoring schedule)
    (granted : schedule.second.IsDue s.monitoring →
      ∃ report, (cycle host.logged s c.state (calls, w)).phase.report? = some report) :
    ∃ new c' w', c.second host.logged s (calls, w) = (c', new ++ calls, w') ∧
      c'.GoesBy s.monitoring schedule.second ∧
      schedule.Expects host s.monitoring w (.operation .second) .silent new := by
  cases since : schedule.since with
  | none =>
    obtain ⟨c', run, kept⟩ : ∃ c', c.second host.logged s (calls, w) = (c', (calls, w)) ∧
        c'.GoesBy s.monitoring schedule.second := second_of_idle held since
    refine ⟨[], c', w, run, kept, .pass ?_⟩
    rintro ⟨since', k, started, -⟩
    cases since.symm.trans started
  | some since' =>
    obtain ⟨tick, wanted, next⟩ := held.ticking since' since
    obtain ⟨before, after, same, unwanted, newest, unwantedLater⟩ :=
      List.filter_eq_cons_iff.mp wanted
    have old : ∀ l ∈ before, c.wants l = false := fun l among =>
      Bool.eq_false_iff.mpr (unwanted l among)
    have oldLater : ∀ l ∈ after, c.wants l = false := fun l among =>
      Bool.eq_false_iff.mpr (List.filter_eq_nil_iff.mp unwantedLater l among)
    have noneBefore : before.filter c.wants = [] := List.filter_eq_nil_iff.mpr unwanted
    by_cases now : tick = schedule.timer + 1
    · obtain ⟨⟨k, one, whole⟩, nextTick⟩ := next.come s.monitoring.period_pos now
      have due : schedule.second.IsDue s.monitoring := ⟨since', k, since, one, whole⟩
      obtain ⟨report, completes⟩ := granted due
      obtain ⟨new, st', w', made, run⟩ := runCycle_calls host s
        { c with timer := c.timer + 1 } calls w completes
      have attended : attend host.logged s { c with timer := c.timer + 1 } ⟨c.starts, tick⟩
          (calls, w) = (some ⟨c.starts, tick + s.monitoring.period⟩,
            { c with timer := c.timer + 1, state := st' }, (new ++ calls, w')) := by
        have wants : { c with timer := c.timer + 1 }.wants ⟨c.starts, tick⟩ = true := newest
        rw [attend, if_pos (by rw [held.timer, now]), Controller.tick, if_pos wants, run]
      obtain ⟨earlier, later, ticked, fewer, fewerLater⟩ :=
        ticks_of_wants host.logged s (c := { c with timer := c.timer + 1 }) old attended oldLater
      rw [← same] at ticked
      refine ⟨new, _, w', second_of_ticks ticked, ?_, .tick due made⟩
      exact held.keep since same noneBefore newest unwantedLater rfl rfl rfl fewer fewerLater rfl
        nextTick
    · obtain ⟨notDue, nextTick⟩ := next.wait now
      have attended : attend host.logged s { c with timer := c.timer + 1 } ⟨c.starts, tick⟩
          (calls, w) = (some ⟨c.starts, tick⟩, { c with timer := c.timer + 1 }, (calls, w)) := by
        rw [attend, if_neg (by rwa [held.timer])]
      obtain ⟨earlier, later, ticked, fewer, fewerLater⟩ :=
        ticks_of_wants host.logged s (c := { c with timer := c.timer + 1 }) old attended oldLater
      rw [← same] at ticked
      refine ⟨[], _, w, second_of_ticks ticked, ?_, .pass ?_⟩
      · exact held.keep since same noneBefore newest unwantedLater rfl rfl rfl fewer fewerLater rfl
          nextTick
      · rintro ⟨_, k, started, one, whole⟩
        cases since.symm.trans started
        exact notDue ⟨k, one, whole⟩

/-- A start of a controller that does not run takes the fans over and runs a cycle. -/
theorem started (held : c.GoesBy s.monitoring schedule) (idle : schedule.since = none)
    {report : Report}
    (completes : (cycle host.logged s c.state
      (host.logged.perform .enableManual (calls, w)).2).phase.report? = some report)
    (fits : schedule.timer + s.monitoring.period ≤ lastTick) :
    ∃ new c' w', c.start host.logged s (calls, w) =
        (.started, c', new ++ [.perform .enableManual] ++ calls, w') ∧
      c'.GoesBy s.monitoring { schedule with since := some schedule.timer } ∧
      CycleCalls host (host.perform .enableManual w).2 (some report) new := by
  have off : ¬ c.running = true := by rw [held.running, idle]; exact Bool.false_ne_true
  obtain ⟨new, st', w', made, run⟩ := runCycle_calls host s
    { c with running := true, starts := c.starts + 1 } (.perform .enableManual :: calls)
    (host.perform .enableManual w).2 completes
  refine ⟨new, _, w', ?_, (held.start st').wake, made⟩
  rw [Controller.start, if_neg off, logged_perform]
  simp only [run]
  rw [if_pos (by rw [held.timer]; exact fits), List.append_assoc]
  rfl

/-- A stop of a controller that runs gives the fans back if they are real. -/
theorem stopped (held : c.GoesBy s.monitoring schedule) (running : c.running = true) :
    ∃ c' w', c.stop host.logged (calls, w) =
        (true, c', (if host.live then [.perform .restoreAuto] else []) ++ calls, w') ∧
      c'.GoesBy s.monitoring { schedule with since := none } := by
  have quiet : { c with running := false, wakeUp := true }.GoesBy s.monitoring
      { schedule with since := none } := of_idle held.timer rfl rfl held.numbers
  have same : host.logged.live = host.live := rfl
  simp only [Controller.stop, if_pos running, same]
  by_cases live : host.live = true
  · simp only [if_pos live]
    exact ⟨_, (host.perform .restoreAuto w).2, rfl, quiet.wake⟩
  · simp only [if_neg live]
    exact ⟨_, w, rfl, quiet.wake⟩

end Controller.GoesBy

/-! ## Runs -/

namespace Plant

variable {host : Host σ} {s : Settings} {p : Plant σ} {c' : Controller} {w' : σ}

theorem undergo_start {outcome : Controller.Started}
    (run : p.controller.start host s p.world = (outcome, c', w')) :
    p.undergo host s (.operation .start) =
      (.started outcome, { p with controller := c', world := w' }) := by
  simp only [undergo, reply, Plant.after, run]

theorem undergo_stop {found : Bool} (run : p.controller.stop host p.world = (found, c', w')) :
    p.undergo host s (.operation .stop) =
      (.found found, { p with controller := c', world := w' }) := by
  simp only [undergo, reply, Plant.after, run]

theorem undergo_second (run : p.controller.second host s p.world = (c', w')) :
    p.undergo host s (.operation .second) =
      (.silent, { p with controller := c', world := w' }) := by
  simp only [undergo, reply, Plant.after, run]

theorem undergo_runCycle {report : Report}
    (run : p.controller.runCycle host s p.world = (some report, c', w')) :
    p.undergo host s (.operation .runCycle) =
      (.report (some report), ⟨c', w', report :: p.reports⟩) := by
  simp only [undergo, reply, Plant.after, run]
  rfl

end Plant

section Runs

variable {host : Host σ} {s : Settings} {schedule : Schedule} {p : Plant (List Call × σ)}

/-- One happening goes by a schedule: it is answered, and makes the calls, as the schedule says, and
the controller goes by the next schedule then. -/
def Schedule.Guides (host : Host σ) (s : Settings) (schedule : Schedule)
    (p : Plant (List Call × σ)) (happening : Happening σ) : Prop :=
  ∃ reply new next, p.undergo host.logged s happening.logged = (reply, next) ∧
    schedule.Expects host s.monitoring p.world.2 happening reply new ∧
    next.world.1 = new ++ p.world.1 ∧
    next.controller.GoesBy s.monitoring (schedule.next happening)

namespace Controller.GoesBy

theorem guides_start (held : p.controller.GoesBy s.monitoring schedule)
    (granted : schedule.Grants host s p (.operation .start)) :
    schedule.Guides host s p (.operation .start) := by
  by_cases idle : schedule.since = none
  · obtain ⟨⟨report, completes⟩, fits⟩ := granted idle
    obtain ⟨new, c', w', run, held', made⟩ := held.started idle completes fits
    refine ⟨_, _, _, Plant.undergo_start run, .start idle made, rfl, ?_⟩
    rw [Schedule.next, idle]
    exact held'
  · have on : p.controller.running = true := by
      rw [held.running]
      exact Option.isSome_iff_ne_none.mpr idle
    have run : p.controller.start host.logged s p.world =
        (.refused .alreadyRunning, p.controller, p.world) := if_pos on
    refine ⟨_, _, _, Plant.undergo_start run, .refuse idle, rfl, ?_⟩
    obtain ⟨since, started⟩ := Option.ne_none_iff_exists'.mp idle
    have same : schedule.next (.operation .start : Happening σ) = schedule := by
      rw [Schedule.next, started]
      exact congrArg (Schedule.mk schedule.timer) started.symm
    rw [same]
    exact held

theorem guides_stop (held : p.controller.GoesBy s.monitoring schedule) :
    schedule.Guides host s p (.operation .stop) := by
  by_cases idle : schedule.since = none
  · have off : ¬ p.controller.running = true := by
      rw [held.running, idle]
      exact Bool.false_ne_true
    have run : p.controller.stop host.logged p.world = (false, p.controller, p.world) := if_neg off
    refine ⟨_, _, _, Plant.undergo_stop run, .ignore idle, rfl, ?_⟩
    have same : schedule.next (.operation .stop : Happening σ) = schedule :=
      congrArg (Schedule.mk schedule.timer) idle.symm
    rw [same]
    exact held
  · have on : p.controller.running = true := by
      rw [held.running]
      exact Option.isSome_iff_ne_none.mpr idle
    obtain ⟨c', w', run, held'⟩ := held.stopped on
    exact ⟨_, _, _, Plant.undergo_stop run, .stop idle, rfl, held'⟩

theorem guides_runCycle (held : p.controller.GoesBy s.monitoring schedule)
    (granted : schedule.Grants host s p (.operation .runCycle)) :
    schedule.Guides host s p (.operation .runCycle) := by
  obtain ⟨report, completes⟩ := granted
  obtain ⟨new, st', w', made, run⟩ :=
    runCycle_calls host s p.controller p.world.1 p.world.2 completes
  exact ⟨_, _, _, Plant.undergo_runCycle run, .runCycle made, rfl, held.withState st'⟩

theorem guides_request (held : p.controller.GoesBy s.monitoring schedule)
    {operation : Operation σ} (isRequest : operation.isRequest = true) :
    schedule.Guides host s p (.operation operation) := by
  have asked : operation.logged.isRequest = true ∧
      schedule.next (.operation operation) = schedule := by
    cases operation with
    | addHint | removeHint | setOverride | clearOverride => exact ⟨rfl, rfl⟩
    | runCycle | start | stop | second | turn => cases isRequest
  obtain ⟨logged, unchanged⟩ := asked
  refine ⟨_, [], _, rfl, .request isRequest _, ?_⟩
  rw [unchanged]
  obtain same | ⟨registry, -, run⟩ := Plant.after_request host.logged s p logged
  · exact ⟨congrArg (·.world.1) same, by rw [same]; exact held⟩
  · exact ⟨congrArg (·.world.1) run, by rw [run]; exact held.withState _⟩

/-- Whatever happens goes by the schedule. -/
theorem guides (held : p.controller.GoesBy s.monitoring schedule) (happening : Happening σ)
    (granted : schedule.Grants host s p happening) : schedule.Guides host s p happening := by
  cases happening with
  | notice => exact ⟨_, [], _, rfl, .notice, rfl, held.withNotice.wake⟩
  | leftover l => exact ⟨_, [], _, rfl, .leftover l, rfl, held.keepLoop l⟩
  | operation asked =>
    cases asked with
    | start => exact held.guides_start granted
    | stop => exact held.guides_stop
    | second =>
      obtain ⟨new, c', w', run, held', expected⟩ := held.second granted
      exact ⟨_, _, _, Plant.undergo_second run, expected, rfl, held'⟩
    | runCycle => exact held.guides_runCycle granted
    | addHint | removeHint | setOverride | clearOverride => exact held.guides_request rfl
    | turn change => exact ⟨_, [], _, rfl, .turn change, rfl, held⟩

end Controller.GoesBy

theorem Schedule.governs (happenings : List (Happening σ))
    (held : p.controller.GoesBy s.monitoring schedule)
    (granted : schedule.GrantsAll host s p happenings) : Governs host s schedule p happenings := by
  induction happenings generalizing schedule p with
  | nil => exact .nil held
  | cons happening rest ih =>
    obtain ⟨now, later⟩ := granted
    obtain ⟨reply, new, next, happens, expected, calls, held'⟩ := held.guides happening now
    rw [happens] at later
    exact .cons held happens expected calls (ih held' later)

/-! ## What is granted -/

theorem Host.Ordinary.logged (ordinary : host.Ordinary) : host.logged.Ordinary where
  now w := ordinary.now w.2
  readCpu hints w := ordinary.readCpu hints w.2
  readGpu hints w := ordinary.readGpu hints w.2

theorem Schedule.timer_next (schedule : Schedule) (happening : Happening σ) :
    (schedule.next happening).timer ≤ schedule.timer + 1 := by
  cases happening with
  | notice | leftover => exact Nat.le_succ _
  | operation asked =>
    cases asked with
    | second => exact Nat.le_refl _
    | _ => exact Nat.le_succ _

theorem Plant.undergo_reachable {s : Settings} {allowed : CpuReading → GpuReading → Instant → Prop}
    {p : Plant (List Call × σ)} (allows : host.logged.Allows allowed)
    (reached : Reachable s allowed p.controller.state) (happening : Happening σ) :
    Reachable s allowed
      (p.undergo host.logged s happening.logged).2.controller.state := by
  cases happening with
  | operation asked =>
    exact Plant.after_lasting (lasting_reachable allows) asked.logged
      (fun _ _ _ _ reached => reached) reached
  | notice =>
    rw [Happening.logged, undergo, Controller.notice, Controller.wake_state]
    exact reached
  | leftover l =>
    rw [Happening.logged, undergo, Controller.keepLoop]
    split <;> exact reached

/-- Within the bounds, in ordinary surroundings, everything is granted for as long as the timer can
wait. -/
theorem Schedule.grantsAll (endurable : s.Endurable) (ordinary : host.Ordinary)
    (happenings : List (Happening σ)) (reached : Reachable s Ordinary p.controller.state)
    (short : schedule.timer + happenings.length + s.monitoring.period ≤ lastTick) :
    schedule.GrantsAll host s p happenings := by
  induction happenings generalizing schedule p with
  | nil => trivial
  | cons happening rest ih =>
    rw [List.length_cons] at short
    have timer := schedule.timer_next happening
    have completes : ∀ w, ∃ report,
        (cycle host.logged s p.controller.state w).phase.report? = some report :=
      Controller.runCycle_succeeds endurable ordinary.logged reached
    refine ⟨?_, ih (Plant.undergo_reachable ordinary.logged.allows reached happening) (by omega)⟩
    cases happening with
    | notice | leftover => trivial
    | operation asked =>
      cases asked with
      | start => exact fun _ => ⟨completes _, by omega⟩
      | second => exact fun _ => completes _
      | runCycle => exact completes _
      | stop | addHint | removeHint | setOverride | clearOverride | turn => trivial

end Runs

theorem Controller.new_goesBy (s : Settings) : (Controller.new s).GoesBy s.monitoring ⟨0, none⟩ :=
  .of_idle rfl rfl rfl (List.forall_mem_nil _)

/-- A schedule governs every run of a new controller, as long as the cycles come to their reports
and the timer can wait for their ticks: a controller is started exactly when it does not run, and
then takes the fans over and runs a cycle; it is stopped exactly when it runs, and then gives real
fans back; and in between its cycles come a whole number of periods after the latest start, whatever
loops and notices are left over from earlier runs. -/
theorem cycles_follow_schedule (host : Host σ) (s : Settings) (w : σ)
    (happenings : List (Happening σ))
    (granted : Schedule.GrantsAll host s ⟨0, none⟩ (Plant.new s ([], w)) happenings) :
    Schedule.Governs host s ⟨0, none⟩ (Plant.new s ([], w)) happenings :=
  Schedule.governs happenings (Controller.new_goesBy s) granted

/-- A controller with a period of two seconds is stopped and started again, with a loop and a notice
left over from its first run. -/
theorem restarted_follows_schedule :
    let s : Settings := { Settings.default with monitoring.interval := 2 }
    let still := Host.still (.ofMillis 1748764800000) .empty .empty
    Schedule.Governs still s ⟨0, none⟩ (Plant.new s ([], ()))
      [.operation .start, .operation .second, .operation .second, .operation .stop,
        .leftover ⟨1, 4⟩, .operation .start, .notice, .operation .second, .operation .second,
        .operation .runCycle] := by
  intro s still
  have endurable : s.Endurable :=
    ⟨by decide, by decide, fun _ => ⟨by decide, by decide⟩, by decide⟩
  have common : (Instant.ofMillis 1748764800000).IsCommon := ⟨by decide, by decide, by decide⟩
  have ordinary : still.Ordinary := still_ordinary ⟨moderate_zero, moderate_zero, common⟩
  exact cycles_follow_schedule still s () _
    (Schedule.grantsAll endurable ordinary _ .start (by decide))

end Control

end ChassisCooling
