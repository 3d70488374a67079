import ChassisCooling.Proofs.Automatic
import ChassisCooling.Proofs.Cycle
import ChassisCooling.Proofs.Registry
import Mathlib.Data.List.Forall2

/-! # More heat is never less cooling

Two runs of one controller are compared, cycle by cycle. They share the times of the cycles and the
overrides; the second run is at least as hot and its hints are at least as high. The coupling of
the two runs is that the first speed is no higher, that neither is below idle, and that what the
first run remembers of a breach the second remembers as late or later. An override below idle would
break it, and so would a temperature for which 32 bits are not enough; both are ruled out.
-/

namespace ChassisCooling.Control

open Calendar

/-! ## One decision -/

namespace Hysteresis

variable {c : FanControl} {h h' d d' : Hysteresis} {r r' : Registry} {cpu gpu cpu' gpu' : Int32}
  {now : Instant}

/-- The coupling of a cooler run with a hotter one. -/
structure Cooler (c : FanControl) (h h' : Hysteresis) : Prop where
  rested : c.clamp c.effectiveIdle ≤ h.currentSpeed
  slower : h.currentSpeed ≤ h'.currentSpeed
  earlier : ∀ last, h.lastBreach = some last →
    ∃ last', h'.lastBreach = some last' ∧ last.nanos ≤ last'.nanos

/-- An automatic speed of a run that is not below idle is limited to no less than idle. -/
theorem Automatic.rested {speed : Int} (found : Automatic h c cpu gpu now speed)
    (rested : c.clamp c.effectiveIdle ≤ h.currentSpeed) (floor : Option UInt8) :
    c.clamp c.effectiveIdle ≤ c.clamp (toSpeed (raiseTo floor speed)) := by
  have bound := found.ge
  have byte := c.effectiveIdle.toNat_lt
  rw [raiseTo_eq_max floor (by omega)]
  simp only [UInt8.le_iff_toNat_le, FanControl.toNat_clamp, toNat_toSpeed] at rested ⊢
  omega

/-- Limited to the permitted range, the automatic speed of the cooler run is no higher. -/
theorem Automatic.slower {speed speed' : Int} (cooler : Cooler c h h')
    (found : Automatic h c cpu gpu now speed) (found' : Automatic h' c cpu' gpu' now speed')
    (fits : isBreach c cpu gpu = true → FitsWord c cpu gpu)
    (fits' : isBreach c cpu' gpu' = true → FitsWord c cpu' gpu')
    (cool : cpu ≤ cpu') (coolGpu : gpu ≤ gpu') {floor floor' : Option UInt8}
    (floors : floor.getD 0 ≤ floor'.getD 0) :
    c.clamp (toSpeed (raiseTo floor speed)) ≤ c.clamp (toSpeed (raiseTo floor' speed')) := by
  have bound := found.ge
  have bound' := found'.ge
  have order := found.le_max found' fits fits' cool coolGpu cooler.slower cooler.earlier
  have rested := cooler.rested
  have slower := cooler.slower
  have byte := c.effectiveIdle.toNat_lt
  rw [raiseTo_eq_max floor (by omega), raiseTo_eq_max floor' (by omega)]
  simp only [UInt8.le_iff_toNat_le, FanControl.toNat_clamp, toNat_toSpeed] at floors rested slower ⊢
  omega

theorem Cooler.lastBreach (cooler : Cooler c h h') (cool : cpu ≤ cpu') (coolGpu : gpu ≤ gpu')
    (past : ∀ last, h.lastBreach = some last → last.nanos ≤ now.nanos) (last : Instant)
    (memory : (if isBreach c cpu gpu then some now else h.lastBreach) = some last) :
    ∃ last', (if isBreach c cpu' gpu' then some now else h'.lastBreach) = some last' ∧
      last.nanos ≤ last'.nanos := by
  split at memory
  · next breach =>
    cases memory
    exact ⟨now, by rw [if_pos (isBreach_mono cool coolGpu breach)], Int.le_refl _⟩
  · split
    · exact ⟨now, rfl, past last memory⟩
    · exact cooler.earlier last memory

/-- Decisions at one time keep the coupling: the overrides are equal and not below idle, the
readings and the floors are ordered, and what is remembered is not in the future. -/
theorem Cooler.decide (cooler : Cooler c h h')
    (fits : isBreach c cpu gpu = true → FitsWord c cpu gpu)
    (fits' : isBreach c cpu' gpu' = true → FitsWord c cpu' gpu')
    (cool : cpu ≤ cpu') (coolGpu : gpu ≤ gpu')
    (same : r.activeOverride now = r'.activeOverride now)
    (warm : ∀ o, r.activeOverride now = some o → c.clamp c.effectiveIdle ≤ c.clamp o.speed)
    (floors : (r.hintFloor now).getD 0 ≤ (r'.hintFloor now).getD 0)
    (past : ∀ last, h.lastBreach = some last → last.nanos ≤ now.nanos)
    (decision : h.decide c r cpu gpu now = .ok d)
    (decision' : h'.decide c r' cpu' gpu' now = .ok d') :
    Cooler c d.commit d'.commit := by
  obtain ⟨o, active, rfl⟩ | ⟨speed, free, found, rfl⟩ := decide_cases decision
  · obtain ⟨o', active', rfl⟩ | ⟨speed', free', -, -⟩ := decide_cases decision'
    · rw [same, active'] at active
      cases active
      exact ⟨warm o (same.trans active'), UInt8.le_refl _, cooler.earlier⟩
    · rw [same, free'] at active
      cases active
  · obtain ⟨o', active', rfl⟩ | ⟨speed', free', found', rfl⟩ := decide_cases decision'
    · rw [same, active'] at free
      cases free
    · have found := automatic_of_eq found
      have found' := automatic_of_eq found'
      exact {
        rested := found.rested cooler.rested _
        slower := found.slower cooler found' fits fits' cool coolGpu floors
        earlier := cooler.lastBreach cool coolGpu past }

end Hysteresis

/-! ## Runs of events -/

/-- A request of the registry, or a cycle with what it reads and its time. -/
inductive Event where
  | addHint (request : HintRequest) (now : Instant)
  | removeHint (source : String)
  | setOverride (speed : Int) (duration : Span) (reason : String) (now : Instant)
  | clearOverride
  | cycle (cpu : CpuReading) (gpu : GpuReading) (now : Instant)

/-- The event adds or withdraws a hint. -/
def Event.isHint : Event → Bool
  | .addHint .. | .removeHint .. => true
  | _ => false

/-- The time of a cycle. -/
def Event.cycleTime? : Event → Option Instant
  | .cycle _ _ now => some now
  | _ => none

/-- The live floor of the hints in a cycle, where no live hint counts as 0, and its speed. -/
structure Mark where
  floor : UInt8
  speed : UInt8
deriving DecidableEq

namespace State

/-- What an event leads to, with the mark that a cycle makes. -/
def after (s : Settings) (st : State) : Event → Except OutOfCalendar (State × List Mark)
  | .addHint request now => do
    let (_, registry) ← st.registry.addHint request now
    pure ({ st with registry }, [])
  | .removeHint source => pure ({ st with registry := st.registry.removeHint source }, [])
  | .setOverride speed duration reason now => do
    let (_, registry) ← st.registry.setOverride speed duration reason now
    pure ({ st with registry }, [])
  | .clearOverride => pure ({ st with registry := st.registry.clearOverride }, [])
  | .cycle cpu gpu now =>
    match st.commit s cpu gpu now with
    | (_, .error e) => .error e
    | (st', .ok report) => pure (st', [⟨(st.registry.hintFloor now).getD 0, report.speed⟩])

/-- The marks of events, one after another, provided every event comes to its end. -/
def marks (s : Settings) (st : State) : List Event → Except OutOfCalendar (List Mark)
  | [] => pure []
  | event :: rest => do
    let (st, made) ← st.after s event
    let later ← st.marks s rest
    pure (made ++ later)

variable {s : Settings} {st st' : State} {made : List Mark}

theorem marks_cons {event : Event} {rest : List Event} {all : List Mark}
    (run : st.marks s (event :: rest) = .ok all) :
    ∃ st' made later, st.after s event = .ok (st', made) ∧ st'.marks s rest = .ok later ∧
      all = made ++ later := by
  rw [marks] at run
  obtain ⟨⟨st', made⟩, first, onward⟩ := ok_of_bind run
  obtain ⟨later, others, same⟩ := ok_of_bind onward
  cases same
  exact ⟨st', made, later, first, others, rfl⟩

theorem after_hint {event : Event} (isHint : event.isHint = true)
    (happened : st.after s event = .ok (st', made)) :
    made = [] ∧ st'.hysteresis = st.hysteresis ∧
      st'.registry.override = st.registry.override := by
  cases event with
  | addHint request now =>
    obtain ⟨⟨hint, registry⟩, added, same⟩ := ok_of_bind happened
    cases same
    exact ⟨rfl, rfl, Registry.addHint_override added⟩
  | removeHint source =>
    cases happened
    exact ⟨rfl, rfl, rfl⟩
  | setOverride | clearOverride | cycle => cases isHint

theorem after_setOverride {speed : Int} {duration : Span} {reason : String} {now : Instant}
    (happened : st.after s (.setOverride speed duration reason now) = .ok (st', made)) :
    made = [] ∧ st'.hysteresis = st.hysteresis ∧
      ∃ result, st.registry.setOverride speed duration reason now = .ok (result, st'.registry) := by
  obtain ⟨⟨result, registry⟩, answered, same⟩ := ok_of_bind happened
  cases same
  exact ⟨rfl, rfl, result, answered⟩

theorem after_cycle {cpu : CpuReading} {gpu : GpuReading} {now : Instant}
    (happened : st.after s (.cycle cpu gpu now) = .ok (st', made)) :
    ∃ h, st.hysteresis.decide s.fanControl (st.registry.evict now) cpu.max gpu.max now = .ok h ∧
      st'.hysteresis = h.commit ∧ st'.registry = st.registry.evict now ∧
      made = [⟨(st.registry.hintFloor now).getD 0, h.commit.currentSpeed⟩] := by
  rw [after] at happened
  obtain ⟨retention, cutoff, h, -, -, decision, committed⟩ | ⟨st', e, committed, -⟩ :=
    commit_cases st s cpu gpu now
  · rw [committed] at happened
    cases happened
    exact ⟨h, decision, rfl, rfl, rfl⟩
  · rw [committed] at happened
    cases happened

end State

/-! ## Two runs -/

/-- The second run has the first one's overrides at the same points and its cycles at the same
times, and is as hot or hotter in each; hints come and go in either run. An override that is
accepted is not below idle, and 32 bits are enough to reckon with what is above a threshold. -/
inductive Alongside (c : FanControl) : List Event → List Event → Prop
  | nil : Alongside c [] []
  | left {hint : Event} {as bs : List Event} (isHint : hint.isHint = true)
    (rest : Alongside c as bs) : Alongside c (hint :: as) bs
  | right {hint : Event} {as bs : List Event} (isHint : hint.isHint = true)
    (rest : Alongside c as bs) : Alongside c as (hint :: bs)
  | setOverride {speed : Int} (duration : Span) (reason : String) (now : Instant)
    {as bs : List Event}
    (warm : 0 ≤ speed → speed ≤ 100 → c.clamp c.effectiveIdle ≤ c.clamp (.ofNat speed.toNat))
    (rest : Alongside c as bs) :
    Alongside c (.setOverride speed duration reason now :: as)
      (.setOverride speed duration reason now :: bs)
  | clearOverride {as bs : List Event} (rest : Alongside c as bs) :
    Alongside c (.clearOverride :: as) (.clearOverride :: bs)
  | cycle {cpu cpu' : CpuReading} {gpu gpu' : GpuReading} (now : Instant) {as bs : List Event}
    (fits : isBreach c cpu.max gpu.max = true → FitsWord c cpu.max gpu.max)
    (fits' : isBreach c cpu'.max gpu'.max = true → FitsWord c cpu'.max gpu'.max)
    (cool : cpu.max ≤ cpu'.max) (coolGpu : gpu.max ≤ gpu'.max) (rest : Alongside c as bs) :
    Alongside c (.cycle cpu gpu now :: as) (.cycle cpu' gpu' now :: bs)

/-- The times of the cycles among some events. -/
def cycleTimes (events : List Event) : List Instant :=
  events.filterMap Event.cycleTime?

theorem cycleTimes_hint {hint : Event} (isHint : hint.isHint = true) (rest : List Event) :
    cycleTimes (hint :: rest) = cycleTimes rest := by
  cases hint with
  | addHint | removeHint => rfl
  | setOverride | clearOverride | cycle => cases isHint

/-- The coupling of the states of two runs, with the times of the cycles that are still to come. -/
structure State.Cooler (c : FanControl) (times : List Instant) (a b : State) : Prop where
  hysteresis : a.hysteresis.Cooler c b.hysteresis
  override : a.registry.override = b.registry.override
  warm : ∀ o, a.registry.override = some o → c.clamp c.effectiveIdle ≤ c.clamp o.speed
  past : ∀ last, a.hysteresis.lastBreach = some last → ∀ t ∈ times, last.nanos ≤ t.nanos

namespace State

variable {s : Settings} {c : FanControl} {times : List Instant} {a a' b b' : State}

theorem Cooler.start (s : Settings) (times : List Instant) :
    Cooler s.fanControl times (.start s) (.start s) where
  hysteresis := {
    rested := UInt8.le_refl _
    slower := UInt8.le_refl _
    earlier := nofun }
  override := rfl
  warm := nofun
  past := nofun

/-- Hints do not touch the coupling. -/
theorem Cooler.hint (cooler : Cooler c times a b) (hysteresis : a'.hysteresis = a.hysteresis)
    (override : a'.registry.override = a.registry.override)
    (hysteresis' : b'.hysteresis = b.hysteresis)
    (override' : b'.registry.override = b.registry.override) : Cooler c times a' b' where
  hysteresis := by rw [hysteresis, hysteresis']; exact cooler.hysteresis
  override := by rw [override, override', cooler.override]
  warm := by rw [override]; exact cooler.warm
  past := by rw [hysteresis]; exact cooler.past

theorem Cooler.setOverride {speed : Int} {duration : Span} {reason : String} {now : Instant}
    {made made' : List Mark} (cooler : Cooler c times a b)
    (warm : 0 ≤ speed → speed ≤ 100 → c.clamp c.effectiveIdle ≤ c.clamp (.ofNat speed.toNat))
    (happened : a.after s (.setOverride speed duration reason now) = .ok (a', made))
    (happened' : b.after s (.setOverride speed duration reason now) = .ok (b', made')) :
    Cooler c times a' b' := by
  obtain ⟨-, hysteresis, result, answered⟩ := after_setOverride happened
  obtain ⟨-, hysteresis', result', answered'⟩ := after_setOverride happened'
  obtain ⟨low, high, expires, ends, set⟩ | ⟨refused, kept⟩ := Registry.setOverride_cases answered
  · obtain ⟨-, -, expires', ends', set'⟩ | ⟨refused, -⟩ := Registry.setOverride_cases answered'
    · rw [ends] at ends'
      cases ends'
      refine ⟨?_, ?_, ?_, ?_⟩
      · rw [hysteresis, hysteresis']
        exact cooler.hysteresis
      · rw [set, set']
      · rw [set]
        rintro o ⟨⟩
        exact warm low high
      · rw [hysteresis]
        exact cooler.past
    · exact absurd ⟨low, high⟩ refused
  · obtain ⟨low, high, -⟩ | ⟨-, kept'⟩ := Registry.setOverride_cases answered'
    · exact absurd ⟨low, high⟩ refused
    · exact cooler.hint hysteresis (by rw [kept]) hysteresis' (by rw [kept'])

theorem Cooler.clearOverride (cooler : Cooler c times a b) :
    Cooler c times { a with registry := a.registry.clearOverride }
      { b with registry := b.registry.clearOverride } where
  hysteresis := cooler.hysteresis
  override := rfl
  warm := nofun
  past := cooler.past

theorem Cooler.cycle {cpu cpu' : CpuReading} {gpu gpu' : GpuReading} {now : Instant}
    {made made' : List Mark} (cooler : Cooler s.fanControl (now :: times) a b)
    (ordered : ∀ t ∈ times, now.nanos ≤ t.nanos)
    (fits : isBreach s.fanControl cpu.max gpu.max = true → FitsWord s.fanControl cpu.max gpu.max)
    (fits' : isBreach s.fanControl cpu'.max gpu'.max = true →
      FitsWord s.fanControl cpu'.max gpu'.max)
    (cool : cpu.max ≤ cpu'.max) (coolGpu : gpu.max ≤ gpu'.max)
    (happened : a.after s (.cycle cpu gpu now) = .ok (a', made))
    (happened' : b.after s (.cycle cpu' gpu' now) = .ok (b', made'))
    (floors : (a.registry.hintFloor now).getD 0 ≤ (b.registry.hintFloor now).getD 0) :
    Cooler s.fanControl times a' b' := by
  obtain ⟨h, decision, hysteresis, registry, -⟩ := after_cycle happened
  obtain ⟨h', decision', hysteresis', registry', -⟩ := after_cycle happened'
  have same : (a.registry.evict now).override = (b.registry.evict now).override := by
    simp only [Registry.evict, Registry.activeOverride, cooler.override]
  have warm : ∀ o, a.registry.activeOverride now = some o →
      s.fanControl.clamp s.fanControl.effectiveIdle ≤ s.fanControl.clamp o.speed := by
    intro o active
    exact cooler.warm o (Option.filter_eq_some_iff.mp active).1
  refine ⟨?_, ?_, ?_, ?_⟩
  · rw [hysteresis, hysteresis']
    refine cooler.hysteresis.decide fits fits' cool coolGpu ?_ ?_ ?_ ?_ decision decision'
    · simp only [Registry.activeOverride, same]
    · rwa [Registry.evict_activeOverride]
    · rwa [Registry.evict_hintFloor, Registry.evict_hintFloor]
    · exact fun last memory => cooler.past last memory now (List.mem_cons_self ..)
  · rw [registry, registry', same]
  · rw [registry]
    exact warm
  · intro last memory t later
    rw [hysteresis, Hysteresis.commit_lastBreach] at memory
    obtain fresh | old := Hysteresis.decide_lastBreach decision
    · rw [fresh] at memory
      cases memory
      exact ordered t later
    · rw [old] at memory
      exact cooler.past last memory t (List.mem_cons_of_mem _ later)

/-- From coupled states the hotter run is never the slower one. -/
theorem Cooler.marks {as bs : List Event} {all all' : List Mark}
    (alongside : Alongside s.fanControl as bs)
    (ordered : (cycleTimes as).Pairwise fun t u => t.nanos ≤ u.nanos)
    (cooler : Cooler s.fanControl (cycleTimes as) a b)
    (run : a.marks s as = .ok all) (run' : b.marks s bs = .ok all')
    (floors : List.Forall₂ (fun m m' => m.floor ≤ m'.floor) all all') :
    List.Forall₂ (fun m m' => m.speed ≤ m'.speed) all all' := by
  induction alongside generalizing a b all all' with
  | nil =>
    cases run
    cases run'
    exact .nil
  | left isHint rest ih =>
    obtain ⟨a', made, later, happened, onward, rfl⟩ := marks_cons run
    obtain ⟨rfl, hysteresis, override⟩ := after_hint isHint happened
    rw [cycleTimes_hint isHint] at ordered cooler
    exact ih ordered (cooler.hint hysteresis override rfl rfl) onward run' floors
  | right isHint rest ih =>
    obtain ⟨b', made, later, happened, onward, rfl⟩ := marks_cons run'
    obtain ⟨rfl, hysteresis, override⟩ := after_hint isHint happened
    exact ih ordered (cooler.hint rfl rfl hysteresis override) run onward floors
  | setOverride duration reason now warm rest ih =>
    obtain ⟨a', made, later, happened, onward, rfl⟩ := marks_cons run
    obtain ⟨b', made', later', happened', onward', rfl⟩ := marks_cons run'
    obtain ⟨rfl, -⟩ := after_setOverride happened
    obtain ⟨rfl, -⟩ := after_setOverride happened'
    exact ih ordered (cooler.setOverride warm happened happened') onward onward' floors
  | clearOverride rest ih =>
    obtain ⟨a', made, later, happened, onward, rfl⟩ := marks_cons run
    obtain ⟨b', made', later', happened', onward', rfl⟩ := marks_cons run'
    cases happened
    cases happened'
    exact ih ordered cooler.clearOverride onward onward' floors
  | cycle now fits fits' cool coolGpu rest ih =>
    obtain ⟨a', made, later, happened, onward, rfl⟩ := marks_cons run
    obtain ⟨b', made', later', happened', onward', rfl⟩ := marks_cons run'
    obtain ⟨h, -, hysteresis, -, rfl⟩ := after_cycle happened
    obtain ⟨h', -, hysteresis', -, rfl⟩ := after_cycle happened'
    obtain ⟨lower, floors⟩ := List.forall₂_cons.mp floors
    have ordered := List.pairwise_cons.mp ordered
    have next := cooler.cycle ordered.1 fits fits' cool coolGpu happened happened' lower
    refine .cons ?_ (ih ordered.2 next onward onward' floors)
    have slower := next.hysteresis.slower
    rwa [hysteresis, hysteresis'] at slower

end State

/-- Of two runs from the start of one controller, the one that is at least as hot and has at least
as high hints in every cycle has at least as high a speed in every cycle, where no number of 32 bits
wraps around. -/
theorem hotter_run_no_slower {s : Settings} {as bs : List Event} {all all' : List Mark}
    (alongside : Alongside s.fanControl as bs)
    (ordered : (cycleTimes as).Pairwise fun t u => t.nanos ≤ u.nanos)
    (run : (State.start s).marks s as = .ok all) (run' : (State.start s).marks s bs = .ok all')
    (floors : List.Forall₂ (fun m m' => m.floor ≤ m'.floor) all all') :
    List.Forall₂ (fun m m' => m.speed ≤ m'.speed) all all' :=
  State.Cooler.marks alongside ordered (.start s _) run run' floors

/-- Three cycles at 40 degrees, the second one under an override. -/
def calmEvents : List Event :=
  [.cycle (.ofTemps [40]) .empty ⟨0, 0, by decide⟩,
    .setOverride 30 ⟨60000000000⟩ "" ⟨0, 0, by decide⟩,
    .cycle (.ofTemps [40]) .empty ⟨10, 0, by decide⟩,
    .clearOverride,
    .cycle (.ofTemps [40]) .empty ⟨100, 0, by decide⟩]

/-- The same at 80 degrees, after a hint of high intensity. -/
def hotEvents : List Event :=
  [.addHint ⟨"load", "start", "high", "job", ⟨0⟩⟩ ⟨0, 0, by decide⟩,
    .cycle (.ofTemps [80]) .empty ⟨0, 0, by decide⟩,
    .setOverride 30 ⟨60000000000⟩ "" ⟨0, 0, by decide⟩,
    .cycle (.ofTemps [80]) .empty ⟨10, 0, by decide⟩,
    .clearOverride,
    .cycle (.ofTemps [80]) .empty ⟨100, 0, by decide⟩]

theorem hot_events_no_slower :
    (State.start .default).marks .default calmEvents = .ok [⟨0, 20⟩, ⟨0, 30⟩, ⟨0, 20⟩] ∧
    (State.start .default).marks .default hotEvents = .ok [⟨45, 45⟩, ⟨45, 30⟩, ⟨45, 45⟩] ∧
    List.Forall₂ (fun m m' : Mark => m.speed ≤ m'.speed) [⟨0, 20⟩, ⟨0, 30⟩, ⟨0, 20⟩]
      [⟨45, 45⟩, ⟨45, 30⟩, ⟨45, 45⟩] := by
  have calm : isBreach Settings.default.fanControl 40 0 = true →
      FitsWord Settings.default.fanControl 40 0 := nofun
  have hot : isBreach Settings.default.fanControl 80 0 = true →
      FitsWord Settings.default.fanControl 80 0 := fun _ => ⟨by decide, by decide, by decide⟩
  have alongside : Alongside Settings.default.fanControl calmEvents hotEvents :=
    .right rfl <| .cycle _ calm hot (by decide) (by decide) <| .setOverride _ _ _ (by decide) <|
      .cycle _ calm hot (by decide) (by decide) <| .clearOverride <|
      .cycle _ calm hot (by decide) (by decide) .nil
  have ordered : (cycleTimes calmEvents).Pairwise fun t u => t.nanos ≤ u.nanos := by decide
  refine ⟨rfl, rfl, hotter_run_no_slower alongside ordered rfl rfl ?_⟩
  exact .cons (by decide) (.cons (by decide) (.cons (by decide) .nil))

end ChassisCooling.Control
