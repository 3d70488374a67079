import ChassisCooling.Proofs.Courses
import Mathlib.Data.List.Induction

/-! # What is remembered of a course

Of all that happened, the next decision remembers two things besides the speed: when a cycle without
an active override last found a temperature above its threshold, and how the last such cycle
classified its readings. A cycle under an override adds nothing to it, whatever it reads.
-/

namespace ChassisCooling.Control

open Calendar

variable {s : Settings} {c : FanControl} {h : Hysteresis} {x : Situation}

instance (x : Situation) : Decidable x.IsFree :=
  decidable_of_iff _ Option.isNone_iff_eq_none

/-- A temperature is above its threshold. -/
def Situation.breaches (c : FanControl) (x : Situation) : Bool :=
  isBreach c x.cpu x.gpu

/-- The zone of the temperatures. -/
def Situation.zone (c : FanControl) (x : Situation) : Zone :=
  classify x.cpu x.gpu (x.breaches c)

/-! ## One decision -/

namespace Hysteresis

@[simp] theorem commit_zone (h : Hysteresis) : h.commit.zone = h.zone := rfl

/-- Under an override the readings are not looked at, and nothing is added to the memory. -/
theorem meet_of_override {o : Override} (active : x.registry.activeOverride x.now = some o) :
    h.meet c x = ({ h with targetSpeed := c.clamp o.speed } : Hysteresis).commit := by
  rw [meet, pass, decide_of_override active]
  rfl

/-- Without an override the zone is the one of the readings, and a breach is remembered. This holds
also where no speed can be decided, because a breach always comes to a speed. -/
theorem meet_of_free (free : x.IsFree) :
    (h.meet c x).zone = x.zone c ∧
      (h.meet c x).lastBreach = if x.breaches c then some x.now else h.lastBreach := by
  rw [meet, pass, decide_of_automatic free]
  cases found : h.automatic c x.cpu x.gpu x.now with
  | ok speed => exact ⟨rfl, rfl⟩
  | error e =>
    -- Only the cooldown can be missing, and in a breach it is not asked for.
    have calm : x.breaches c = false := by
      rw [automatic] at found
      split at found
      · cases found
      · next calm => exact Bool.eq_false_iff.mpr calm
    exact ⟨rfl, by rw [calm]; rfl⟩

/-- The zone is that of the last situation without an override. -/
theorem foldl_meet_zone (c : FanControl) (h : Hysteresis) (xs : List Situation) :
    (xs.foldl (meet c) h).zone =
      (((xs.filter fun x => x.IsFree).getLast?).map (Situation.zone c)).getD h.zone := by
  induction xs using List.reverseRecOn with
  | nil => rfl
  | append_singleton xs x ih =>
    rw [List.foldl_append, List.filter_append]
    by_cases free : x.IsFree
    · simp [free, (meet_of_free free).1]
    · obtain ⟨o, active⟩ := Option.ne_none_iff_exists'.mp free
      simp [free, meet_of_override active, ih]

/-- The last breach is the time of the last situation without an override that was one. -/
theorem foldl_meet_lastBreach (c : FanControl) (h : Hysteresis) (xs : List Situation) :
    (xs.foldl (meet c) h).lastBreach =
      (((xs.filter fun x => x.IsFree).filter (Situation.breaches c)).getLast?.map
        Situation.now).or h.lastBreach := by
  induction xs using List.reverseRecOn with
  | nil => rfl
  | append_singleton xs x ih =>
    rw [List.foldl_append, List.filter_append, List.filter_append]
    by_cases free : x.IsFree
    · cases breach : x.breaches c with
      | true => simp [free, breach, (meet_of_free free).2]
      | false => simp [free, breach, (meet_of_free free).2, ih]
    · obtain ⟨o, active⟩ := Option.ne_none_iff_exists'.mp free
      simp [free, meet_of_override active, ih]

end Hysteresis

/-! ## Readings under an override -/

/-- A report with its readings struck out. -/
def Report.withoutReadings (report : Report) : Report :=
  { report with cpuMax := 0, gpuMax := 0 }

/-- The second course has the events of the first, except that cycles which find an active override
may read something else. -/
inductive SameUncovered (s : Settings) : Registry → List Event → List Event → Prop
  | nil (r : Registry) : SameUncovered s r [] []
  | same {r : Registry} {as bs : List Event} (event : Event)
    (rest : SameUncovered s (r.undergo s event) as bs) :
    SameUncovered s r (event :: as) (event :: bs)
  | covered {r : Registry} {now : Instant} {o : Override} {as bs : List Event}
    (active : r.activeOverride now = some o) (cpu cpu' : CpuReading) (gpu gpu' : GpuReading)
    (rest : SameUncovered s (r.undergo s (.cycle cpu gpu now)) as bs) :
    SameUncovered s r (.cycle cpu gpu now :: as) (.cycle cpu' gpu' now :: bs)

namespace State

/-- Two states decide alike, whatever samples and readings they have. -/
structure DecidesAs (st st' : State) : Prop where
  hysteresis : st'.hysteresis = st.hysteresis
  registry : st'.registry = st.registry

variable {st st' : State}

theorem DecidesAs.undergo (alike : st.DecidesAs st') (event : Event) :
    (st.undergo s event).DecidesAs (st'.undergo s event) where
  hysteresis := by rw [undergo_hysteresis, undergo_hysteresis, alike.hysteresis, alike.registry]
  registry := by rw [undergo_registry, undergo_registry, alike.registry]

theorem DecidesAs.outcome? (alike : st.DecidesAs st') (event : Event) :
    st'.outcome? s event = st.outcome? s event := by
  cases event with
  | cycle cpu gpu now =>
    refine congrArg some ?_
    cases cut : s.monitoring.cutoff now with
    | ok cutoff => rw [commit_result cut, commit_result cut, alike.hysteresis, alike.registry]
    | error e => rw [commit_result_of_no_cutoff cut, commit_result_of_no_cutoff cut]
  | addHint | removeHint | setOverride | clearOverride => rfl

/-- In a cycle that finds an active override nothing but the report's readings depends on what is
read. -/
theorem undergo_covered {now : Instant} {o : Override}
    (active : st.registry.activeOverride now = some o) (cpu cpu' : CpuReading)
    (gpu gpu' : GpuReading) :
    (st.undergo s (.cycle cpu gpu now)).DecidesAs (st.undergo s (.cycle cpu' gpu' now)) ∧
      (st.commit s cpu' gpu' now).2.map Report.withoutReadings =
        (st.commit s cpu gpu now).2.map Report.withoutReadings := by
  have active : (st.registry.evict now).activeOverride now = some o := by
    rwa [Registry.evict_activeOverride]
  refine ⟨⟨?_, ?_⟩, ?_⟩
  · rw [undergo_hysteresis, undergo_hysteresis]
    cases cut : s.monitoring.cutoff now with
    | ok cutoff =>
      rw [Registry.situation?_cycle cut, Registry.situation?_cycle cut]
      change Hysteresis.meet _ _ _ = Hysteresis.meet _ _ _
      rw [Hysteresis.meet_of_override active, Hysteresis.meet_of_override active]
    | error e => rw [Registry.situation?_broken cut, Registry.situation?_broken cut]
  · rw [undergo_registry, undergo_registry]
    rfl
  · cases cut : s.monitoring.cutoff now with
    | ok cutoff =>
      rw [commit_result cut, commit_result cut, Hysteresis.pass, Hysteresis.pass,
        Hysteresis.decide_of_override active, Hysteresis.decide_of_override active]
      rfl
    | error e => rw [commit_result_of_no_cutoff cut, commit_result_of_no_cutoff cut]

theorem DecidesAs.trans {st'' : State} (first : st.DecidesAs st') (second : st'.DecidesAs st'') :
    st.DecidesAs st'' :=
  ⟨second.hysteresis.trans first.hysteresis, second.registry.trans first.registry⟩

/-- From states that decide alike, courses that differ only in readings under an override lead to
states that decide alike, and report the same but for the readings. -/
theorem DecidesAs.course {as bs : List Event} (alike : st.DecidesAs st')
    (uncovered : SameUncovered s st.registry as bs) :
    (st.undergoAll s as).DecidesAs (st'.undergoAll s bs) ∧
      (st'.outcomes s bs).map (Except.map Report.withoutReadings) =
        (st.outcomes s as).map (Except.map Report.withoutReadings) := by
  generalize known : st.registry = r at uncovered
  induction uncovered generalizing st st' with
  | nil => exact ⟨alike, rfl⟩
  | same event rest ih =>
    obtain ⟨after, later⟩ := ih (alike.undergo event) (by rw [undergo_registry, known])
    refine ⟨after, ?_⟩
    rw [outcomes, outcomes, List.map_append, List.map_append, later, alike.outcome?]
  | @covered r now o as bs active cpu cpu' gpu gpu' rest ih =>
    subst known
    obtain ⟨between, reports⟩ := undergo_covered (s := s) active cpu cpu' gpu gpu'
    obtain ⟨after, later⟩ := ih (between.trans (alike.undergo _)) (undergo_registry ..)
    refine ⟨after, ?_⟩
    rw [outcomes, outcomes, List.map_append, List.map_append, later, alike.outcome?]
    exact congrArg (· :: _) reports

end State

/-- After any course from the start, the last breach that is remembered is the time of the last cycle
that found no active override and a temperature above its threshold, and the zone is that of the
readings of the last cycle that found no active override. A cycle that cannot forget samples breaks
off and is no cycle of the course in this sense. A course that differs only in what is read under an
override leaves the same behind for the next decision, and has the same speeds, zones and modes. -/
theorem memory_of_uncovered_cycles (s : Settings) (events : List Event) :
    let free := (Registry.empty.situations s events).filter fun x => x.IsFree
    let left := ((State.start s).undergoAll s events).hysteresis
    left.lastBreach =
        (free.filter fun x => isBreach s.fanControl x.cpu x.gpu).getLast?.map Situation.now ∧
    left.zone = (free.getLast?.map fun x =>
        classify x.cpu x.gpu (isBreach s.fanControl x.cpu x.gpu)).getD .idle ∧
    (∀ cpu gpu now e, s.monitoring.cutoff now = .error e →
      ((State.start s).undergoAll s (events ++ [.cycle cpu gpu now])).hysteresis = left ∧
      (((State.start s).undergoAll s events).commit s cpu gpu now).2 = .error e) ∧
    ∀ others, SameUncovered s .empty events others →
      ((State.start s).undergoAll s others).hysteresis = left ∧
      ((State.start s).outcomes s others).map (Except.map Report.withoutReadings) =
        ((State.start s).outcomes s events).map (Except.map Report.withoutReadings) := by
  have met := State.undergoAll_hysteresis s (.start s) events
  refine ⟨?_, ?_, ?_, ?_⟩
  · rw [met, Hysteresis.foldl_meet_lastBreach]
    exact Option.or_none
  · rw [met, Hysteresis.foldl_meet_zone]
    rfl
  · intro cpu gpu now e uncut
    refine ⟨?_, State.commit_result_of_no_cutoff uncut⟩
    rw [State.undergoAll_append, State.undergoAll_cons, State.undergoAll_nil,
      State.undergo_hysteresis, Registry.situation?_broken uncut]
    rfl
  · intro others uncovered
    have alike : (State.start s).DecidesAs (State.start s) := ⟨rfl, rfl⟩
    obtain ⟨after, reports⟩ := alike.course uncovered
    exact ⟨after.hysteresis, reports⟩

/-- A cycle at 75 degrees, and one under an override that reads what it is given. -/
def coveredCycle (temperature : Int32) : List Event :=
  [.cycle (.ofTemps [75]) .empty (.ofMillis 0),
    .setOverride 30 ⟨60000000000⟩ "" (.ofMillis 5000),
    .cycle (.ofTemps [temperature]) .empty (.ofMillis 10000)]

/-- Neither 90 nor 20 degrees under the override are remembered. -/
theorem covered_readings_forgotten :
    let dawn : Instant := ⟨Instant.firstSecond, 0, by decide⟩
    let cool := ((State.start .default).undergoAll .default (coveredCycle 20)).hysteresis
    let hot := ((State.start .default).undergoAll .default (coveredCycle 90)).hysteresis
    let onward := (State.start .default).undergoAll .default
      (coveredCycle 90 ++ [.cycle .empty .empty dawn])
    SameUncovered .default .empty (coveredCycle 90) (coveredCycle 20) ∧
    Settings.default.monitoring.cutoff dawn = .error .outOfCalendar ∧
    hot.lastBreach = some (.ofMillis 0) ∧ hot.zone = .warm ∧ cool = hot ∧
    onward.hysteresis = hot := by
  intro dawn cool hot onward
  have uncovered : SameUncovered .default .empty (coveredCycle 90) (coveredCycle 20) :=
    .same _ (.same _ (.covered (o := ⟨30, "", some (.ofMillis 65000), .ofMillis 5000⟩)
      rfl _ _ _ _ (.nil _)))
  have uncut : Settings.default.monitoring.cutoff dawn = .error .outOfCalendar := rfl
  obtain ⟨breach, zone, broken, same⟩ := memory_of_uncovered_cycles .default (coveredCycle 90)
  refine ⟨uncovered, uncut, breach.trans ?_, zone.trans ?_, (same _ uncovered).1,
    (broken _ _ dawn _ uncut).1⟩
  · rfl
  · rfl

end ChassisCooling.Control
