import ChassisCooling.Proofs.Heat
import ChassisCooling.Proofs.Influence
import ChassisCooling.Proofs.Ledger
import ChassisCooling.Proofs.Routes

/-! # Courses

A course is what one event after another makes of a state. Every event leads on: a request that
breaks off changes nothing, and a cycle that breaks off leaves what it has done. What a course makes
of the registry depends on nothing else, so the situations that its cycles find are known before any
speed is; the rest of the state follows from them. The states at the end of courses are those that
can be reached.
-/

namespace ChassisCooling

open Calendar

/-- Up to this time a cycle forgets its samples. -/
def Monitoring.cutoff (m : Monitoring) (now : Instant) : Except OutOfCalendar Instant :=
  m.effectiveRetention >>= now.sub

namespace Control

variable {s : Settings} {now : Instant} {cpu : CpuReading} {gpu : GpuReading}

/-! ## The registry on a course -/

namespace Registry

/-- What an event makes of the registry. A cycle evicts what is past, unless there is no time up to
which it can forget its samples. -/
def undergo (s : Settings) (r : Registry) : Event → Registry
  | .addHint request now =>
    match r.addHint request now with
    | .ok (_, next) => next
    | .error _ => r
  | .removeHint source => r.removeHint source
  | .setOverride speed duration reason now =>
    match r.setOverride speed duration reason now with
    | .ok (_, next) => next
    | .error _ => r
  | .clearOverride => r.clearOverride
  | .cycle _ _ now =>
    match s.monitoring.cutoff now with
    | .ok _ => r.evict now
    | .error _ => r

/-- What events make of the registry, one after another. -/
def undergoAll (s : Settings) (r : Registry) (events : List Event) : Registry :=
  events.foldl (undergo s) r

/-- The situation in which an event comes to a decision. -/
def situation? (s : Settings) (r : Registry) : Event → Option Situation
  | .cycle cpu gpu now =>
    match s.monitoring.cutoff now with
    | .ok _ => some ⟨cpu.max, gpu.max, r.evict now, now⟩
    | .error _ => none
  | _ => none

/-- The situations in which events come to decisions. -/
def situations (s : Settings) (r : Registry) : List Event → List Situation
  | [] => []
  | event :: rest => (r.situation? s event).toList ++ (r.undergo s event).situations s rest

variable {r : Registry}

theorem undergo_addHint (s : Settings) (r : Registry) (request : HintRequest) (now : Instant) :
    r.undergo s (.addHint request now) =
      match hintOf request now with
      | .ok hint => { r with hints := insertHint hint r.hints }
      | .error _ => r := by
  rw [undergo, addHint]
  cases hintOf request now <;> rfl

/-- Setting an override does not look at the hints. -/
theorem undergo_setOverride (s : Settings) (r : Registry) (speed : Int) (duration : Span)
    (reason : String) (now : Instant) :
    r.undergo s (.setOverride speed duration reason now) = { r with
      override :=
        if 0 ≤ speed ∧ speed ≤ 100 then
          match expiry now duration with
          | .ok expires => some ⟨.ofNat speed.toNat, reason, expires, now⟩
          | .error _ => r.override
        else r.override } := by
  rw [undergo, setOverride]
  by_cases percentage : 0 ≤ speed ∧ speed ≤ 100
  · rw [if_pos percentage, if_pos percentage]
    cases expiry now duration <;> rfl
  · rw [if_neg percentage, if_neg percentage]
    rfl

theorem undergo_cycle {cutoff : Instant} (cut : s.monitoring.cutoff now = .ok cutoff) :
    r.undergo s (.cycle cpu gpu now) = r.evict now := by
  rw [undergo, cut]

theorem undergo_broken {e : OutOfCalendar} (uncut : s.monitoring.cutoff now = .error e) :
    r.undergo s (.cycle cpu gpu now) = r := by
  rw [undergo, uncut]

theorem situation?_cycle {cutoff : Instant} (cut : s.monitoring.cutoff now = .ok cutoff) :
    r.situation? s (.cycle cpu gpu now) = some ⟨cpu.max, gpu.max, r.evict now, now⟩ := by
  rw [situation?, cut]

theorem situation?_broken {e : OutOfCalendar} (uncut : s.monitoring.cutoff now = .error e) :
    r.situation? s (.cycle cpu gpu now) = none := by
  rw [situation?, uncut]

/-- A request comes to its end, or it changes nothing. -/
theorem undergo_request (s : Settings) (r : Registry) {event : Event}
    (request : event.cycleTime? = none) :
    r.undergo s event = r ∨ RegistryStep r (r.undergo s event) := by
  cases event with
  | addHint request now =>
    rw [undergo]
    split
    · next added => exact .inr (.addHint added)
    · exact .inl rfl
  | removeHint source => exact .inr (.removeHint source)
  | setOverride speed duration reason now =>
    rw [undergo]
    split
    · next answered => exact .inr (.setOverride answered)
    · exact .inl rfl
  | clearOverride => exact .inr .clearOverride
  | cycle => cases request

/-- Hints stay in ascending order of their sources. -/
theorem undergo_ordered (s : Settings) (ordered : AreOrdered r.hints) (event : Event) :
    AreOrdered (r.undergo s event).hints := by
  cases event with
  | addHint request now =>
    rw [undergo_addHint]
    split
    · exact ordered.insertHint
    · exact ordered
  | removeHint source => exact ordered.filter _
  | setOverride speed duration reason now => rwa [undergo_setOverride]
  | clearOverride => exact ordered
  | cycle cpu gpu now =>
    rw [undergo]
    split
    · exact ordered.filter _
    · exact ordered

/-- A hint was there before, or it has just been asked for. -/
theorem mem_undergo (s : Settings) (ordered : AreOrdered r.hints) {event : Event} {h : Hint}
    (among : h ∈ (r.undergo s event).hints) :
    h ∈ r.hints ∨ ∃ request t, event = .addHint request t ∧ hintOf request t = .ok h := by
  cases event with
  | addHint request now =>
    rw [undergo_addHint] at among
    cases made : hintOf request now with
    | error e => exact .inl (by rwa [made] at among)
    | ok hint =>
      rw [made] at among
      obtain rfl | ⟨before, -⟩ := (mem_insertHint ordered).mp among
      · exact .inr ⟨request, now, rfl, made⟩
      · exact .inl before
  | removeHint source => exact .inl (List.mem_filter.mp among).1
  | setOverride speed duration reason now => exact .inl (by rwa [undergo_setOverride] at among)
  | clearOverride => exact .inl among
  | cycle cpu gpu now =>
    rw [undergo] at among
    split at among
    · exact .inl (List.mem_filter.mp among).1
    · exact .inl among

theorem undergoAll_ordered (s : Settings) (ordered : AreOrdered r.hints) (events : List Event) :
    AreOrdered (r.undergoAll s events).hints := by
  induction events generalizing r with
  | nil => exact ordered
  | cons event rest ih => exact ih (undergo_ordered s ordered event)

end Registry

/-! ## The decisions on a course -/

/-- What is left behind by a decision in a situation. Where no speed can be decided, the zone is the
new one already. -/
def Hysteresis.meet (c : FanControl) (h : Hysteresis) (x : Situation) : Hysteresis :=
  match h.pass c x with
  | .ok next => next
  | .error _ => { h with zone := classify x.cpu x.gpu (isBreach c x.cpu x.gpu) }

namespace State

/-- What an event makes of the state. -/
def undergo (s : Settings) (st : State) (event : Event) : State :=
  match event with
  | .cycle cpu gpu now => (st.commit s cpu gpu now).1
  | request => { st with registry := st.registry.undergo s request }

/-- What events make of the state, one after another. -/
def undergoAll (s : Settings) (st : State) (events : List Event) : State :=
  events.foldl (undergo s) st

/-- What comes of a cycle. -/
def outcome? (s : Settings) (st : State) : Event → Option (Except OutOfCalendar Report)
  | .cycle cpu gpu now => some (st.commit s cpu gpu now).2
  | _ => none

/-- What comes of the cycles among some events. -/
def outcomes (s : Settings) (st : State) : List Event → List (Except OutOfCalendar Report)
  | [] => []
  | event :: rest => (st.outcome? s event).toList ++ (st.undergo s event).outcomes s rest

variable {st : State}

@[simp] theorem undergoAll_nil (s : Settings) (st : State) : st.undergoAll s [] = st :=
  rfl

@[simp] theorem undergoAll_cons (s : Settings) (st : State) (event : Event) (rest : List Event) :
    st.undergoAll s (event :: rest) = (st.undergo s event).undergoAll s rest :=
  rfl

theorem undergoAll_append (s : Settings) (st : State) (first second : List Event) :
    st.undergoAll s (first ++ second) = (st.undergoAll s first).undergoAll s second :=
  List.foldl_append

theorem outcomes_append (s : Settings) (st : State) (first second : List Event) :
    st.outcomes s (first ++ second) =
      st.outcomes s first ++ (st.undergoAll s first).outcomes s second := by
  induction first generalizing st with
  | nil => rfl
  | cons event rest ih =>
    rw [List.cons_append, outcomes, outcomes, ih, List.append_assoc]
    rfl

theorem undergo_of_request (s : Settings) (st : State) {event : Event}
    (request : event.cycleTime? = none) :
    st.undergo s event = { st with registry := st.registry.undergo s event } := by
  cases event with
  | cycle => cases request
  | addHint | removeHint | setOverride | clearOverride => rfl

/-- A commit that can forget samples evicts what is past and decides. -/
theorem commit_of_cutoff {cutoff : Instant} (cut : s.monitoring.cutoff now = .ok cutoff) :
    st.commit s cpu gpu now =
      match st.hysteresis.decide s.fanControl (st.registry.evict now) cpu.max gpu.max now with
      | .error e => (st.undecided s.fanControl cpu gpu now cutoff, .error e)
      | .ok h =>
        (st.decided cpu gpu now cutoff h, .ok ((st.decided cpu gpu now cutoff h).report now)) := by
  obtain ⟨retention, kept, cut⟩ := ok_of_bind cut
  exact commit_eq kept cut

/-- A commit that cannot forget samples breaks off and changes the samples only, in a way that does
not depend on the registry. -/
theorem commit_of_no_cutoff (st : State) (cpu : CpuReading) (gpu : GpuReading) {e : OutOfCalendar}
    (uncut : s.monitoring.cutoff now = .error e) :
    ∃ cpuSamples gpuSamples, ∀ registry : Registry,
      { st with registry }.commit s cpu gpu now =
        ({ st with registry, cpuSamples, gpuSamples }, .error e) := by
  rw [Monitoring.cutoff] at uncut
  cases kept : s.monitoring.effectiveRetention with
  | error e' =>
    rw [kept] at uncut
    cases uncut
    exact ⟨st.cpuSamples, st.gpuSamples, fun registry => by simp only [commit, kept]⟩
  | ok retention =>
    rw [kept] at uncut
    change now.sub retention = _ at uncut
    refine ⟨st.cpuSamples.push cpu.max now, st.gpuSamples.push gpu.max now, fun registry => ?_⟩
    simp only [commit, kept, trim_eq, uncut, Except.map, observe]

theorem commit_result_of_no_cutoff {e : OutOfCalendar}
    (uncut : s.monitoring.cutoff now = .error e) : (st.commit s cpu gpu now).2 = .error e := by
  obtain ⟨cpuSamples, gpuSamples, broken⟩ := commit_of_no_cutoff st cpu gpu uncut
  rw [broken st.registry]

/-- What comes of a commit depends on what the last decision left behind, on the registry, and on the
highest temperatures. -/
theorem commit_result {cutoff : Instant} (cut : s.monitoring.cutoff now = .ok cutoff) :
    (st.commit s cpu gpu now).2 =
      (st.hysteresis.pass s.fanControl ⟨cpu.max, gpu.max, st.registry.evict now, now⟩).map
        fun h => ⟨now, cpu.max, gpu.max, h.currentSpeed, h.zone, (st.registry.evict now).mode now⟩ := by
  rw [commit_of_cutoff cut, Hysteresis.pass]
  cases st.hysteresis.decide s.fanControl (st.registry.evict now) cpu.max gpu.max now <;> rfl

theorem undergo_registry (s : Settings) (st : State) (event : Event) :
    (st.undergo s event).registry = st.registry.undergo s event := by
  cases event with
  | cycle cpu gpu now =>
    change (st.commit s cpu gpu now).1.registry = _
    cases cut : s.monitoring.cutoff now with
    | ok cutoff =>
      rw [Registry.undergo_cycle cut, commit_of_cutoff cut]
      split <;> rfl
    | error e =>
      obtain ⟨cpuSamples, gpuSamples, broken⟩ := commit_of_no_cutoff st cpu gpu cut
      rw [Registry.undergo_broken cut, broken st.registry]
  | addHint | removeHint | setOverride | clearOverride => rfl

/-- An event comes to a decision in its situation, or it leaves alone what the last decision left
behind. -/
theorem undergo_hysteresis (s : Settings) (st : State) (event : Event) :
    (st.undergo s event).hysteresis =
      (st.registry.situation? s event).toList.foldl (.meet s.fanControl) st.hysteresis := by
  cases event with
  | cycle cpu gpu now =>
    change (st.commit s cpu gpu now).1.hysteresis = _
    cases cut : s.monitoring.cutoff now with
    | ok cutoff =>
      rw [Registry.situation?_cycle cut, commit_of_cutoff cut]
      change _ = st.hysteresis.meet s.fanControl _
      rw [Hysteresis.meet, Hysteresis.pass]
      cases st.hysteresis.decide s.fanControl (st.registry.evict now) cpu.max gpu.max now <;> rfl
    | error e =>
      obtain ⟨cpuSamples, gpuSamples, broken⟩ := commit_of_no_cutoff st cpu gpu cut
      rw [Registry.situation?_broken cut, broken st.registry]
      rfl
  | addHint | removeHint | setOverride | clearOverride => rfl

/-- The registry of a course is the one that the events make of it alone. -/
theorem undergoAll_registry (s : Settings) (st : State) (events : List Event) :
    (st.undergoAll s events).registry = st.registry.undergoAll s events := by
  induction events generalizing st with
  | nil => rfl
  | cons event rest ih =>
    rw [undergoAll_cons, ih, undergo_registry]
    rfl

/-- What a course leaves behind for the next decision is what its situations, met one after another,
leave behind. -/
theorem undergoAll_hysteresis (s : Settings) (st : State) (events : List Event) :
    (st.undergoAll s events).hysteresis =
      (st.registry.situations s events).foldl (.meet s.fanControl) st.hysteresis := by
  induction events generalizing st with
  | nil => rfl
  | cons event rest ih =>
    rw [undergoAll_cons, ih, undergo_registry, undergo_hysteresis, Registry.situations,
      List.foldl_append]

/-- A request that comes to its end is an event. -/
theorem exists_undergo_of_step (s : Settings) (st : State) {registry : Registry}
    (step : RegistryStep st.registry registry) :
    ∃ event, st.undergo s event = { st with registry } := by
  cases step with
  | @addHint request now hint next added =>
    refine ⟨.addHint request now, ?_⟩
    rw [undergo_of_request s st rfl, Registry.undergo, added]
  | removeHint source => exact ⟨.removeHint source, rfl⟩
  | @setOverride speed duration reason now result next answered =>
    refine ⟨.setOverride speed duration reason now, ?_⟩
    rw [undergo_of_request s st rfl, Registry.undergo, answered]
  | clearOverride => exact ⟨.clearOverride, rfl⟩

theorem undergo_reachable (reached : Reachable s (fun _ _ _ => True) st) (event : Event) :
    Reachable s (fun _ _ _ => True) (st.undergo s event) := by
  cases request : event.cycleTime? with
  | none =>
    rw [undergo_of_request s st request]
    obtain same | step := Registry.undergo_request s st.registry request
    · rwa [same]
    · exact reached.request step
  | some now =>
    cases event with
    | cycle cpu gpu now => exact reached.commit trivial
    | addHint | removeHint | setOverride | clearOverride => cases request

theorem undergoAll_reachable (reached : Reachable s (fun _ _ _ => True) st)
    (events : List Event) : Reachable s (fun _ _ _ => True) (st.undergoAll s events) := by
  induction events generalizing st with
  | nil => exact reached
  | cons event rest ih => exact ih (undergo_reachable reached event)

/-- Courses from the start lead to the states that can be reached, and to no others. -/
theorem reachable_iff_course {s : Settings} {st : State} :
    Reachable s (fun _ _ _ => True) st ↔ ∃ events, (start s).undergoAll s events = st := by
  constructor
  · intro reached
    induction reached with
    | start => exact ⟨[], rfl⟩
    | @request st _ _ step ih =>
      obtain ⟨events, rfl⟩ := ih
      obtain ⟨event, done⟩ := exists_undergo_of_step s _ step
      exact ⟨events ++ [event], by rw [undergoAll_append, ← done]; rfl⟩
    | @commit st _ cpu gpu now _ ih =>
      obtain ⟨events, rfl⟩ := ih
      exact ⟨events ++ [.cycle cpu gpu now], undergoAll_append ..⟩
  · rintro ⟨events, rfl⟩
    exact undergoAll_reachable .start events

end State

end Control

end ChassisCooling
