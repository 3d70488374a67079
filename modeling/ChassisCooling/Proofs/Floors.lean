import ChassisCooling.Proofs.Courses

/-! # Hints are a floor and nothing else

A decision with hints is the decision without them, raised to the highest floor among those that are
live. So a hint that is gone before the next decision, withdrawn or past, leaves nothing behind: the
registry without the hint's source is all along the registry in which the hint never was.
-/

namespace ChassisCooling.Control

open Calendar

/-! ## One decision -/

instance instLawfulOrderMaxUInt8 : Std.LawfulOrderMax UInt8 where
  max_le_iff a b c := by
    simp only [UInt8.le_iff_toNat_le, toNat_max]
    omega
  max_eq_or a b := by
    simp only [← UInt8.toNat_inj, toNat_max]
    omega

/-- A floor under a speed, limited, is a floor under the limited speed. -/
theorem clamp_raiseTo (c : FanControl) (floor : UInt8) (speed : Int) :
    c.clamp (toSpeed (raiseTo (some floor) speed)) =
      max (c.clamp (toSpeed speed)) (c.clamp floor) := by
  have byte := floor.toNat_lt
  refine UInt8.toNat_inj.mp ?_
  simp only [raiseTo, toNat_max, FanControl.toNat_clamp, toNat_toSpeed]
  omega

/-- The highest floor among some hints. -/
structure IsHighestFloor (hints : List Hint) (floor : UInt8) : Prop where
  among : ∃ h ∈ hints, h.floor = floor
  highest : ∀ h ∈ hints, h.floor ≤ floor

namespace Registry

variable {r : Registry} {now : Instant} {floor : UInt8}

theorem hintFloor_eq_some_iff :
    r.hintFloor now = some floor ↔ IsHighestFloor (r.liveHints now) floor := by
  rw [hintFloor, List.max?_eq_some_iff, List.mem_map, List.forall_mem_map]
  exact ⟨fun found => ⟨found.1, found.2⟩, fun found => ⟨found.among, found.highest⟩⟩

theorem hintFloor_eq_none_iff : r.hintFloor now = none ↔ r.liveHints now = [] := by
  rw [hintFloor, List.max?_eq_none_iff, List.map_eq_nil_iff]

/-- The registry with all hints removed. -/
def unhinted (r : Registry) : Registry :=
  { r with hints := [] }

end Registry

/-- Without an active override, a decision is the one without hints, raised to the highest floor. -/
theorem Hysteresis.decide_unhinted (c : FanControl) (h : Hysteresis) (r : Registry) (cpu gpu : Int32)
    (now : Instant) (free : r.activeOverride now = none) :
    h.decide c r cpu gpu now = (h.decide c r.unhinted cpu gpu now).map fun d =>
      { d with targetSpeed :=
          (r.hintFloor now).elim d.targetSpeed fun floor => max d.targetSpeed (c.clamp floor) } := by
  have freely : r.unhinted.activeOverride now = none := free
  rw [decide_of_automatic free, decide_of_automatic freely]
  cases h.automatic c cpu gpu now with
  | error e => rfl
  | ok speed =>
    cases r.hintFloor now with
    | none => rfl
    | some floor =>
      simp only [Except.map, Option.elim, clamp_raiseTo]
      rfl

/-! ## A hint that comes and goes -/

/-- The event gives a source a hint or takes it away. -/
def Event.concerns (source : String) : Event → Bool
  | .addHint request _ => request.source == source
  | .removeHint other => other == source
  | _ => false

/-- The event is a cycle that can forget its samples, and so comes to a decision. -/
def Event.decides (s : Settings) : Event → Bool
  | .cycle _ _ now => (s.monitoring.cutoff now).isOk
  | _ => false

namespace Registry

variable {s : Settings} {r r' : Registry} {now t : Instant} {request : HintRequest}
  {source : String}

/-- Adding the hint of one source and withdrawing that of another may change places. -/
theorem filter_insertHint_of_ne {hints : List Hint} (ordered : AreOrdered hints) {hint : Hint}
    (other : hint.source ≠ source) :
    (insertHint hint hints).filter (fun h => h.source != source) =
      insertHint hint (hints.filter fun h => h.source != source) := by
  refine AreOrdered.ext (ordered.insertHint.filter _) (AreOrdered.insertHint (ordered.filter _)) ?_
  intro h
  rw [List.mem_filter, mem_insertHint ordered, mem_insertHint (ordered.filter _), List.mem_filter,
    bne_iff_ne]
  constructor
  · rintro ⟨rfl | ⟨among, apart⟩, kept⟩
    · exact .inl rfl
    · exact .inr ⟨⟨among, kept⟩, apart⟩
  · rintro (rfl | ⟨⟨among, kept⟩, apart⟩)
    · exact ⟨.inl rfl, other⟩
    · exact ⟨.inr ⟨among, apart⟩, kept⟩

/-- An event and the withdrawal of a hint that it does not concern may change places. -/
theorem removeHint_undergo (s : Settings) (ordered : AreOrdered r.hints) {event : Event}
    (other : event.concerns source = false) :
    (r.undergo s event).removeHint source = (r.removeHint source).undergo s event := by
  cases event with
  | addHint request now =>
    rw [undergo_addHint, undergo_addHint]
    cases made : hintOf request now with
    | error e => rfl
    | ok hint =>
      have apart : hint.source ≠ source :=
        (hintOf_cases made).1 ▸ beq_eq_false_iff_ne.mp other
      exact congrArg (Registry.mk · _) (filter_insertHint_of_ne ordered apart)
  | removeHint other =>
    exact congrArg (Registry.mk · _) (List.filter_comm ..)
  | setOverride speed duration reason now =>
    rw [undergo_setOverride, undergo_setOverride]
    rfl
  | clearOverride => rfl
  | cycle cpu gpu now =>
    rw [undergo, undergo]
    split
    · exact congrArg (Registry.mk · _) (List.filter_comm ..)
    · rfl

/-- A hint of a source that an event does not concern was there before. -/
theorem mem_of_mem_undergo (s : Settings) (ordered : AreOrdered r.hints) {event : Event} {h : Hint}
    (other : event.concerns h.source = false) (among : h ∈ (r.undergo s event).hints) :
    h ∈ r.hints := by
  obtain before | ⟨request, t, rfl, made⟩ := mem_undergo s ordered among
  · exact before
  · exact absurd (hintOf_cases made).1.symm (beq_eq_false_iff_ne.mp other)

theorem removeHint_of_not_hasHint (absent : r.hasHint source = false) :
    r.removeHint source = r := by
  refine congrArg (Registry.mk · _) (List.filter_eq_self.mpr fun h among => ?_)
  rw [hasHint, List.any_eq_false] at absent
  exact bne_iff_ne.mpr fun same => absent h among (beq_iff_eq.mpr same)

/-- The second registry is the first one and, unless it has gone, the hint of a request besides. -/
structure IsGuest (request : HintRequest) (t : Instant) (r r' : Registry) : Prop where
  ordered : AreOrdered r'.hints
  others : r'.removeHint request.source = r
  asked : ∀ h ∈ r'.hints, h.source = request.source → hintOf request t = .ok h

theorem isGuest_addHint (s : Settings) (ordered : AreOrdered r.hints)
    (absent : r.hasHint request.source = false) :
    IsGuest request t r (r.undergo s (.addHint request t)) where
  ordered := undergo_ordered s ordered _
  others := by
    have same := removeHint_of_not_hasHint absent
    rw [undergo_addHint]
    cases made : hintOf request t with
    | error e => exact same
    | ok hint =>
      rw [← (hintOf_cases made).1] at same ⊢
      exact (congrArg (Registry.mk · _) (filter_insertHint hint r.hints)).trans same
  asked h among source := by
    obtain before | ⟨_, _, ⟨⟩, made⟩ := mem_undergo s ordered among
    · rw [hasHint, List.any_eq_false] at absent
      exact absurd (beq_iff_eq.mpr source) (absent h before)
    · exact made

theorem IsGuest.undergo (guest : IsGuest request t r r') {event : Event}
    (other : event.concerns request.source = false) :
    IsGuest request t (r.undergo s event) (r'.undergo s event) where
  ordered := undergo_ordered s guest.ordered event
  others := by rw [removeHint_undergo s guest.ordered other, guest.others]
  asked h among source := by
    rw [← source] at other
    exact guest.asked h (mem_of_mem_undergo s guest.ordered other among) source

theorem IsGuest.undergoAll (guest : IsGuest request t r r') {events : List Event}
    (other : ∀ e ∈ events, e.concerns request.source = false) :
    IsGuest request t (r.undergoAll s events) (r'.undergoAll s events) := by
  induction events generalizing r r' with
  | nil => exact guest
  | cons event rest ih =>
    obtain ⟨first, later⟩ := List.forall_mem_cons.mp other
    exact ih (guest.undergo first) later

/-- A guest that is past at a time is not among the live hints. -/
theorem IsGuest.liveHints (guest : IsGuest request t r r')
    (past : ∀ h, hintOf request t = .ok h → h.isExpired now = true) :
    r'.liveHints now = r.liveHints now := by
  rw [← guest.others, removeHint, Registry.liveHints, Registry.liveHints, List.filter_filter]
  refine List.filter_congr fun h among => ?_
  by_cases source : h.source = request.source
  · rw [past h (guest.asked h among source)]
    rfl
  · rw [bne_iff_ne.mpr source, Bool.and_true]

theorem IsGuest.evict (guest : IsGuest request t r r')
    (past : ∀ h, hintOf request t = .ok h → h.isExpired now = true) :
    r'.evict now = r.evict now := by
  have same : r'.override = r.override := by
    rw [← guest.others]
    rfl
  rw [Registry.evict, Registry.evict, guest.liveHints past, activeOverride, activeOverride, same]

end Registry

namespace State

variable {s : Settings} {st : State} {r : Registry} {cpu : CpuReading} {gpu : GpuReading}
  {now : Instant}

/-- An event that comes to no decision does the same to states that differ in their registries, and
keeps them apart in nothing else. -/
theorem undergo_withRegistry (s : Settings) (st : State) (r : Registry) {event : Event}
    (quiet : event.decides s = false) :
    { st with registry := r }.undergo s event =
        { st.undergo s event with registry := r.undergo s event } ∧
      { st with registry := r }.outcome? s event = st.outcome? s event := by
  cases event with
  | cycle cpu gpu now =>
    cases cut : s.monitoring.cutoff now with
    | ok cutoff =>
      rw [Event.decides, cut] at quiet
      cases quiet
    | error e =>
      obtain ⟨cpuSamples, gpuSamples, broken⟩ := commit_of_no_cutoff st cpu gpu cut
      have here : st.commit s cpu gpu now = _ := broken st.registry
      rw [undergo, undergo, outcome?, outcome?, broken r, here, Registry.undergo_broken cut]
      exact ⟨rfl, rfl⟩
  | addHint | removeHint | setOverride | clearOverride => exact ⟨rfl, rfl⟩

theorem undergoAll_withRegistry (s : Settings) (st : State) (r : Registry) {events : List Event}
    (quiet : ∀ e ∈ events, e.decides s = false) :
    { st with registry := r }.undergoAll s events =
        { st.undergoAll s events with registry := r.undergoAll s events } ∧
      { st with registry := r }.outcomes s events = st.outcomes s events := by
  induction events generalizing st r with
  | nil => exact ⟨rfl, rfl⟩
  | cons event rest ih =>
    obtain ⟨first, later⟩ := List.forall_mem_cons.mp quiet
    obtain ⟨led, told⟩ := undergo_withRegistry s st r first
    obtain ⟨led', told'⟩ := ih (st.undergo s event) (r.undergo s event) later
    rw [undergoAll_cons, undergoAll_cons, outcomes, outcomes, led, told, led', told']
    exact ⟨rfl, rfl⟩

/-- A commit looks at what is left of the registry after the eviction. -/
theorem commit_withRegistry {cutoff : Instant} (cut : s.monitoring.cutoff now = .ok cutoff)
    (same : r.evict now = st.registry.evict now) :
    { st with registry := r }.commit s cpu gpu now = st.commit s cpu gpu now := by
  rw [commit_of_cutoff cut, commit_of_cutoff cut, same]
  simp only [decided, undecided, observe, forget, refresh, same]

end State

/-- A cycle looks at what is left of the registry after the eviction, and at the number of live
hints. -/
theorem cycle_withRegistry {σ : Type} (host : Host σ) (s : Settings) (st : State) (r : Registry)
    (w : σ) {first now cutoff : Instant} (shown : host.now w = .ok first)
    (count : (r.liveHints first).length = (st.registry.liveHints first).length)
    (shown' : host.now (host.sense (st.registry.liveHints first).length w).2 = .ok now)
    (cut : s.monitoring.cutoff now = .ok cutoff) (same : r.evict now = st.registry.evict now) :
    cycle host s { st with registry := r } w = cycle host s st w := by
  rw [cycle_eq, cycle_eq]
  simp only [shown, count, shown', State.commit_withRegistry cut same]

namespace State

variable {s : Settings} {st : State} {request : HintRequest} {now t : Instant}
  {before between as as' bs bs' : List Event}

/-- Two courses report the same and lead to the same state. -/
structure SameCourse (s : Settings) (st : State) (as bs : List Event) : Prop where
  outcomes : st.outcomes s as = st.outcomes s bs
  state : st.undergoAll s as = st.undergoAll s bs

theorem SameCourse.of_append (told : st.outcomes s as = st.outcomes s bs)
    (told' : (st.undergoAll s as).outcomes s as' = (st.undergoAll s bs).outcomes s bs')
    (led : (st.undergoAll s as).undergoAll s as' = (st.undergoAll s bs).undergoAll s bs') :
    SameCourse s st (as ++ as') (bs ++ bs') where
  outcomes := by rw [outcomes_append, outcomes_append, told, told']
  state := by rw [undergoAll_append, undergoAll_append, led]

/-- Until the next decision, a hint of a source that has none makes no difference but that it is in
the registry. -/
theorem guest_course (st : State) (ordered : AreOrdered st.registry.hints) (t : Instant)
    (absent : (st.undergoAll s before).registry.hasHint request.source = false)
    (quiet : ∀ e ∈ between, e.concerns request.source = false ∧ e.decides s = false) :
    ∃ r, Registry.IsGuest request t (st.undergoAll s (before ++ between)).registry r ∧
      st.undergoAll s (before ++ .addHint request t :: between) =
        { st.undergoAll s (before ++ between) with registry := r } ∧
      st.outcomes s (before ++ .addHint request t :: between) =
        st.outcomes s (before ++ between) := by
  rw [undergoAll_append, undergoAll_append, outcomes_append, outcomes_append]
  have ordered : AreOrdered (st.undergoAll s before).registry.hints := by
    rw [undergoAll_registry]
    exact Registry.undergoAll_ordered s ordered before
  generalize st.undergoAll s before = st at absent ordered ⊢
  -- The registries go their ways apart; the rest of the state follows one of them only.
  have guest := (Registry.isGuest_addHint (t := t) s ordered absent).undergoAll (s := s)
    fun e among => (quiet e among).1
  obtain ⟨led, told⟩ := undergoAll_withRegistry s st (st.registry.undergo s (.addHint request t))
    fun e among => (quiet e among).2
  rw [← undergoAll_registry] at guest
  exact ⟨_, guest, led, congrArg _ told⟩

/-- Once the guest is withdrawn, the state is the one in which it never was. -/
theorem undergo_removeHint_guest {r : Registry} (guest : Registry.IsGuest request t st.registry r) :
    { st with registry := r }.undergo s (.removeHint request.source) = st :=
  congrArg (fun registry : Registry => { st with registry }) guest.others

end State

/-- Where no override is active, a decision is the one without hints, raised to the limited highest
floor of the live hints, if there are any; nothing else of it depends on hints. So a hint of a source
without one makes no difference to any cycle, if it is withdrawn before the next decision, or past
at the times of the cycle that comes to it. -/
theorem hints_are_floor :
    (∀ (c : FanControl) (h : Hysteresis) (r : Registry) (cpu gpu : Int32) (now : Instant),
      r.activeOverride now = none →
      (r.liveHints now = [] ∧ h.decide c r cpu gpu now = h.decide c r.unhinted cpu gpu now) ∨
      ∃ floor, IsHighestFloor (r.liveHints now) floor ∧
        h.decide c r cpu gpu now = (h.decide c r.unhinted cpu gpu now).map fun d =>
          { d with targetSpeed := max d.targetSpeed (c.clamp floor) }) ∧
    ∀ (s : Settings) (before between later : List Event) (request : HintRequest) (t : Instant),
      ((State.start s).undergoAll s before).registry.hasHint request.source = false →
      (∀ e ∈ between, e.concerns request.source = false ∧ e.decides s = false) →
      let hinted := before ++ .addHint request t :: between
      let never := before ++ between
      (State.start s).SameCourse s (hinted ++ .removeHint request.source :: later)
        (never ++ later) ∧
      ∀ now cutoff, s.monitoring.cutoff now = .ok cutoff →
        (∀ h, Registry.hintOf request t = .ok h → h.isExpired now = true) →
        (∀ cpu gpu, (State.start s).SameCourse s (hinted ++ .cycle cpu gpu now :: later)
          (never ++ .cycle cpu gpu now :: later)) ∧
        ∀ (σ : Type) (host : Host σ) (w : σ) (first : Instant), host.now w = .ok first →
          (∀ h, Registry.hintOf request t = .ok h → h.isExpired first = true) →
          (let live := ((State.start s).undergoAll s never).registry.liveHints first;
            host.now (host.sense live.length w).2 = .ok now) →
          cycle host s ((State.start s).undergoAll s hinted) w =
            cycle host s ((State.start s).undergoAll s never) w := by
  constructor
  · intro c h r cpu gpu now free
    have raised := h.decide_unhinted c r cpu gpu now free
    cases floor : r.hintFloor now with
    | none =>
      refine .inl ⟨Registry.hintFloor_eq_none_iff.mp floor, ?_⟩
      rw [raised, floor]
      cases h.decide c r.unhinted cpu gpu now <;> rfl
    | some f =>
      rw [floor] at raised
      exact .inr ⟨f, Registry.hintFloor_eq_some_iff.mp floor, raised⟩
  · intro s before between later request t absent quiet hinted never
    obtain ⟨r, guest, led, told⟩ := State.guest_course (.start s) .nil t absent quiet
    refine ⟨?_, fun now cutoff cut past => ⟨fun cpu gpu => ?_, ?_⟩⟩
    · have gone : ((State.start s).undergoAll s hinted).undergo s (.removeHint request.source) =
          (State.start s).undergoAll s never := led ▸ State.undergo_removeHint_guest guest
      refine .of_append told ?_ ?_
      · rw [State.outcomes, gone]
        rfl
      · rw [State.undergoAll_cons, gone]
    · have same : ((State.start s).undergoAll s hinted).commit s cpu gpu now =
          ((State.start s).undergoAll s never).commit s cpu gpu now :=
        led ▸ State.commit_withRegistry cut (guest.evict past)
      refine .of_append told ?_ ?_
      · simp only [State.outcomes, State.outcome?, State.undergo, same]
      · simp only [State.undergoAll_cons, State.undergo, same]
    · intro σ host w first shown past' shown'
      rw [led]
      exact cycle_withRegistry host s _ r w shown (by rw [guest.liveHints past']) shown' cut
        (guest.evict past)

/-- A hint of a minute, of high intensity. -/
def briefHint : HintRequest :=
  ⟨"load", "start", "high", "job", ⟨60000000000⟩⟩

def warmCycle : Event :=
  .cycle (.ofTemps [80]) .empty (.ofMillis 0)

def calmCycle : Event :=
  .cycle (.ofTemps [40]) .empty (.ofMillis 200000)

/-- After a cycle at 80 degrees and the hint. -/
def hintedState : State :=
  (State.start .default).undergoAll .default
    [warmCycle, .addHint briefHint (.ofMillis 20000), .clearOverride]

/-- The hint raises the speed while it is live. Withdrawn, or past when the clock shows the second
200, it has left nothing behind. -/
theorem brief_hint_forgotten :
    let asked : Event := .addHint briefHint (.ofMillis 20000)
    let host := Host.still (.ofMillis 200000) (.ofTemps [40]) .empty
    let decision (r : Registry) :=
      hintedState.hysteresis.decide .default r 40 0 (.ofMillis 50000)
    (∃ d, decision hintedState.registry.unhinted = .ok d ∧ d.targetSpeed = 30 ∧
      decision hintedState.registry = .ok { d with targetSpeed := 45 }) ∧
    (State.start .default).SameCourse .default
      [warmCycle, asked, .clearOverride, .removeHint "job", calmCycle]
      [warmCycle, .clearOverride, calmCycle] ∧
    (State.start .default).SameCourse .default [warmCycle, asked, .clearOverride, calmCycle]
      [warmCycle, .clearOverride, calmCycle] ∧
    cycle host .default hintedState () =
      cycle host .default ((State.start .default).undergoAll .default
        [warmCycle, .clearOverride]) () := by
  intro asked host decision
  obtain ⟨raised, forgotten⟩ := hints_are_floor
  have quiet : ∀ e ∈ [Event.clearOverride],
      e.concerns "job" = false ∧ e.decides .default = false := by
    intro e among
    obtain rfl := List.mem_singleton.mp among
    exact ⟨rfl, rfl⟩
  have past : ∀ h, Registry.hintOf briefHint (.ofMillis 20000) = .ok h →
      h.isExpired (.ofMillis 200000) = true := by
    intro h made
    cases made
    rfl
  obtain ⟨withdrawn, passes⟩ := forgotten .default [warmCycle] [.clearOverride] [calmCycle]
    briefHint (.ofMillis 20000) rfl quiet
  obtain ⟨-, passed⟩ := forgotten .default [warmCycle] [.clearOverride] [] briefHint
    (.ofMillis 20000) rfl quiet
  obtain ⟨-, cycled⟩ := passes (.ofMillis 200000) _ rfl past
  refine ⟨?_, withdrawn, (passed (.ofMillis 200000) _ rfl past).1 _ _,
    cycled Unit host () _ rfl past rfl⟩
  have live : hintedState.registry.hintFloor (.ofMillis 50000) = some 45 := rfl
  obtain ⟨unhinted, -⟩ | ⟨floor, highest, decided⟩ :=
    raised .default hintedState.hysteresis hintedState.registry 40 0 (.ofMillis 50000) rfl
  · rw [Registry.hintFloor_eq_none_iff.mpr unhinted] at live
    cases live
  · rw [Registry.hintFloor_eq_some_iff.mpr highest] at live
    cases live
    exact ⟨_, rfl, rfl, decided⟩

end ChassisCooling.Control
