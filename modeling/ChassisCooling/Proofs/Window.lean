import ChassisCooling.Proofs.Courses
import ChassisCooling.Proofs.Endurance
import Mathlib.Data.List.Induction
import Mathlib.Data.List.TakeWhile

/-! # The window of samples

Samples are dropped from the front, one cycle after another, each with its own cutoff. As long as the
clock does not go back, what is left is what the last cutoff alone would have left of all samples,
and a trend, which looks back over a minute, finds what it would have found had nothing been dropped.
-/

namespace ChassisCooling

open Calendar

namespace Calendar.Instant

variable {t u : Instant}

/-- The instant so many seconds before, whether or not it lies in the calendar. -/
def earlier (t : Instant) (seconds : Int) : Instant :=
  ofNanos (t.nanos - seconds * 1000000000)

/-- A time as a clock shows it: it lies in the calendar, and in no leap second. -/
structure IsShown (t : Instant) : Prop where
  nano : t.nano < 1000000000
  inside : inCalendar t.second = true

theorem inCalendar_iff {second : Int} :
    inCalendar second = true ↔ firstSecond ≤ second ∧ second ≤ lastSecond := by
  rw [inCalendar, Bool.and_eq_true, decide_eq_true_eq, decide_eq_true_eq]

theorem sub_seconds (t : Instant) (seconds : Int) :
    t.sub ⟨seconds * 1000000000⟩ =
      if inCalendar (t.earlier seconds).second then .ok (t.earlier seconds)
      else .error .outOfCalendar :=
  rfl

theorem earlier_lt {seconds : Int} (least : 1 ≤ seconds) (t : Instant) :
    t.earlier seconds < t := by
  change rank _ < rank t
  have := t.nano_lt
  simp only [earlier, ofNanos, nanos, rank]
  omega

/-- The longer ago, and the earlier the time it is reckoned from, the earlier. -/
theorem earlier_le_earlier (shown : t.nano < 1000000000) (shown' : u.nano < 1000000000)
    (order : t ≤ u) {seconds fewer : Int} (longer : fewer ≤ seconds) :
    t.earlier seconds ≤ u.earlier fewer := by
  change rank t ≤ rank u at order
  change rank _ ≤ rank _
  simp only [earlier, ofNanos, nanos, rank] at order ⊢
  omega

/-- Where the calendar does not reach back, all of its times are later. -/
theorem earlier_lt_of_outside (shown : t.IsShown) (inside : inCalendar u.second = true)
    {seconds : Int} (least : 1 ≤ seconds)
    (outside : inCalendar (t.earlier seconds).second = false) : t.earlier seconds < u := by
  have inside' := inCalendar_iff.mp shown.inside
  have inside := inCalendar_iff.mp inside
  have outside := mt inCalendar_iff.mpr (Bool.eq_false_iff.mp outside)
  have nano := shown.nano
  change rank _ < rank _
  simp only [earlier, ofNanos, nanos, rank] at outside ⊢
  omega

end Calendar.Instant

namespace Control

/-- Times that a clock shows one after another, and it does not go back. -/
structure Steady (times : List Instant) : Prop where
  shown : ∀ t ∈ times, t.IsShown
  ordered : times.Pairwise (· ≤ ·)

namespace Samples

variable {samples xs : Samples} {x y : Sample} {cutoff : Instant} {seconds : Int}

/-- The times of samples. -/
def times (samples : Samples) : List Instant :=
  samples.map Sample.time

/-- A sample joins, and what is too old is dropped. Where the calendar does not reach back to the
cutoff nothing is dropped. -/
def join (retention : Span) (samples : Samples) (x : Sample) : Samples :=
  match x.time.sub retention with
  | .ok cutoff => (samples.push x.value x.time).dropWhile fun y => y.time ≤ cutoff
  | .error _ => samples.push x.value x.time

/-- Samples join one after another. -/
def collect (retention : Span) (xs : Samples) : Samples :=
  xs.foldl (join retention) []

/-- What is dropped from the front of samples in order is all that is no younger than the cutoff. -/
theorem lt_of_mem_dropWhile (ordered : (times xs).Pairwise (· ≤ ·))
    (among : y ∈ xs.dropWhile fun y => y.time ≤ cutoff) : cutoff < y.time := by
  induction xs with
  | nil => cases among
  | cons x rest ih =>
    obtain ⟨first, later⟩ := List.pairwise_cons.mp ordered
    rw [List.dropWhile_cons] at among
    split at among
    · exact ih later among
    · next young =>
      have young : cutoff < x.time := Int.not_le.mp fun old => young (decide_eq_true old)
      obtain rfl | behind := List.mem_cons.mp among
      · exact young
      · exact Int.lt_of_lt_of_le young (first _ (List.mem_map_of_mem behind))

/-- What has been dropped stood in front, and was too old for one of the cycles. -/
theorem exists_dropped (seconds : Int) (xs : Samples) :
    ∃ dropped, xs = dropped ++ collect ⟨seconds * 1000000000⟩ xs ∧
      ∀ y ∈ dropped, ∃ x ∈ xs, y.time ≤ x.time.earlier seconds := by
  -- By the cycles, the last one first: what it drops stood at the front of what was left before it.
  induction xs using List.reverseRecOn with
  | nil => exact ⟨[], rfl, nofun⟩
  | append_singleton xs x ih =>
    obtain ⟨dropped, split, old⟩ := ih
    have joined : collect ⟨seconds * 1000000000⟩ (xs ++ [x]) =
        join ⟨seconds * 1000000000⟩ (collect ⟨seconds * 1000000000⟩ xs) x :=
      List.foldl_append
    have old : ∀ y ∈ dropped, ∃ z ∈ xs ++ [x], y.time ≤ z.time.earlier seconds := by
      intro y among
      obtain ⟨z, before, le⟩ := old y among
      exact ⟨z, List.mem_append_left _ before, le⟩
    have all : xs ++ [x] = dropped ++ (collect ⟨seconds * 1000000000⟩ xs).push x.value x.time := by
      rw [push, ← List.append_assoc, ← split]
    rw [joined, join, Instant.sub_seconds]
    split
    · next cutoff cut =>
      obtain rfl : cutoff = x.time.earlier seconds := by
        split at cut
        · exact (Except.ok.inj cut).symm
        · cases cut
      refine ⟨dropped ++ ((collect ⟨seconds * 1000000000⟩ xs).push x.value x.time).takeWhile
        (fun y => y.time ≤ x.time.earlier seconds), ?_, ?_⟩
      · rw [List.append_assoc, List.takeWhile_append_dropWhile, all]
      · intro y among
        obtain before | now := List.mem_append.mp among
        · exact old y before
        · have le := List.mem_takeWhile_imp now
          exact ⟨x, List.mem_append_right _ (List.mem_singleton_self x), of_decide_eq_true le⟩
    · exact ⟨dropped, all, old⟩

/-- Whoever looks back no further than the cycles did finds as much as if nothing had been dropped. -/
theorem filter_collect (seconds : Int) (reach : ∀ x ∈ xs, x.time.earlier seconds ≤ cutoff) :
    (collect ⟨seconds * 1000000000⟩ xs).filter (fun y => cutoff < y.time) =
      xs.filter fun y => cutoff < y.time := by
  obtain ⟨dropped, split, old⟩ := exists_dropped seconds xs
  have none : dropped.filter (fun y => cutoff < y.time) = [] := by
    refine List.filter_eq_nil_iff.mpr fun y among young => ?_
    obtain ⟨x, cycle, le⟩ := old y among
    exact Int.not_le.mpr (of_decide_eq_true young) (Int.le_trans le (reach x cycle))
  conv_rhs => rw [split, List.filter_append, none, List.nil_append]

theorem le_last_of_steady (steady : Steady (times (xs ++ [x]))) (among : y ∈ xs ++ [x]) :
    y.time ≤ x.time := by
  have ordered := steady.ordered
  rw [times, List.map_append, List.pairwise_append] at ordered
  obtain before | last := List.mem_append.mp among
  · exact ordered.2.2 _ (List.mem_map_of_mem before) _ (List.mem_singleton_self _)
  · obtain rfl := List.mem_singleton.mp last
    exact Int.le_refl _

/-- What is left after a cycle is younger than its cutoff. -/
theorem lt_of_mem_collect (least : 1 ≤ seconds) (steady : Steady (times (xs ++ [x])))
    (among : y ∈ collect ⟨seconds * 1000000000⟩ (xs ++ [x])) :
    x.time.earlier seconds < y.time := by
  obtain ⟨dropped, split, -⟩ := exists_dropped seconds xs
  have suffix : (collect ⟨seconds * 1000000000⟩ xs).push x.value x.time <:+ xs ++ [x] :=
    ⟨dropped, by rw [push, ← List.append_assoc, ← split]⟩
  rw [collect, List.foldl_append] at among
  change y ∈ join _ (collect _ xs) x at among
  rw [join, Instant.sub_seconds] at among
  -- Without a cutoff nothing was dropped, but then no time of the calendar is too old.
  cases reached : Instant.inCalendar (x.time.earlier seconds).second with
  | true =>
    rw [reached] at among
    refine lt_of_mem_dropWhile ?_ among
    exact steady.ordered.sublist (suffix.sublist.map _)
  | false =>
    rw [reached] at among
    have shown := steady.shown _ (List.mem_map_of_mem (suffix.mem among))
    have last := steady.shown _ (List.mem_map_of_mem (List.mem_append_right xs
      (List.mem_singleton_self x)))
    exact Instant.earlier_lt_of_outside last shown.inside least reached

/-- What is left of steady samples is what the last cutoff leaves of all of them. -/
theorem collect_eq_filter (least : 1 ≤ seconds) (steady : Steady (times (xs ++ [x]))) :
    collect ⟨seconds * 1000000000⟩ (xs ++ [x]) =
      (xs ++ [x]).filter fun y => x.time.earlier seconds < y.time := by
  have shown : ∀ y ∈ xs ++ [x], y.time.nano < 1000000000 := fun y among =>
    (steady.shown _ (List.mem_map_of_mem among)).nano
  have last := shown x (List.mem_append_right xs (List.mem_singleton_self x))
  rw [← filter_collect seconds]
  · refine (List.filter_eq_self.mpr fun y among => ?_).symm
    exact decide_eq_true (lt_of_mem_collect least steady among)
  · intro y among
    exact Instant.earlier_le_earlier (shown y among) last (le_last_of_steady steady among) (Int.le_refl _)

theorem getLast?_collect (least : 1 ≤ seconds) (steady : Steady (times (xs ++ [x]))) :
    (collect ⟨seconds * 1000000000⟩ (xs ++ [x])).getLast? = some x := by
  have young : decide (x.time.earlier seconds < x.time) = true :=
    decide_eq_true (Instant.earlier_lt least x.time)
  rw [collect_eq_filter least steady, List.filter_append, List.filter_singleton, young]
  exact List.getLast?_concat

/-- A trend over no longer than the retention finds all that it looks for. -/
theorem trend_collect {t : Instant} (longEnough : 60 ≤ seconds)
    (steady : Steady (times xs ++ [t])) :
    (collect ⟨seconds * 1000000000⟩ xs).trend t = xs.trend t := by
  have reach : ∀ x ∈ xs, x.time.earlier seconds ≤ t.earlier 60 := by
    intro x among
    have ordered := (List.pairwise_append.mp steady.ordered).2.2
    have among := List.mem_map_of_mem (f := Sample.time) among
    refine Instant.earlier_le_earlier ?_ ?_ ?_ longEnough
    · exact (steady.shown _ (List.mem_append_left _ among)).nano
    · exact (steady.shown _ (List.mem_append_right _ (List.mem_singleton_self t))).nano
    · exact ordered _ among _ (List.mem_singleton_self t)
  have found := filter_collect seconds reach
  have minute : t.sub trendWindow = _ := Instant.sub_seconds t 60
  rw [trend, trend, minute]
  cases Instant.inCalendar (t.earlier 60).second with
  | true =>
    simp only [↓reduceIte, bind, Except.bind]
    rw [found]
  | false => rfl

end Samples

/-! ## Samples of a course -/

/-- What a cycle reads, as a sample. -/
def Event.sample? (value : CpuReading → GpuReading → Int32) : Event → Option Sample
  | .cycle cpu gpu now => some ⟨value cpu gpu, now⟩
  | _ => none

/-- All samples that the cycles among some events have taken. -/
def samplesOf (value : CpuReading → GpuReading → Int32) (events : List Event) : Samples :=
  events.filterMap (Event.sample? value)

/-- All samples of the highest temperature of the processors. -/
def cpuSamplesOf (events : List Event) : Samples :=
  samplesOf (fun cpu _ => cpu.max) events

/-- All samples of the highest temperature of the graphics cards. -/
def gpuSamplesOf (events : List Event) : Samples :=
  samplesOf (fun _ gpu => gpu.max) events

theorem times_samplesOf (value : CpuReading → GpuReading → Int32) (events : List Event) :
    (samplesOf value events).times = cycleTimes events := by
  rw [samplesOf, Samples.times, List.map_filterMap, cycleTimes]
  congr 1
  funext event
  cases event <;> rfl

theorem samplesOf_concat (value : CpuReading → GpuReading → Int32) (events : List Event)
    (cpu : CpuReading) (gpu : GpuReading) (now : Instant) :
    samplesOf value (events ++ [.cycle cpu gpu now]) =
      samplesOf value events ++ [⟨value cpu gpu, now⟩] :=
  List.filterMap_append

/-- What is left of the samples after a steady course that ends with a cycle. -/
theorem collect_samplesOf (value : CpuReading → GpuReading → Int32) {seconds : Int}
    (least : 1 ≤ seconds) {before : List Event} {cpu : CpuReading} {gpu : GpuReading}
    {now : Instant} (steady : Steady (cycleTimes (before ++ [.cycle cpu gpu now]))) :
    let all := samplesOf value (before ++ [.cycle cpu gpu now])
    Samples.collect ⟨seconds * 1000000000⟩ all = all.filter (fun x => now.earlier seconds < x.time) ∧
      (Samples.collect ⟨seconds * 1000000000⟩ all).getLast? = some ⟨value cpu gpu, now⟩ := by
  rw [← times_samplesOf value, samplesOf_concat] at steady
  rw [samplesOf_concat]
  exact ⟨Samples.collect_eq_filter least steady, Samples.getLast?_collect least steady⟩

namespace State

variable {s : Settings} {st : State} {retention : Span}

/-- A cycle joins its samples to those that there are, whether or not it comes to its end; a request
leaves the samples alone. -/
theorem undergo_samples (st : State) (kept : s.monitoring.effectiveRetention = .ok retention) (event : Event) :
    (st.undergo s event).cpuSamples =
        (samplesOf (fun cpu _ => cpu.max) [event]).foldl (Samples.join retention) st.cpuSamples ∧
      (st.undergo s event).gpuSamples =
        (samplesOf (fun _ gpu => gpu.max) [event]).foldl (Samples.join retention) st.gpuSamples := by
  cases event with
  | cycle cpu gpu now =>
    change (st.commit s cpu gpu now).1.cpuSamples = Samples.join _ _ ⟨cpu.max, now⟩ ∧
      (st.commit s cpu gpu now).1.gpuSamples = Samples.join _ _ ⟨gpu.max, now⟩
    rw [Samples.join, Samples.join]
    cases cut : now.sub retention with
    | ok cutoff =>
      rw [commit_eq kept cut]
      split <;> exact ⟨rfl, rfl⟩
    | error e =>
      simp only [commit, kept, trim_eq, cut, Except.map]
      exact ⟨rfl, rfl⟩
  | addHint | removeHint | setOverride | clearOverride => exact ⟨rfl, rfl⟩

theorem undergoAll_samples (st : State)
    (kept : s.monitoring.effectiveRetention = .ok retention) (events : List Event) :
    (st.undergoAll s events).cpuSamples =
        (cpuSamplesOf events).foldl (Samples.join retention) st.cpuSamples ∧
      (st.undergoAll s events).gpuSamples =
        (gpuSamplesOf events).foldl (Samples.join retention) st.gpuSamples := by
  induction events generalizing st with
  | nil => exact ⟨rfl, rfl⟩
  | cons event rest ih =>
    obtain ⟨cpu, gpu⟩ := undergo_samples st kept event
    obtain ⟨cpu', gpu'⟩ := ih (st.undergo s event)
    have split (value : CpuReading → GpuReading → Int32) :
        samplesOf value (event :: rest) = samplesOf value [event] ++ samplesOf value rest :=
      List.filterMap_append (l := [event])
    rw [undergoAll_cons, cpu', gpu', cpu, gpu, cpuSamplesOf, cpuSamplesOf, gpuSamplesOf,
      gpuSamplesOf, split, split, List.foldl_append, List.foldl_append]
    exact ⟨rfl, rfl⟩

end State

theorem trends_of_status {s : Settings} {st : State} {t : Instant} {status : Status}
    (shown : st.status s t = .ok status) :
    st.cpuSamples.trend t = .ok status.cpuTrend ∧ st.gpuSamples.trend t = .ok status.gpuTrend := by
  obtain ⟨cpuTrend, cpu, shown⟩ := ok_of_bind shown
  obtain ⟨gpuTrend, gpu, shown⟩ := ok_of_bind shown
  cases shown
  exact ⟨cpu, gpu⟩

/-- As long as the clock does not go back, the samples after a cycle are those of all cycles so far
that are younger than the retention, the cycle's own last; and if the retention is no shorter than
the minute that a trend looks back over, every later status shows the trends of all samples that were
ever taken. -/
theorem samples_fill_window (s : Settings) (events : List Event)
    (least : 1 ≤ s.monitoring.retentionSeconds)
    (most : s.monitoring.retentionSeconds ≤ Span.maxSeconds) :
    let st := (State.start s).undergoAll s events
    (∀ before cpu gpu now, events = before ++ [.cycle cpu gpu now] → Steady (cycleTimes events) →
      let young (x : Sample) : Bool := now.earlier s.monitoring.retentionSeconds < x.time
      st.cpuSamples = (cpuSamplesOf events).filter young ∧
      st.gpuSamples = (gpuSamplesOf events).filter young ∧
      st.cpuSamples.getLast? = some ⟨cpu.max, now⟩ ∧
      st.gpuSamples.getLast? = some ⟨gpu.max, now⟩) ∧
    (60 ≤ s.monitoring.retentionSeconds → ∀ t, Steady (cycleTimes events ++ [t]) →
      st.cpuSamples.trend t = (cpuSamplesOf events).trend t ∧
      st.gpuSamples.trend t = (gpuSamplesOf events).trend t ∧
      ∀ status, st.status s t = .ok status →
        (cpuSamplesOf events).trend t = .ok status.cpuTrend ∧
        (gpuSamplesOf events).trend t = .ok status.gpuTrend) := by
  intro st
  have low : -Span.maxSeconds ≤ s.monitoring.retentionSeconds := by
    rw [Span.maxSeconds]
    omega
  obtain ⟨cpu, gpu⟩ :=
    State.undergoAll_samples (.start s) (s.monitoring.effectiveRetention_eq low most) events
  change st.cpuSamples = Samples.collect _ _ at cpu
  change st.gpuSamples = Samples.collect _ _ at gpu
  refine ⟨fun before cpu gpu now last steady => ?_, fun longEnough t steady => ?_⟩
  · subst last
    obtain ⟨cpuLeft, cpuLast⟩ := collect_samplesOf (fun cpu _ => cpu.max) least steady
    obtain ⟨gpuLeft, gpuLast⟩ := collect_samplesOf (fun _ gpu => gpu.max) least steady
    refine ⟨?_, ?_, ?_, ?_⟩
    · exact cpu.trans cpuLeft
    · exact gpu.trans gpuLeft
    · exact (congrArg List.getLast? cpu).trans cpuLast
    · exact (congrArg List.getLast? gpu).trans gpuLast
  · have cpuTrend : st.cpuSamples.trend t = (cpuSamplesOf events).trend t := by
      rw [cpu, Samples.trend_collect longEnough]
      rwa [cpuSamplesOf, times_samplesOf]
    have gpuTrend : st.gpuSamples.trend t = (gpuSamplesOf events).trend t := by
      rw [gpu, Samples.trend_collect longEnough]
      rwa [gpuSamplesOf, times_samplesOf]
    refine ⟨cpuTrend, gpuTrend, fun status shown => ?_⟩
    obtain ⟨cpuShown, gpuShown⟩ := trends_of_status shown
    exact ⟨cpuTrend ▸ cpuShown, gpuTrend ▸ gpuShown⟩

/-- Readings are kept for a minute. -/
def briefSettings : Settings :=
  { Settings.default with monitoring := { Monitoring.default with retention := 60 } }

/-- A cycle every half a minute, hotter each time, and a request in between. -/
def warmingEvents : List Event :=
  [.cycle (.ofTemps [40]) .empty (.ofMillis 0),
    .cycle (.ofTemps [45]) .empty (.ofMillis 30000),
    .clearOverride,
    .cycle (.ofTemps [50]) .empty (.ofMillis 60000)]

/-- The first sample is a minute old at the last cycle and has been dropped. The trend, at that time
and later, is nonetheless that of all three. -/
theorem warming_events_window :
    let st := (State.start briefSettings).undergoAll briefSettings warmingEvents
    Steady (cycleTimes warmingEvents ++ [.ofMillis 70000]) ∧
    st.cpuSamples = [⟨45, .ofMillis 30000⟩, ⟨50, .ofMillis 60000⟩] ∧
    (cpuSamplesOf warmingEvents).length = 3 ∧
    ∃ status, st.status briefSettings (.ofMillis 70000) = .ok status ∧
      (cpuSamplesOf warmingEvents).trend (.ofMillis 70000) = .ok status.cpuTrend := by
  intro st
  have steady : Steady (cycleTimes warmingEvents ++ [.ofMillis 70000]) := by
    refine ⟨fun t among => ?_, by decide⟩
    have shown : ∀ t ∈ cycleTimes warmingEvents ++ [.ofMillis 70000],
        t.nano < 1000000000 ∧ Instant.inCalendar t.second = true := by decide
    exact ⟨(shown t among).1, (shown t among).2⟩
  have before : Steady (cycleTimes warmingEvents) :=
    ⟨fun t among => steady.shown t (List.mem_append_left _ among),
      (List.pairwise_append.mp steady.ordered).1⟩
  obtain ⟨window, trends⟩ := samples_fill_window briefSettings warmingEvents (by decide)
    (by decide)
  obtain ⟨cpu, -⟩ := window (warmingEvents.take 3) _ _ _ rfl before
  obtain ⟨-, -, shows⟩ := trends (by decide) (.ofMillis 70000) steady
  obtain ⟨status, shown⟩ : ∃ status, st.status briefSettings (.ofMillis 70000) = .ok status :=
    ⟨_, rfl⟩
  exact ⟨steady, cpu.trans rfl, rfl, status, shown, (shows status shown).1⟩

end Control

end ChassisCooling
