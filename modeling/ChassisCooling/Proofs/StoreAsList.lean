import ChassisCooling.Proofs.Cleanup

/-! # The store is a list

Whatever is recorded, asked for and cleaned up, in whatever order, a store answers as a list of
points would. The list begins with what can be read in the old file, each recorded point goes to its
end, and a cleanup drops the points up to its cutoff.
-/

namespace ChassisCooling.History.Store

open Calendar Files Text

variable {p : Point} {points : List Point} {cutoff : Instant}

/-! ## Points in order -/

theorem timestamp_le_trans (p q r : Point) (first : decide (p.timestamp ≤ q.timestamp) = true)
    (second : decide (q.timestamp ≤ r.timestamp) = true) :
    decide (p.timestamp ≤ r.timestamp) = true := by
  rw [decide_eq_true_eq] at first second ⊢
  exact Int.le_trans first second

theorem timestamp_le_total (p q : Point) :
    (decide (p.timestamp ≤ q.timestamp) || decide (q.timestamp ≤ p.timestamp)) = true := by
  rw [Bool.or_eq_true, decide_eq_true_eq, decide_eq_true_eq]
  exact Int.le_total p.timestamp.rank q.timestamp.rank

theorem pairwise_inOrder (points : List Point) :
    (inOrder points).Pairwise fun p q => p.timestamp ≤ q.timestamp :=
  (List.pairwise_mergeSort timestamp_le_trans timestamp_le_total points).imp of_decide_eq_true

theorem inOrder_perm (points : List Point) : (inOrder points).Perm points :=
  List.mergeSort_perm _ _

/-- Points of one time keep their order. -/
theorem filter_inOrder (points : List Point) (t : Instant) :
    (inOrder points).filter (fun p => p.timestamp = t) =
      points.filter fun p => p.timestamp = t := by
  have equals : (points.filter fun p => p.timestamp = t).Pairwise
      fun p q => decide (p.timestamp ≤ q.timestamp) = true := by
    refine List.pairwise_of_forall_mem_list fun p first q second => decide_eq_true ?_
    rw [of_decide_eq_true (List.mem_filter.mp first).2,
      of_decide_eq_true (List.mem_filter.mp second).2]
    exact Int.le_refl _
  have within : (points.filter fun p => p.timestamp = t).Sublist (inOrder points) :=
    List.sublist_mergeSort timestamp_le_trans timestamp_le_total equals List.filter_sublist
  have among := within.filter fun p => p.timestamp = t
  rw [List.filter_filter] at among
  simp only [Bool.and_self] at among
  have lengths := ((inOrder_perm points).filter fun p => p.timestamp = t).length_eq
  exact (among.eq_of_length lengths.symm).symm

/-- The answer of a query that goes back to a cutoff: the younger points of a list, each as often as
it is there, the oldest first, and those of one time in the order of the list. -/
structure IsListing (cutoff : Instant) (points listed : List Point) : Prop where
  younger : listed.Perm (points.filter fun p => cutoff < p.timestamp)
  sorted : listed.Pairwise fun p q => p.timestamp ≤ q.timestamp
  ties : ∀ t, listed.filter (fun p => p.timestamp = t) =
    (points.filter fun p => cutoff < p.timestamp).filter fun p => p.timestamp = t

theorem isListing_inOrder (cutoff : Instant) (points : List Point) :
    IsListing cutoff points (inOrder (after cutoff points)) where
  younger := inOrder_perm _
  sorted := pairwise_inOrder _
  ties := filter_inOrder _

/-! ## The uses of a store -/

/-- What a store can be used for. Each use sees what the clock shows. -/
inductive Use where
  | record (p : Point)
  | history (now : Instant) (window : Span)
  | cleanup (now : Instant) (retention : Span)

/-- How a use was answered. -/
inductive Answer where
  | recorded
  | listed (result : Except OutOfCalendar (Except Fault (List Point)))
  | cleaned (result : Except OutOfCalendar (Except Fault Nat))

/-- The system refused a part of a cleanup. -/
def Answer.isRefusal : Answer → Bool
  | .cleaned (.ok (.error _)) => true
  | _ => false

/-- One use: its answer, and the store and the disk that it leaves. -/
def use (store : Store) (d : Disk) : Use → Answer × Store × Disk
  | .record p => (.recorded, store, store.record d p)
  | .history now window => (.listed (store.history d now window), store, d)
  | .cleanup now retention =>
    match store.cleanup d now retention with
    | .error cause => (.cleaned (.error cause), store, d)
    | .ok cleaned => (.cleaned (.ok cleaned.removed), cleaned.store, cleaned.disk)

/-- Uses one after another, their answers, and what they leave. -/
def useAll (store : Store) (d : Disk) : List Use → List Answer × Store × Disk
  | [] => ([], store, d)
  | use :: uses =>
    let (answer, store, d) := store.use d use
    let (answers, store, d) := store.useAll d uses
    (answer :: answers, store, d)

/-! ## The same uses of a list -/

/-- What a use leaves of a list. -/
def left (points : List Point) : Use → List Point
  | .record p => points ++ [p]
  | .history .. => points
  | .cleanup now retention =>
    match cutoff? now retention with
    | .error _ => points
    | .ok cutoff => points.filter fun p => cutoff < p.timestamp

/-- A use is answered as by a list. One whose cutoff does not exist breaks off. -/
def AnswersAs (points : List Point) : Use → Answer → Prop
  | .record _, answer => answer = .recorded
  | .history now window, answer =>
    match cutoff? now window with
    | .error cause => answer = .listed (.error cause)
    | .ok cutoff => ∃ listed, answer = .listed (.ok (.ok listed)) ∧ IsListing cutoff points listed
  | .cleanup now retention, answer =>
    match cutoff? now retention with
    | .error cause => answer = .cleaned (.error cause)
    | .ok cutoff => answer = .cleaned (.ok (.ok (points.countP fun p => p.timestamp ≤ cutoff)))

/-- Uses one after another are answered as by a list, of which each leaves what the next one finds. -/
inductive FollowsList : List Point → List Use → List Answer → Prop
  | nil (points : List Point) : FollowsList points [] []
  | cons {points : List Point} {use : Use} {answer : Answer} {uses : List Use}
      {answers : List Answer} (first : AnswersAs points use answer)
      (others : FollowsList (left points use) uses answers) :
      FollowsList points (use :: uses) (answer :: answers)

variable {store : Store} {d d₀ : Disk} {path : Path} {old : List UInt8} {now : Instant}
  {retention : Span}

/-- A cleanup changes nothing when there is nothing to remove. -/
theorem Holds.cleanup_of_young (holds : store.Holds d points)
    (cut : cutoff? now retention = .ok cutoff)
    (young : points.countP (fun p => decide (p.timestamp ≤ cutoff)) = 0) :
    store.cleanup d now retention = .ok ⟨.ok 0, store, d⟩ := by
  have none : points.length - (after cutoff points).length = 0 := (length_sub_after _ _).trans young
  rw [cleanup_eq, cut, holds.points_eq, Except.map, cleanedUp]
  exact congrArg Except.ok (if_pos none)

theorem countP_after (cutoff : Instant) (points : List Point) :
    (after cutoff points).countP (fun p => decide (p.timestamp ≤ cutoff)) = 0 := by
  refine List.countP_eq_zero.mpr fun p among => ?_
  rw [decide_eq_true_eq]
  exact (lt_iff_not_le _).mp (of_decide_eq_true (List.mem_filter.mp among).2)

/-- One use is answered as by the list that the store holds. -/
theorem Holds.use (holds : store.Holds d points) (use : Use)
    (writable : ∀ p, use = .record p → p.timestamp.IsWritable)
    (accepted : (store.use d use).1.isRefusal = false) :
    AnswersAs points use (store.use d use).1 ∧
      (store.use d use).2.1.Holds (store.use d use).2.2 (left points use) := by
  cases use with
  | record p => exact ⟨rfl, holds.record (writable p rfl)⟩
  | history now window =>
    refine ⟨?_, holds⟩
    rw [AnswersAs, Store.use, history_eq, holds.points_eq]
    cases cutoff? now window with
    | error cause => rfl
    | ok cutoff => exact ⟨_, rfl, isListing_inOrder cutoff points⟩
  | cleanup now retention =>
    cases done : store.cleanup d now retention with
    | error cause =>
      have cut : cutoff? now retention = .error cause := by
        cases cut : cutoff? now retention with
        | error other => rfl
        | ok cutoff =>
          rw [cleanup_eq, cut] at done
          cases done
      simp only [AnswersAs, left, cut, Store.use, done, true_and]
      exact holds
    | ok cleaned =>
      obtain ⟨removed, store', d'⟩ := cleaned
      cases removed with
      | error fault =>
        rw [Store.use, done] at accepted
        cases accepted
      | ok removed =>
        obtain ⟨cutoff, cut, count, holds'⟩ := holds.cleanup done
        simp only [AnswersAs, left, cut, Store.use, done, count, true_and]
        exact holds'

/-- Uses one after another are answered as by the list that the store held before. -/
theorem Holds.useAll (holds : store.Holds d points) (uses : List Use)
    (writable : ∀ p, .record p ∈ uses → p.timestamp.IsWritable)
    (accepted : ∀ answer ∈ (store.useAll d uses).1, answer.isRefusal = false) :
    FollowsList points uses (store.useAll d uses).1 ∧
      (store.useAll d uses).2.1.Holds (store.useAll d uses).2.2 (uses.foldl left points) := by
  induction uses generalizing store d points with
  | nil => exact ⟨.nil points, holds⟩
  | cons use uses ih =>
    obtain ⟨first, others⟩ := List.forall_mem_cons.mp accepted
    obtain ⟨answered, next⟩ :=
      holds.use use (fun p same => writable p (same ▸ List.mem_cons_self)) first
    obtain ⟨follows, reached⟩ :=
      ih next (fun p later => writable p (List.mem_cons_of_mem _ later)) others
    exact ⟨.cons answered follows, reached⟩

/-- A second cleanup with the same cutoff finds nothing to remove, and leaves the file alone. -/
theorem Holds.cleanup_again (holds : store.Holds d points) {removed : Nat} {store' : Store}
    {d' : Disk} (done : store.cleanup d now retention = .ok ⟨.ok removed, store', d'⟩)
    {later : Instant} {longer : Span} (same : cutoff? later longer = cutoff? now retention) :
    store'.cleanup d' later longer = .ok ⟨.ok 0, store', d'⟩ := by
  obtain ⟨cutoff, cut, -, holds'⟩ := holds.cleanup done
  exact holds'.cleanup_of_young (same.trans cut) (countP_after cutoff points)

theorem cutoff?_of_shown (shown : 0 ≤ now.second) (common : now.IsCommon) (span : Span) :
    cutoff? now span = now.sub span := by
  obtain ⟨firstSecond, firstCommon, lastCommon, lastSecond⟩ := Instant.bounds
  have inside : Instant.inCalendar now.second = true := by
    simp only [Instant.inCalendar, Bool.and_eq_true, decide_eq_true_eq]
    have last := common.last
    omega
  rw [cutoff?, Clock.read, if_neg (Int.not_lt.mpr shown), Instant.checked, if_pos inside]
  rfl

theorem holds_of_open? (sound : d.IsSound) (opened : open? d path = .ok (store, d₀))
    (held : d₀.bytes store.handle = old) (clean : IsText old) (ended : unfinished old = []) :
    store.Holds d₀ (readable old) where
  isOpen := isOpen_of_open? sound opened
  clean := held ▸ clean
  ended := held ▸ ended
  listed := held ▸ rfl

/-- A store that is opened on a file of whole lines of text, or on none, answers as a list of points
as long as the system refuses no part of a cleanup, and so do the rows that its path leads to. A
second cleanup removes nothing. At a time that the system's clock shows, from 1970 to the year 9999,
the cutoff of a use lies its span before that time. -/
theorem store_follows_list (sound : d.IsSound) (opened : open? d path = .ok (store, d₀))
    (held : d₀.bytes store.handle = old) (clean : IsText old) (ended : unfinished old = [])
    (uses : List Use) (writable : ∀ p, .record p ∈ uses → p.timestamp.IsWritable)
    (accepted : ∀ answer ∈ (store.useAll d₀ uses).1, answer.isRefusal = false) :
    let after := store.useAll d₀ uses
    FollowsList (readable old) uses after.1 ∧
    after.2.1.points after.2.2 = .ok (uses.foldl left (readable old)) ∧
    (∀ now retention removed store' d',
      after.2.1.cleanup after.2.2 now retention = .ok ⟨.ok removed, store', d'⟩ →
      ∀ later longer, cutoff? later longer = cutoff? now retention →
        store'.cleanup d' later longer = .ok ⟨.ok 0, store', d'⟩) ∧
    ∀ now : Instant, 0 ≤ now.second → now.IsCommon → ∀ span, cutoff? now span = now.sub span := by
  intro after
  obtain ⟨follows, reached⟩ :=
    (holds_of_open? sound opened held clean ended).useAll uses writable accepted
  refine ⟨follows, reached.points_eq, ?_, ?_⟩
  · intro now retention removed store' d' done later longer same
    exact reached.cleanup_again done same
  · exact fun now shown common span => cutoff?_of_shown shown common span

/-! On a disk by itself a log is never refused a cleanup, whatever it is used for. -/

theorem IsAlone.use (alone : store.IsAlone d) (read : store.points d = .ok points) (use : Use) :
    (store.use d use).1.isRefusal = false ∧ (store.use d use).2.1.IsAlone (store.use d use).2.2 := by
  cases use with
  | record p => exact ⟨rfl, alone.record p⟩
  | history now window => exact ⟨rfl, alone⟩
  | cleanup now retention =>
    cases cut : cutoff? now retention with
    | error cause =>
      rw [Store.use, cleanup_eq, cut]
      exact ⟨rfl, alone⟩
    | ok cutoff =>
      obtain ⟨removed, store', d', done, alone'⟩ := alone.cleanup read cut
      rw [Store.use, done]
      exact ⟨rfl, alone'⟩

theorem IsAlone.useAll (alone : store.IsAlone d) (holds : store.Holds d points) (uses : List Use)
    (writable : ∀ p, .record p ∈ uses → p.timestamp.IsWritable) :
    ∀ answer ∈ (store.useAll d uses).1, answer.isRefusal = false := by
  induction uses generalizing store d points with
  | nil => exact nofun
  | cons use uses ih =>
    obtain ⟨accepted, alone'⟩ := alone.use holds.points_eq use
    obtain ⟨-, holds'⟩ :=
      holds.use use (fun p same => writable p (same ▸ List.mem_cons_self)) accepted
    have others := ih alone' holds' fun p later => writable p (List.mem_cons_of_mem _ later)
    exact List.forall_mem_cons.mpr ⟨accepted, others⟩

/-- A row of two hours ago, and one that cannot be read. -/
def agedLog : List UInt8 :=
  rowOf ⟨beforeNoon 7200, 41, 30, 20⟩ ++ Utf8.encodeString "garbage\n"

/-- A row is recorded before a cleanup that removes the old one, and again after it. -/
def sampleUses : List Use :=
  [.record sampleRow, .cleanup (beforeNoon 0) hour, .record sampleRow,
    .history (beforeNoon 0) hour]

theorem sampleUses_answered :
    ∃ store d₀, (diskWith agedLog).IsSound ∧
      open? (diskWith agedLog) logName = .ok (store, d₀) ∧
      d₀.bytes store.handle = agedLog ∧ IsText agedLog ∧ unfinished agedLog = [] ∧
      (∀ p, .record p ∈ sampleUses → p.timestamp.IsWritable) ∧
      (∀ answer ∈ (store.useAll d₀ sampleUses).1, answer.isRefusal = false) ∧
      FollowsList [⟨beforeNoon 7200, 41, 30, 20⟩] sampleUses (store.useAll d₀ sampleUses).1 ∧
      (store.useAll d₀ sampleUses).2.1.points (store.useAll d₀ sampleUses).2.2 =
        .ok [sampleRow, sampleRow] := by
  have clean : IsText agedLog := by decide +kernel
  have ended : unfinished agedLog = [] := by decide +kernel
  have listed : readable agedLog = [⟨beforeNoon 7200, 41, 30, 20⟩] := by decide +kernel
  have writable : ∀ p, .record p ∈ sampleUses → p.timestamp.IsWritable := by
    intro p among
    obtain rfl : p = sampleRow := by
      simp only [sampleUses, List.mem_cons, Use.record.injEq, reduceCtorEq, List.not_mem_nil,
        or_false, false_or, or_self] at among
      exact among
    exact isWritable_sampleRow
  have sound := isSound_diskWith agedLog
  have held := bytes_diskWith agedLog
  have opened := open?_diskWith agedLog
  have holds := holds_of_open? sound opened held clean ended
  have accepted := (isAlone_diskWith agedLog).useAll holds sampleUses writable
  obtain ⟨follows, last, -, -⟩ :=
    store_follows_list sound opened held clean ended sampleUses writable accepted
  refine ⟨_, _, sound, opened, held, clean, ended, writable, accepted, listed ▸ follows, ?_⟩
  rw [last, listed]
  exact congrArg Except.ok (by decide +kernel)

/-- The last millisecond of 1969 lies in the calendar, and so does the second before it; but the
system's clock does not show it. -/
theorem query_of_1969_breaks_off :
    ∃ store d₀, open? (diskWith []) logName = .ok (store, d₀) ∧ d₀.bytes store.handle = [] ∧
      (Instant.ofMillis (-1)).IsCommon ∧
      (∃ cutoff, (Instant.ofMillis (-1)).sub ⟨1000000000⟩ = .ok cutoff) ∧
      ¬ ∃ answer, store.history d₀ (.ofMillis (-1)) ⟨1000000000⟩ = .ok answer := by
  refine ⟨_, _, open?_diskWith [], bytes_diskWith [], ⟨by decide, by decide, by decide⟩,
    ⟨_, rfl⟩, ?_⟩
  rintro ⟨answer, answered⟩
  cases answered

end ChassisCooling.History.Store
