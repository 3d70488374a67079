import ChassisCooling.Daemon.Serving
import ChassisCooling.Proofs.Cleanup

/-! # How long the history is kept

The settings say for how many seconds a point is kept. The number is reckoned with as one that may
be negative, so the upper half of all numbers stands for a time that is still to come, and a cleanup
then removes what has just been recorded. A number in the lower half is kept to exactly.
-/

namespace ChassisCooling

open Calendar Files History

/-! ## What is promised -/

namespace Monitoring

variable {m : Monitoring} {now : Instant} {retention : Span}

/-- The seconds for which the settings promise to keep a point. -/
def promisedSeconds (m : Monitoring) : Nat :=
  (if m.retention = 0 then default.retention else m.retention).toNat

/-- The time after which all points are to be kept. -/
def promisedSince (m : Monitoring) (now : Instant) : Instant :=
  .ofNanos (now.nanos - m.promisedSeconds * 1000000000)

/-- The first number of seconds that counts as a negative one. -/
def firstWrapped : Nat := 9223372036854775808

/-- The time up to which points are removed. It is still to come when the seconds count as negative
ones. -/
def prunedUpTo (m : Monitoring) (now : Instant) : Instant :=
  if m.promisedSeconds < firstWrapped then m.promisedSince now
  else .ofNanos (now.nanos + (2 * firstWrapped - m.promisedSeconds) * 1000000000)

/-- The seconds count as negative ones. -/
def Wraps (m : Monitoring) : Prop :=
  firstWrapped ≤ m.promisedSeconds

/-- Of some points, those that are kept are at least those that the settings promise to keep. -/
def KeepsPromise (m : Monitoring) (now : Instant) (points kept : List Point) : Prop :=
  ∀ p ∈ points, m.promisedSince now < p.timestamp → p ∈ kept

theorem promisedSeconds_lt (m : Monitoring) : m.promisedSeconds < 2 * firstWrapped :=
  UInt64.toNat_lt _

theorem nanos_of_effectiveRetention (kept : m.effectiveRetention = .ok retention) :
    retention.nanos = (if m.promisedSeconds < firstWrapped then (m.promisedSeconds : Int)
      else m.promisedSeconds - 2 * firstWrapped) * 1000000000 := by
  rw [Span.eq_of_ofSeconds kept]
  rfl

theorem prunedUpTo_eq (kept : m.effectiveRetention = .ok retention) (now : Instant) :
    .ofNanos (now.nanos - retention.nanos) = m.prunedUpTo now := by
  rw [nanos_of_effectiveRetention kept, prunedUpTo, promisedSince]
  split
  · rfl
  · congr 1
    omega

theorem prunedUpTo_eq_promisedSince (exact : ¬ m.Wraps) (now : Instant) :
    m.prunedUpTo now = m.promisedSince now :=
  if_pos (Nat.not_le.mp exact)

/-- What is removed goes beyond what has been recorded so far. -/
theorem lt_prunedUpTo (wraps : m.Wraps) (now : Instant) : now < m.prunedUpTo now := by
  have below := m.promisedSeconds_lt
  have nano := now.nano_lt
  rw [prunedUpTo, if_neg (Nat.not_lt.mpr wraps)]
  change now.rank < Instant.rank _
  simp only [Instant.rank, Instant.ofNanos, Instant.nanos]
  omega

end Monitoring

namespace Daemon

open Store

variable {σ : Type} {s : Settings} {m m' : Server.Machine σ} {result : Except Fault Nat}
  {removed : Nat}

/-- What a cleanup does with the store. -/
theorem prune_inversion (done : prune s m = .ok (result, m')) :
    ∃ retention, s.monitoring.effectiveRetention = .ok retention ∧
      m.store.cleanup m.disk m.now retention = .ok ⟨result, m'.store, m'.disk⟩ := by
  obtain ⟨retention, kept, done⟩ := ok_of_bind done
  obtain ⟨cleaned, cleanup, done⟩ := ok_of_bind done
  cases done
  exact ⟨retention, kept, cleanup⟩

/-- A cleanup that comes to its end leaves the points after the time up to which it removes them. -/
theorem points_of_prune (sound : m.disk.IsSound) (done : prune s m = .ok (.ok removed, m')) :
    ∃ points, m.store.points m.disk = .ok points ∧
      removed = points.countP (fun p => decide (p.timestamp ≤ s.monitoring.prunedUpTo m.now)) ∧
      m'.store.points m'.disk = .ok (after (s.monitoring.prunedUpTo m.now) points) := by
  obtain ⟨retention, kept, cleanup⟩ := prune_inversion done
  obtain ⟨cutoff, points, cut, read, count, left⟩ := points_of_cleanup sound cleanup
  obtain rfl := (eq_of_cutoff? cut).trans (Monitoring.prunedUpTo_eq kept m.now)
  exact ⟨points, read, count, left⟩

theorem prune_of_unread {fault : Fault} (unread : m.store.points m.disk = .error fault)
    (done : prune s m = .ok (result, m')) :
    result = .error fault ∧ m'.store = m.store ∧ m'.disk = m.disk := by
  obtain ⟨retention, -, cleanup⟩ := prune_inversion done
  cases cut : cutoff? m.now retention with
  | error cause =>
    rw [cleanup_eq, cut] at cleanup
    cases cleanup
  | ok cutoff =>
    obtain ⟨same, store, disk⟩ :=
      Cleaned.mk.inj (Except.ok.inj ((cleanup_of_unread unread cut).symm.trans cleanup))
    exact ⟨same.symm, store.symm, disk.symm⟩

/-- A cleanup of the history that cannot read it changes nothing. One that comes to its end keeps
exactly the points after one time. That is the time since when the settings promise to keep them,
unless their seconds count as negative ones: then it is still to come, and the promise is kept only
if there is no point between the two times. -/
theorem prune_keeps_promise_iff (sound : m.disk.IsSound) (done : prune s m = .ok (result, m')) :
    (∀ fault, m.store.points m.disk = .error fault →
      result = .error fault ∧ m'.store = m.store ∧ m'.disk = m.disk) ∧
    let cutoff := s.monitoring.prunedUpTo m.now
    (¬ s.monitoring.Wraps → cutoff = s.monitoring.promisedSince m.now) ∧
    (s.monitoring.Wraps → m.now < cutoff) ∧
    ∀ removed, result = .ok removed → ∃ points kept,
      m.store.points m.disk = .ok points ∧ m'.store.points m'.disk = .ok kept ∧
      kept = points.filter (fun p => cutoff < p.timestamp) ∧
      removed = points.countP (fun p => p.timestamp ≤ cutoff) ∧
      (s.monitoring.KeepsPromise m.now points kept ↔ ¬ s.monitoring.Wraps ∨
        ∀ p ∈ points, s.monitoring.promisedSince m.now < p.timestamp → cutoff < p.timestamp) := by
  refine ⟨fun fault unread => prune_of_unread unread done, fun exact =>
    Monitoring.prunedUpTo_eq_promisedSince exact m.now, fun wraps =>
    Monitoring.lt_prunedUpTo wraps m.now, ?_⟩
  rintro removed rfl
  obtain ⟨points, read, count, left⟩ := points_of_prune sound done
  refine ⟨points, _, read, left, rfl, count, ?_⟩
  constructor
  · intro keeps
    exact .inr fun p among young => (mem_after_iff among).mp (keeps p among young)
  · rintro (exact | apart) p among young
    · rw [mem_after_iff among, Monitoring.prunedUpTo_eq_promisedSince exact]
      exact young
    · exact (mem_after_iff among).mpr (apart p among young)

/-! A daemon at noon whose log is on a disk by itself. -/

def loggedMachine (bytes : List UInt8) : Server.Machine Unit :=
  ⟨beforeNoon 0, .system, diskWith bytes, ⟨logName, 0⟩, (), fun _ => "task panicked"⟩

def sampleLog : List UInt8 :=
  sampleRows.flatMap rowOf

theorem points_sampleLog :
    (loggedMachine sampleLog).store.points (loggedMachine sampleLog).disk = .ok sampleRows := by
  have calendar : ∀ p ∈ sampleRows, Instant.inCalendar p.timestamp.second = true := by
    decide +kernel
  have nano : ∀ p ∈ sampleRows, p.timestamp.nano < 1000000000 := by decide +kernel
  obtain ⟨clean, listed⟩ := readable_rows fun p among => ⟨calendar p among, .inl (nano p among)⟩
  exact (points_diskWith clean).trans (congrArg Except.ok listed)

theorem prune_loggedMachine {bytes : List UInt8} {points : List Point} {retention : Span}
    {cutoff : Instant}
    (read : (loggedMachine bytes).store.points (loggedMachine bytes).disk = .ok points)
    (kept : s.monitoring.effectiveRetention = .ok retention)
    (cut : cutoff? (beforeNoon 0) retention = .ok cutoff) :
    ∃ removed m', prune s (loggedMachine bytes) = .ok (.ok removed, m') := by
  obtain ⟨removed, store', d', cleaned, -⟩ := (isAlone_diskWith bytes).cleanup read cut
  refine ⟨removed, { loggedMachine bytes with store := store', disk := d' }, ?_⟩
  rw [prune, kept]
  change (Store.cleanup ⟨logName, 0⟩ (diskWith bytes) (beforeNoon 0) retention >>= _) = _
  rw [cleaned]
  rfl

/-- As usual, the row of two hours ago is removed. -/
theorem default_removes_old_row : ∃ m', (loggedMachine sampleLog).disk.IsSound ∧
    prune .default (loggedMachine sampleLog) = .ok (.ok 1, m') ∧
    m'.store.points m'.disk = .ok sampleRows.tail ∧
    Settings.default.monitoring.KeepsPromise (beforeNoon 0) sampleRows sampleRows.tail := by
  obtain ⟨removed, m', done⟩ := prune_loggedMachine (s := .default) points_sampleLog rfl rfl
  have sound := isSound_diskWith sampleLog
  have exact : ¬ Settings.default.monitoring.Wraps := by
    rw [Monitoring.Wraps]
    decide
  obtain ⟨-, -, -, answered⟩ := prune_keeps_promise_iff sound done
  obtain ⟨points, kept, read, left, rfl, rfl, keeps⟩ := answered removed rfl
  obtain rfl := Except.ok.inj (points_sampleLog.symm.trans read)
  have rows : after (Settings.default.monitoring.prunedUpTo (beforeNoon 0)) sampleRows =
      sampleRows.tail := by decide +kernel
  have count : sampleRows.countP (fun p =>
      decide (p.timestamp ≤ Settings.default.monitoring.prunedUpTo (beforeNoon 0))) = 1 := by
    decide +kernel
  exact ⟨m', sound, count ▸ done, rows ▸ left, rows ▸ keeps.mpr (.inl exact)⟩

/-- The settings that ask for the longest retention. -/
def keepingAll : Settings :=
  { Settings.default with monitoring := { Monitoring.default with retention := 18446744073709551615 } }

/-- A cleanup removes all rows when it is asked to keep them for ever. -/
theorem keepingAll_removes_all : keepingAll.check = .ok () ∧
    (loggedMachine sampleLog).store.points (loggedMachine sampleLog).disk = .ok sampleRows ∧
    ¬ keepingAll.monitoring.KeepsPromise (beforeNoon 0) sampleRows [] ∧
    ∃ m', prune keepingAll (loggedMachine sampleLog) = .ok (.ok 3, m') ∧
      m'.store.points m'.disk = .ok [] := by
  have kept : keepingAll.monitoring.effectiveRetention = .ok ⟨-1000000000⟩ := by decide +kernel
  obtain ⟨removed, m', done⟩ := prune_loggedMachine points_sampleLog kept rfl
  obtain ⟨points, read, rfl, left⟩ := points_of_prune (isSound_diskWith sampleLog) done
  obtain rfl := Except.ok.inj (points_sampleLog.symm.trans read)
  have none : after (keepingAll.monitoring.prunedUpTo (beforeNoon 0)) sampleRows = [] := by
    decide +kernel
  have count : sampleRows.countP (fun p =>
      decide (p.timestamp ≤ keepingAll.monitoring.prunedUpTo (beforeNoon 0))) = 3 := by
    decide +kernel
  have young : keepingAll.monitoring.promisedSince (beforeNoon 0) < sampleRow.timestamp := by
    decide +kernel
  refine ⟨rfl, points_sampleLog, fun keeps => ?_, m', count ▸ done, none ▸ left⟩
  exact List.not_mem_nil (keeps sampleRow (by decide +kernel) young)

end Daemon

end ChassisCooling
