import ChassisCooling.Proofs.StoreAsList

/-! # Cleanups that fail

A cleanup that fails leaves the disk that the failing step finds, and the store as it was. As long
as the points that are kept go to a file beside the log that does no harm. But a store whose log has
been replaced still writes to the file that was there before. If it cannot open the new one, then
nothing that it records is found, though recording succeeds. Besides, the name beside the log may
lead to the log itself: then the log is emptied at once, and a byte that cannot be written leaves
fewer rows there, or a part of one that spoils the next.
-/

namespace ChassisCooling.History.Store

open Calendar Files Text

variable {store store' : Store} {d d' : Disk} {id : FileId} {cutoff now : Instant}
  {retention : Span} {points ps : List Point} {refusal : CleanupStep → Option Cause}
  {step : CleanupStep} {fault : Fault} {cause : Cause}

/-! ## What a step finds -/

/-- The path that the kept points are written to. -/
def temporary (store : Store) : Path :=
  Path.withExtension store.path "jsonl.tmp"

/-- A cleanup that has something to remove, and has made the file for the points that it keeps. -/
structure Begun (store : Store) (d : Disk) (cutoff : Instant) where
  points : List Point
  read : store.points d = .ok points
  removes : (after cutoff points).length < points.length
  id : FileId
  disk : Disk
  created : d.create store.temporary = .ok (id, disk)

namespace Begun

/-- The points that are kept. -/
def kept (begun : store.Begun d cutoff) : List Point :=
  after cutoff begun.points

/-- Their rows. -/
def rows (begun : store.Begun d cutoff) : List UInt8 :=
  begun.kept.flatMap rowOf

/-- The disk after so many bytes of the rows have been written. -/
def written (begun : store.Begun d cutoff) (count : Nat) : Disk :=
  begun.disk.appendTo begun.id (begun.rows.take count)

end Begun

/-- The disk that a step of a cleanup finds, after all steps before it have been taken. -/
inductive Reaches (store : Store) (d : Disk) (cutoff : Instant) : CleanupStep → Disk → Prop
  | read : Reaches store d cutoff .read d
  | create {points : List Point} (read : store.points d = .ok points)
      (removes : (after cutoff points).length < points.length) : Reaches store d cutoff .create d
  | write (begun : store.Begun d cutoff) {index : Nat} (more : index < begun.rows.length) :
      Reaches store d cutoff (.write index) (begun.written index)
  | sync (begun : store.Begun d cutoff) :
      Reaches store d cutoff .sync (begun.written begun.rows.length)
  | rename (begun : store.Begun d cutoff) :
      Reaches store d cutoff .rename (begun.written begun.rows.length)
  | reopen (begun : store.Begun d cutoff) {d' : Disk}
      (renamed : (begun.written begun.rows.length).rename store.temporary store.path = .ok d') :
      Reaches store d cutoff .reopen d'

/-- The disk has what a step needs. -/
def Allows (store : Store) (d : Disk) : CleanupStep → Prop
  | .read => ∃ points, store.points d = .ok points
  | .create => ∃ made, d.create store.temporary = .ok made
  | .write _ | .sync => True
  | .rename => ∃ d', d.rename store.temporary store.path = .ok d'
  | .reopen => ∃ opened, d.openAppend store.path = .ok opened

/-- The system refuses a step, or the disk does not have what it needs. -/
def Fails (refusal : CleanupStep → Option Cause) (store : Store) (d : Disk)
    (step : CleanupStep) : Prop :=
  refusal step ≠ none ∨ ¬ store.Allows d step

/-- A single step is refused. -/
def refusing (step : CleanupStep) (cause : Cause) : CleanupStep → Option Cause :=
  fun other => if other = step then some cause else none

/-! ## Every failure is that of a step -/

theorem fails_of_unlessRefused {α : Type} {cause? : Option Cause} {result : Except Cause α}
    (failed : unlessRefused cause? result = .error cause) :
    cause? ≠ none ∨ ¬ ∃ a, result = .ok a := by
  cases cause? with
  | some other => exact .inl (Option.some_ne_none other)
  | none =>
    right
    rintro ⟨a, done⟩
    cases done.symm.trans failed

theorem reaches_of_replaceWith (read : store.points d = .ok points)
    (removes : (after cutoff points).length < points.length)
    (failed : replaceWith refusal store (after cutoff points) d = (.error fault, d')) :
    ∃ step, store.Reaches d cutoff step d' ∧ store.Fails refusal d' step := by
  rw [replaceWith] at failed
  split at failed
  · next cause failure =>
    cases failed
    exact ⟨.create, .create read removes, fails_of_unlessRefused failure⟩
  next id d₁ created =>
  let begun : store.Begun d cutoff :=
    ⟨points, read, removes, id, d₁, Disk.ok_of_unlessRefused created⟩
  split at failed
  · next cause d₂ failure =>
    cases failed
    obtain ⟨index, inside, refused, rfl⟩ := Disk.writeTo_inversion failure
    refine ⟨.write index, .write begun inside, .inl ?_⟩
    rw [refused]
    exact Option.some_ne_none _
  next d₂ written =>
  have full : d₂ = begun.written begun.rows.length := by
    rw [Begun.written, List.take_length]
    exact Disk.eq_of_writeTo written
  split at failed
  · next cause refused =>
    cases failed
    refine ⟨.sync, full ▸ .sync begun, .inl ?_⟩
    rw [refused]
    exact Option.some_ne_none _
  split at failed
  · next cause failure =>
    cases failed
    exact ⟨.rename, full ▸ .rename begun, fails_of_unlessRefused failure⟩
  next d₃ renamed =>
  split at failed
  · next cause failure =>
    cases failed
    refine ⟨.reopen, .reopen begun ?_, fails_of_unlessRefused failure⟩
    exact full ▸ Disk.ok_of_unlessRefused renamed
  · cases failed

/-- A cleanup that fails has failed at a step, and leaves the disk that the step has found. -/
theorem reaches_of_cleanupWith (cut : cutoff? now retention = .ok cutoff)
    (failed : store.cleanupWith refusal d now retention = .ok ⟨.error fault, store', d'⟩) :
    store' = store ∧ ∃ step, store.Reaches d cutoff step d' ∧ store.Fails refusal d' step := by
  rw [cleanupWith_eq, cut] at failed
  have failed : cleanedUp refusal store d cutoff (readUnless refusal store d) =
      ⟨.error fault, store', d'⟩ := Except.ok.inj failed
  cases read : readUnless refusal store d with
  | error cause =>
    rw [read] at failed
    cases failed
    refine ⟨rfl, .read, .read, ?_⟩
    rw [readUnless] at read
    split at read
    · next refused =>
      rw [Fails, refused]
      exact .inl (Option.some_ne_none _)
    · right
      rintro ⟨points, done⟩
      cases done.symm.trans read
  | ok points =>
    have listed : store.points d = .ok points := by
      rw [readUnless] at read
      split at read
      · cases read
      · exact read
    rw [read, cleanedUp] at failed
    split at failed
    · cases failed
    next removes =>
    split at failed
    · next replaced =>
      cases failed
      exact ⟨rfl, reaches_of_replaceWith listed (by omega) replaced⟩
    · cases failed

/-! ## Every step can fail -/

theorem cleanupWith_of_replaceWith (cut : cutoff? now retention = .ok cutoff)
    (accepted : refusal .read = none) (read : store.points d = .ok points)
    (removes : (after cutoff points).length < points.length)
    (failed : ∃ fault, replaceWith refusal store (after cutoff points) d = (.error fault, d')) :
    ∃ fault, store.cleanupWith refusal d now retention = .ok ⟨.error fault, store, d'⟩ := by
  obtain ⟨fault, failed⟩ := failed
  have some : ¬ points.length - (after cutoff points).length = 0 := by omega
  refine ⟨fault, ?_⟩
  rw [cleanupWith_eq, cut, readUnless, accepted]
  simp only [Except.map, cleanedUp, read, if_neg some, failed]

namespace Begun

variable (begun : store.Begun d cutoff)

theorem created_eq : d.create (Path.withExtension store.path "jsonl.tmp") =
    .ok (begun.id, begun.disk) :=
  begun.created

theorem writeTo_full : begun.disk.writeTo (fun _ => none) begun.id
    ((after cutoff begun.points).flatMap rowOf) = (none, begun.written begun.rows.length) := by
  rw [written, List.take_length]
  exact Disk.writeTo_accepted (fun _ => rfl) begun.disk begun.id _

theorem writeTo_part {index : Nat} (more : index < begun.rows.length) (cause : Cause) :
    begun.disk.writeTo (fun other => if other = index then some cause else none) begun.id
      ((after cutoff begun.points).flatMap rowOf) = (some cause, begun.written index) :=
  Disk.writeTo_refused more (fun _ before => if_neg (Nat.ne_of_lt before)) (if_pos rfl)
    begun.disk begun.id

end Begun

/-- A cleanup fails at whatever step is refused, if it comes to that step. -/
theorem cleanupWith_refusing (cut : cutoff? now retention = .ok cutoff)
    (reached : store.Reaches d cutoff step d') (cause : Cause) :
    ∃ fault, store.cleanupWith (refusing step cause) d now retention =
      .ok ⟨.error fault, store, d'⟩ := by
  cases reached with
  | read =>
    rw [cleanupWith_eq, cut]
    exact ⟨_, rfl⟩
  | create read removes => exact cleanupWith_of_replaceWith cut rfl read removes ⟨_, rfl⟩
  | write begun more =>
    refine cleanupWith_of_replaceWith cut rfl begun.read begun.removes ?_
    simp only [replaceWith, refusing, reduceCtorEq, CleanupStep.write.injEq, ↓reduceIte,
      unlessRefused, begun.created_eq, begun.writeTo_part more]
    exact ⟨_, rfl⟩
  | sync begun | rename begun =>
    refine cleanupWith_of_replaceWith cut rfl begun.read begun.removes ?_
    simp only [replaceWith, refusing, reduceCtorEq, ↓reduceIte, unlessRefused, begun.created_eq,
      begun.writeTo_full]
    exact ⟨_, rfl⟩
  | reopen begun renamed =>
    have renamed : (begun.written begun.rows.length).rename
        (Path.withExtension store.path "jsonl.tmp") store.path = .ok d' := renamed
    refine cleanupWith_of_replaceWith cut rfl begun.read begun.removes ?_
    simp only [replaceWith, refusing, reduceCtorEq, ↓reduceIte, unlessRefused, begun.created_eq,
      begun.writeTo_full, renamed]
    exact ⟨_, rfl⟩

/-! ## Where rows go -/

/-- The store writes to a file of the disk, wherever its path leads. -/
structure IsHeld (store : Store) (d : Disk) : Prop where
  sound : d.IsSound
  held : store.handle < d.contents.length

theorem IsOpen.isHeld (isOpen : store.IsOpen d) : store.IsHeld d :=
  ⟨isOpen.sound, isOpen.held⟩

theorem isOpen_iff (sound : d.IsSound) :
    store.IsOpen d ↔ d.lookup store.path = .ok (.file store.handle) :=
  ⟨IsOpen.lookup, fun found =>
    isOpen_of_openAppend sound (Disk.openAppend_of_lookup found) rfl⟩

theorem names_recordAll (store : Store) (d : Disk) (ps : List Point) :
    (store.recordAll d ps).nodes = d.nodes ∧ (store.recordAll d ps).aboves = d.aboves := by
  induction ps generalizing d with
  | nil => exact ⟨rfl, rfl⟩
  | cons p ps ih => exact ih (store.record d p)

theorem bytes_recordAll_of_ne (apart : id ≠ store.handle) (d : Disk) (ps : List Point) :
    (store.recordAll d ps).bytes id = d.bytes id := by
  induction ps generalizing d with
  | nil => rfl
  | cons p ps ih => exact (ih (store.record d p)).trans (Disk.bytes_appendTo_of_ne apart)

theorem IsOpen.recordAll (isOpen : store.IsOpen d) (ps : List Point) :
    store.IsOpen (store.recordAll d ps) := by
  induction ps generalizing d with
  | nil => exact isOpen
  | cons p ps ih => exact ih (isOpen.record p)

/-- Whatever is recorded is found behind what is found now. -/
def TakesRows (store : Store) (d : Disk) : Prop :=
  ∀ ps : List Point, (∀ p ∈ ps, p.timestamp.IsWritable) →
    store.points (store.recordAll d ps) = (store.points d).map (· ++ ps)

theorem IsOpen.takesRows (isOpen : store.IsOpen d)
    (margin : IsMargin (unfinished (d.bytes store.handle))) : store.TakesRows d := by
  intro ps writable
  rw [(isOpen.recordAll ps).points_eq, isOpen.points_eq, (recordAll_appends isOpen.held ps).1,
    pointsOf_eq, pointsOf_eq, readable_of_margin margin writable]
  simp only [isText_recorded]
  split <;> rfl

/-- What a store records is not found if its path leads elsewhere. -/
theorem points_recordAll_of_elsewhere
    (elsewhere : d.lookup store.path ≠ .ok (.file store.handle)) (ps : List Point) :
    store.points (store.recordAll d ps) = store.points d := by
  obtain ⟨nodes, aboves⟩ := names_recordAll store d ps
  rw [points, points, Disk.read, Disk.read, Disk.lookup_congr aboves nodes]
  split
  · next id found =>
    have apart : id ≠ store.handle := fun same => elsewhere (same ▸ found)
    rw [bytes_recordAll_of_ne apart]
  · rfl
  · rfl
  · rfl

/-- Rows are found only by a store that is open. -/
theorem TakesRows.isOpen (takes : store.TakesRows d) (sound : d.IsSound)
    (read : store.points d = .ok points) : store.IsOpen d := by
  by_contra closed
  have elsewhere : d.lookup store.path ≠ .ok (.file store.handle) := fun found =>
    closed ((isOpen_iff sound).mpr found)
  have found := takes [sampleRow] (List.forall_mem_singleton.mpr isWritable_sampleRow)
  rw [points_recordAll_of_elsewhere elsewhere, read] at found
  have longer : points.length = (points ++ [sampleRow]).length :=
    congrArg List.length (Except.ok.inj found)
  rw [List.length_append, List.length_singleton] at longer
  omega

/-! ## The file that is made -/

/-- The name beside the log leads to the file that the store writes to. -/
def LeadsBack (store : Store) (d : Disk) : Prop :=
  d.lookup store.temporary = .ok (.file store.handle)

namespace Begun

variable (begun : store.Begun d cutoff)

theorem found (begun : store.Begun d cutoff) : ∃ id, d.lookup store.path = .ok (.file id) := by
  obtain ⟨id, found, -, -⟩ := points_inversion begun.read
  exact ⟨id, found⟩

theorem opened : ∃ d₀, d.openAppend store.temporary = .ok (begun.id, d₀) ∧
    begun.disk = d₀.clear begun.id := by
  obtain ⟨⟨id, d₀⟩, opened, cleared⟩ := ok_of_bind begun.created
  obtain ⟨rfl, cleared⟩ := Prod.mk.inj (Except.ok.inj cleared)
  exact ⟨d₀, opened, cleared.symm⟩

theorem id_eq_iff (held : store.IsHeld d) : begun.id = store.handle ↔ store.LeadsBack d := by
  obtain ⟨d₀, opened, -⟩ := begun.opened
  constructor
  · intro same
    rcases Disk.openAppend_cases opened with ⟨e, slash, -, -, made⟩ | ⟨e, slash, -, -, rfl⟩
    · have new : begun.id = d.contents.length := (Prod.mk.inj made).1
      exact absurd held.held (by rw [← same, new]; exact Nat.lt_irrefl _)
    · rw [LeadsBack, ← same]
      exact Disk.lookup_of_openAppend opened rfl rfl
  · intro back
    exact (Prod.mk.inj (Except.ok.inj (opened.symm.trans (Disk.openAppend_of_lookup back)))).1

theorem kept_writable : ∀ p ∈ begun.kept, p.timestamp.IsWritable := by
  intro p among
  obtain ⟨id, -, -, listed⟩ := points_inversion begun.read
  exact isWritable_of_readable (listed ▸ (List.mem_filter.mp among).1)

theorem pointsOf_rows : pointsOf begun.rows = .ok begun.kept := by
  obtain ⟨clean, listed⟩ := readable_rows begun.kept_writable
  rw [rows, pointsOf_eq, if_pos clean, listed]

/-- The file that is made holds what has been written, and names lead where they did. -/
theorem written_rows (sound : d.IsSound) (count : Nat) :
    (begun.written count).IsSound ∧ Disk.Extends d (begun.written count) ∧
      (begun.written count).lookup store.temporary = .ok (.file begun.id) ∧
      (begun.written count).bytes begun.id = begun.rows.take count :=
  created_bytes sound begun.created (begun.rows.take count)

theorem isHeld_written (held : store.IsHeld d) (count : Nat) :
    store.IsHeld (begun.written count) := by
  refine ⟨(begun.written_rows held.sound count).1, ?_⟩
  rw [written, Disk.appendTo, List.length_set]
  exact Nat.lt_of_lt_of_le held.held (Disk.length_le_of_create begun.created)

/-- Whoever opens the path is led where he was before. -/
theorem lookup_written (sound : d.IsSound) (count : Nat) :
    (begun.written count).lookup store.path = d.lookup store.path := by
  obtain ⟨id, found⟩ := begun.found
  obtain ⟨-, extended, -, -⟩ := begun.written_rows sound count
  rw [found, Disk.lookup_of_extends extended found]

theorem isOpen_written_iff (sound : d.IsSound) (count : Nat) :
    store.IsOpen (begun.written count) ↔ store.IsOpen d := by
  rw [isOpen_iff (begun.written_rows sound count).1, isOpen_iff sound,
    begun.lookup_written sound count]

theorem bytes_written (held : store.IsHeld d) (beside : ¬ store.LeadsBack d) (count : Nat) :
    (begun.written count).bytes store.handle = d.bytes store.handle := by
  have apart : store.handle ≠ begun.id := fun same =>
    beside ((begun.id_eq_iff held).mp same.symm)
  rw [written, Disk.bytes_appendTo_of_ne apart, Disk.bytes_of_create begun.created held.held apart]

/-- A log that is written anew holds what has been written so far. -/
theorem bytes_written_back (held : store.IsHeld d) (back : store.LeadsBack d) (count : Nat) :
    (begun.written count).bytes store.handle = begun.rows.take count := by
  rw [← (begun.id_eq_iff held).mpr back]
  exact (begun.written_rows held.sound count).2.2.2

section Open

variable (isOpen : store.IsOpen d)

include isOpen

theorem points_written (beside : ¬ store.LeadsBack d) (count : Nat) :
    store.points (begun.written count) = store.points d := by
  have isOpen' := (begun.isOpen_written_iff isOpen.sound count).mpr isOpen
  rw [isOpen'.points_eq, begun.bytes_written isOpen.isHeld beside, isOpen.points_eq]

/-- Once all rows are written nothing is missed, wherever they have gone. -/
theorem points_written_full :
    store.points (begun.written begun.rows.length) = store.points d ∨
      store.points (begun.written begun.rows.length) = (store.points d).map (after cutoff) := by
  by_cases back : store.LeadsBack d
  · right
    have isOpen' := (begun.isOpen_written_iff isOpen.sound begun.rows.length).mpr isOpen
    rw [isOpen'.points_eq, begun.bytes_written_back isOpen.isHeld back, List.take_length,
      begun.pointsOf_rows, begun.read]
    rfl
  · exact .inl (begun.points_written isOpen back _)

end Open

/-! ## The log that has been replaced -/

section Renamed

variable (sound : d.IsSound)
  (renamed : (begun.written begun.rows.length).rename store.temporary store.path = .ok d')

include sound renamed

theorem bytes_renamed : d'.bytes begun.id = begun.rows := by
  obtain ⟨-, -, -, rows⟩ := begun.written_rows sound begun.rows.length
  rw [List.take_length] at rows
  exact (Disk.bytes_of_rename renamed begun.id).trans rows

/-- If the path leads to a file, that is the one that has been made. -/
theorem id_of_found (found : d'.lookup store.path = .ok (.file id)) : id = begun.id := by
  obtain ⟨before, there⟩ := begun.found
  obtain ⟨-, extended, temporary, -⟩ := begun.written_rows sound begun.rows.length
  have segment : Path.IsSegment "jsonl.tmp" := by simp [Path.IsSegment]
  exact (Disk.opened_of_replaced segment temporary (Disk.ends_of_extends extended there) renamed
    (Disk.openAppend_of_lookup found)).1

theorem points_renamed (found : d'.lookup store.path = .ok (.file id)) :
    store.points d' = .ok begun.kept := by
  have rows := begun.pointsOf_rows
  rw [← begun.bytes_renamed sound renamed] at rows
  rw [Store.points, Disk.read, found, begun.id_of_found sound renamed found]
  exact rows

end Renamed

theorem isOpen_renamed_iff (held : store.IsHeld d)
    (renamed : (begun.written begun.rows.length).rename store.temporary store.path = .ok d') :
    store.IsOpen d' ↔ store.LeadsBack d ∧ ∃ id, d'.lookup store.path = .ok (.file id) := by
  have sound := (begun.written_rows held.sound _).1.rename renamed
  rw [isOpen_iff sound]
  constructor
  · intro found
    have same := begun.id_of_found held.sound renamed found
    exact ⟨(begun.id_eq_iff held).mp same.symm, _, found⟩
  · rintro ⟨back, id, found⟩
    have same := begun.id_of_found held.sound renamed found
    rw [found, same, (begun.id_eq_iff held).mpr back]

end Begun

/-! ## What a failure leaves -/

/-- All points are found, or all that are kept. -/
def FindsRows (store : Store) (d : Disk) (cutoff : Instant) (d' : Disk) : Prop :=
  store.points d' = store.points d ∨ store.points d' = (store.points d).map (after cutoff)

/-- All points are found, or all that are kept, and the store writes to where they are found: behind
what it had written before, or behind lines that have all been ended. -/
structure Recovers (store : Store) (d : Disk) (cutoff : Instant) (d' : Disk) : Prop where
  rows : store.FindsRows d cutoff d'
  isOpen : store.IsOpen d'
  ended : d'.bytes store.handle = d.bytes store.handle ∨ unfinished (d'.bytes store.handle) = []

/-- What it takes to withstand the failure of a step: the store is open, and rows are not written to
its log. Once the log has been replaced, the store has to write to the file that took its place,
and the path has to lead there. -/
def Withstands (store : Store) (d d' : Disk) : CleanupStep → Prop
  | .read | .create | .sync | .rename => store.IsOpen d
  | .write _ => store.IsOpen d ∧ ¬ store.LeadsBack d
  | .reopen => store.LeadsBack d ∧ ∃ id, d'.lookup store.path = .ok (.file id)

/-- Rows are found by a store that has recovered if they could be written before. -/
theorem Recovers.takesRows (recovers : store.Recovers d cutoff d')
    (margin : IsMargin (unfinished (d.bytes store.handle))) : store.TakesRows d' := by
  refine recovers.isOpen.takesRows ?_
  rcases recovers.ended with same | ended
  · rwa [same]
  · rw [ended]
    exact isMargin_nil

namespace Begun

variable (begun : store.Begun d cutoff)

theorem ended_written_full (held : store.IsHeld d) :
    (begun.written begun.rows.length).bytes store.handle = d.bytes store.handle ∨
      unfinished ((begun.written begun.rows.length).bytes store.handle) = [] := by
  by_cases back : store.LeadsBack d
  · right
    rw [begun.bytes_written_back held back, List.take_length]
    exact unfinished_rows begun.kept
  · exact .inl (begun.bytes_written held back _)

section Part

variable {index : Nat} (held : store.IsHeld d) (more : index < begun.rows.length)

include held more

/-- A part of the rows has fewer ended lines than there are kept points, and a row behind it ends
only one more. So if the log holds all that it should, then not that row as well. -/
theorem beside_of_takesRows (isOpen : store.IsOpen (begun.written index))
    (rows : store.FindsRows d cutoff (begun.written index))
    (takes : store.TakesRows (begun.written index)) : ¬ store.LeadsBack d := by
  intro back
  have part := begun.bytes_written_back held back index
  have few : (begun.rows.take index).count 0x0A < begun.kept.length := count_take_lt more
  obtain ⟨shown, read, enough⟩ : ∃ shown, store.points (begun.written index) = .ok shown ∧
      begun.kept.length ≤ shown.length := by
    rw [FindsRows, begun.read] at rows
    rcases rows with all | kept
    · exact ⟨begun.points, all, Nat.le_of_lt begun.removes⟩
    · exact ⟨begun.kept, kept, Nat.le_refl _⟩
  have found := takes [sampleRow] (List.forall_mem_singleton.mpr isWritable_sampleRow)
  rw [(isOpen.recordAll [sampleRow]).points_eq, (recordAll_appends isOpen.held [sampleRow]).1, part,
    List.flatMap_singleton, read, pointsOf_eq] at found
  split at found
  · have listed : readable (begun.rows.take index ++ rowOf sampleRow) = shown ++ [sampleRow] :=
      Except.ok.inj found
    have lines := length_readable_le (begun.rows.take index ++ rowOf sampleRow)
    rw [listed, unfinished_append_row, if_pos rfl, List.count_append, count_rowOf,
      List.length_append, List.length_singleton] at lines
    omega
  · cases found

theorem beside_of_recovers (recovers : store.Recovers d cutoff (begun.written index)) :
    ¬ store.LeadsBack d := by
  rcases recovers.ended with same | ended
  · intro back
    have isOpen := (begun.isOpen_written_iff held.sound index).mp recovers.isOpen
    have all : begun.points = readable (begun.rows.take index) := by
      obtain ⟨id, found, -, listed⟩ := points_inversion begun.read
      cases found.symm.trans isOpen.lookup
      rw [listed, ← same, begun.bytes_written_back held back]
    -- What has been begun is one line at most.
    have few : (begun.rows.take index).count 0x0A < begun.kept.length := count_take_lt more
    have removes : begun.kept.length < begun.points.length := begun.removes
    have lines := all ▸ length_readable_le (begun.rows.take index)
    split at lines
    all_goals omega
  · refine begun.beside_of_takesRows held more recovers.isOpen recovers.rows ?_
    exact recovers.isOpen.takesRows (ended ▸ isMargin_nil)

end Part

end Begun

section Reached

variable (held : store.IsHeld d) (reached : store.Reaches d cutoff step d')

include held reached

theorem Reaches.isHeld : store.IsHeld d' := by
  cases reached with
  | read | create => exact held
  | write begun | sync begun | rename begun => exact begun.isHeld_written held _
  | reopen begun renamed =>
    obtain ⟨sound, inside⟩ := begun.isHeld_written held begun.rows.length
    exact ⟨sound.rename renamed, Disk.contents_of_rename renamed ▸ inside⟩

/-- The failures that a store withstands are those that it recovers from. -/
theorem Reaches.recovers_iff : store.Recovers d cutoff d' ↔ store.Withstands d d' step := by
  cases reached with
  | read | create => exact ⟨Recovers.isOpen, fun isOpen => ⟨.inl rfl, isOpen, .inl rfl⟩⟩
  | sync begun | rename begun =>
    have same := begun.isOpen_written_iff held.sound begun.rows.length
    exact ⟨fun recovers => same.mp recovers.isOpen, fun isOpen =>
      ⟨begun.points_written_full isOpen, same.mpr isOpen, begun.ended_written_full held⟩⟩
  | @write begun index more =>
    have same := begun.isOpen_written_iff held.sound index
    constructor
    · intro recovers
      exact ⟨same.mp recovers.isOpen, begun.beside_of_recovers held more recovers⟩
    · rintro ⟨isOpen, beside⟩
      exact ⟨.inl (begun.points_written isOpen beside index), same.mpr isOpen,
        .inl (begun.bytes_written held beside index)⟩
  | reopen begun renamed =>
    have same := begun.isOpen_renamed_iff held renamed
    constructor
    · exact fun recovers => same.mp recovers.isOpen
    · intro withstood
      obtain ⟨back, id, found⟩ := withstood
      refine ⟨.inr ?_, same.mpr ⟨back, id, found⟩, .inr ?_⟩
      · rw [begun.points_renamed held.sound renamed found, begun.read]
        rfl
      · rw [← (begun.id_eq_iff held).mpr back, begun.bytes_renamed held.sound renamed]
        exact unfinished_rows begun.kept

/-- Nothing less will do: a store that could be read, finds what it should and takes rows has
recovered. -/
theorem Reaches.recovers_of_takesRows (read : store.points d = .ok points)
    (rows : store.FindsRows d cutoff d') (takes : store.TakesRows d') :
    store.Recovers d cutoff d' := by
  obtain ⟨left, found⟩ : ∃ left, store.points d' = .ok left := by
    rw [FindsRows, read] at rows
    exact rows.elim (fun all => ⟨points, all⟩) (fun kept => ⟨after cutoff points, kept⟩)
  have isOpen := takes.isOpen (reached.isHeld held).sound found
  refine ⟨rows, isOpen, ?_⟩
  cases reached with
  | read | create => exact .inl rfl
  | write begun more =>
    have beside := begun.beside_of_takesRows held more isOpen rows takes
    exact .inl (begun.bytes_written held beside _)
  | sync begun | rename begun => exact begun.ended_written_full held
  | reopen begun renamed =>
    right
    rw [begun.id_of_found held.sound renamed isOpen.lookup, begun.bytes_renamed held.sound renamed]
    exact unfinished_rows begun.kept

end Reached

theorem Holds.of_points (isOpen : store.IsOpen d)
    (ended : unfinished (d.bytes store.handle) = []) (read : store.points d = .ok points) :
    store.Holds d points := by
  obtain ⟨id, found, clean, listed⟩ := points_inversion read
  cases found.symm.trans isOpen.lookup
  exact ⟨isOpen, clean, ended, listed.symm⟩

/-- A store that recovers goes on as a list, of all points or of those that are kept. -/
theorem Recovers.holds (recovers : store.Recovers d cutoff d') (holds : store.Holds d points) :
    store.Holds d' points ∨ store.Holds d' (after cutoff points) := by
  have ended : unfinished (d'.bytes store.handle) = [] := by
    rcases recovers.ended with same | ended
    · rw [same, holds.ended]
    · exact ended
  rcases recovers.rows with all | kept
  · left
    exact .of_points recovers.isOpen ended (all.trans holds.points_eq)
  · right
    rw [holds.points_eq] at kept
    exact .of_points recovers.isOpen ended kept

/-- A cleanup that fails leaves the store as it was and the disk that some step has found, and
whatever step is reached can be the one that fails. A store that is open then finds all points, or
all that are kept, and still writes where it finds them, unless it could not write a byte to the log
itself, or could not open a log that another file has replaced. That is what it takes to find
whatever is recorded later behind the others, as long as that could be found before the cleanup. A
store that is not open never finds it. A store that was a list before and has recovered is one
afterwards, whatever it is used for. -/
theorem failed_cleanup_recovers_iff (held : store.IsHeld d)
    (cut : cutoff? now retention = .ok cutoff) :
    (∀ refusal fault store' d',
      store.cleanupWith refusal d now retention = .ok ⟨.error fault, store', d'⟩ →
        store' = store ∧ ∃ step, store.Reaches d cutoff step d' ∧ store.Fails refusal d' step) ∧
    ∀ step d', store.Reaches d cutoff step d' →
      (∀ cause, ∃ fault, store.cleanupWith (refusing step cause) d now retention =
        .ok ⟨.error fault, store, d'⟩) ∧
      (store.Recovers d cutoff d' ↔ store.Withstands d d' step) ∧
      store.IsHeld d' ∧
      (store.IsOpen d' → IsMargin (unfinished (d'.bytes store.handle)) → store.TakesRows d') ∧
      (store.Recovers d cutoff d' → IsMargin (unfinished (d.bytes store.handle)) →
        store.TakesRows d') ∧
      (∀ points, store.points d = .ok points → store.FindsRows d cutoff d' → store.TakesRows d' →
        store.Recovers d cutoff d') ∧
      (¬ store.IsOpen d' → ∀ ps, store.points (store.recordAll d' ps) = store.points d') ∧
      (store.Recovers d cutoff d' → ∀ points, store.Holds d points →
        ∃ left, (left = points ∨ left = after cutoff points) ∧
          ∀ uses, (∀ p, .record p ∈ uses → p.timestamp.IsWritable) →
            (∀ answer ∈ (store.useAll d' uses).1, answer.isRefusal = false) →
              FollowsList left uses (store.useAll d' uses).1) := by
  constructor
  · intro refusal fault store' d' failed
    exact reaches_of_cleanupWith cut failed
  · intro step d' reached
    have held' := reached.isHeld held
    refine ⟨cleanupWith_refusing cut reached, reached.recovers_iff held, held', IsOpen.takesRows,
      Recovers.takesRows, ?_, ?_, ?_⟩
    · intro points read rows takes
      exact reached.recovers_of_takesRows held read rows takes
    · intro closed ps
      apply points_recordAll_of_elsewhere
      intro found
      exact closed ((isOpen_iff held'.sound).mpr found)
    · intro recovers points holds
      rcases recovers.holds holds with all | kept
      · refine ⟨points, .inl rfl, fun uses writable accepted => ?_⟩
        exact (all.useAll uses writable accepted).1
      · refine ⟨after cutoff points, .inr rfl, fun uses writable accepted => ?_⟩
        exact (kept.useAll uses writable accepted).1

/-! A log on a disk by itself that cannot be opened again, and one that is also what the name beside
it leads to. -/

/-- A row of two hours ago, and one of the last hour. -/
def mixedLog : List UInt8 :=
  [⟨beforeNoon 7200, 41, 30, 20⟩, sampleRow].flatMap rowOf

/-- The store of a log that is the first file of its disk. -/
def logStore : Store :=
  ⟨logName, 0⟩

section Samples

variable {contents : List Contents} {approach : Disk.Approach}

theorem points_mixedLog (found : d.lookup logName = .ok (.file 0)) (rows : d.bytes 0 = mixedLog) :
    logStore.points d = .ok [⟨beforeNoon 7200, 41, 30, 20⟩, sampleRow] := by
  have clean : IsText mixedLog := by decide +kernel
  have listed : readable mixedLog = [⟨beforeNoon 7200, 41, 30, 20⟩, sampleRow] := by decide +kernel
  rw [points, Disk.read, logStore, found]
  change pointsOf (d.bytes 0) = _
  rw [rows, pointsOf_eq, if_pos clean, listed]

theorem after_mixedLog : after (beforeNoon 3600) [⟨beforeNoon 7200, 41, 30, 20⟩, sampleRow] =
    [sampleRow] := by
  decide +kernel

theorem temporary_logStore : logStore.temporary = temporaryName := by
  decide +kernel

theorem lookup_loggedIn (id : FileId) (contents : List Contents) :
    (loggedIn id contents).lookup logName = .ok (.file id) :=
  Disk.lookup_of_openAppend openAppend_loggedIn rfl rfl

/-- A cleanup of a log on a disk by itself comes to its last step. -/
theorem reaches_reopen (inside : id < contents.length)
    (read : logStore.points (loggedIn id contents) = .ok points)
    (removes : (after cutoff points).length < points.length) :
    ∃ contents', logStore.Reaches (loggedIn id contents) cutoff .reopen
      (loggedIn contents.length contents') := by
  obtain ⟨empty, -, created⟩ := create_loggedIn id contents
  rw [← temporary_logStore] at created
  let begun : logStore.Begun (loggedIn id contents) cutoff := ⟨points, read, removes, _, _, created⟩
  obtain ⟨full, -, written⟩ := appendTo_loggedBeside contents.length id empty
    (begun.rows.take begun.rows.length)
  refine ⟨full, .reopen begun ?_⟩
  rw [Begun.written, show begun.disk.appendTo begun.id _ = _ from written, temporary_logStore]
  exact rename_loggedBeside (Nat.ne_of_gt inside)

/-- The system has no more files to open. -/
def outOfFiles : Cause :=
  .other "Too many open files (os error 24)"

/-- A store that cannot open the log after it has been replaced does not find what it records. -/
theorem refused_reopening_loses_rows :
    ∃ fault d', logStore.IsHeld (diskWith mixedLog) ∧
      cutoff? (beforeNoon 0) hour = .ok (beforeNoon 3600) ∧
      logStore.cleanupWith (refusing .reopen outOfFiles) (diskWith mixedLog) (beforeNoon 0) hour =
        .ok ⟨.error fault, logStore, d'⟩ ∧
      ¬ logStore.Recovers (diskWith mixedLog) (beforeNoon 3600) d' ∧
      ∀ ps, logStore.points (logStore.recordAll d' ps) = logStore.points d' := by
  have held : logStore.IsHeld (diskWith mixedLog) :=
    (isOpen_of_open? (isSound_diskWith mixedLog) (open?_diskWith mixedLog)).isHeld
  have cut : cutoff? (beforeNoon 0) hour = .ok (beforeNoon 3600) := rfl
  have read := points_mixedLog (lookup_loggedIn 0 [[mixedLog]]) (bytes_diskWith mixedLog)
  obtain ⟨contents, reached⟩ := reaches_reopen Nat.zero_lt_one read (by rw [after_mixedLog]; decide)
  obtain ⟨-, steps⟩ := failed_cleanup_recovers_iff held cut
  obtain ⟨fails, -, -, -, -, -, lost, -⟩ := steps .reopen _ reached
  obtain ⟨fault, failed⟩ := fails outOfFiles
  -- The path leads to the file that has been made, which is the second one of the disk.
  have closed : ¬ logStore.IsOpen (loggedIn 1 contents) := fun isOpen => by
    cases isOpen.lookup.symm.trans (lookup_loggedIn 1 contents)
  exact ⟨fault, _, held, cut, failed, fun recovered => closed recovered.isOpen, lost closed⟩

/-- A log, and beside it a link that leads to it. -/
def linkedLog (contents : List Contents) : Disk :=
  ⟨[(⟨Disk.workingDirectory, temporaryName⟩, .symlink logName),
    (⟨Disk.workingDirectory, logName⟩, .file 0)], [Disk.root, Disk.root], contents⟩

/-- The link alone, which has the name that it leads to. -/
def loopedLog (contents : List Contents) : Disk :=
  ⟨[(⟨Disk.workingDirectory, logName⟩, .symlink logName)], [Disk.root, Disk.root], contents⟩

theorem names_logName : Path.names logName = [logName] := by
  decide +kernel

theorem endsInSlash_logName : Path.endsInSlash logName = false := by
  decide +kernel

theorem walk_linkedLog (links : Nat) (approach : Disk.Approach) :
    (linkedLog contents).walk approach links false Disk.workingDirectory [logName] =
      .ok (.entry ⟨Disk.workingDirectory, logName⟩ false) := by
  rw [Disk.walk]
  cases approach <;> rfl

theorem walk_loopedLog (links : Nat) (follows : approach = .file ∨ approach = .target) :
    (loopedLog contents).walk approach links false Disk.workingDirectory [logName] =
      .error .tooManyLinks := by
  induction links with
  | zero =>
    rw [Disk.walk]
    rcases follows with rfl | rfl <;> rfl
  | succ links ih =>
    have again : (loopedLog contents).walk approach links
        (false || true && Path.endsInSlash logName) (Disk.startOf logName Disk.workingDirectory)
        (Path.names logName ++ []) = .error .tooManyLinks := by
      rw [names_logName, endsInSlash_logName]
      exact ih
    rw [Disk.walk]
    rcases follows with rfl | rfl
    all_goals exact again

theorem openAppend_linkedLog : (linkedLog contents).openAppend logName =
    .ok (0, linkedLog contents) := by
  rw [Disk.openAppend, locate_name (.inl rfl) (walk_linkedLog _ _)]
  rfl

theorem create_linkedLog (contents : List Contents) : ∃ contents',
    (linkedLog contents).create temporaryName = .ok (0, linkedLog contents') := by
  have followed : (linkedLog contents).walk .file 39 (false || true && Path.endsInSlash logName)
      (Disk.startOf logName Disk.workingDirectory) (Path.names logName ++ []) =
        .ok (.entry ⟨Disk.workingDirectory, logName⟩ false) := by
    rw [names_logName, endsInSlash_logName]
    exact walk_linkedLog 39 .file
  have walked : (linkedLog contents).walk .file Disk.maxLinks false Disk.workingDirectory
      [temporaryName] = .ok (.entry ⟨Disk.workingDirectory, logName⟩ false) := by
    rw [Disk.walk]
    exact followed
  refine ⟨contents.set 0 [], ?_⟩
  rw [Disk.create, Disk.openAppend, locate_name (.inr rfl) walked]
  rfl

theorem writeTo_linkedLog (contents : List Contents) (bytes : List UInt8) : ∃ contents',
    (linkedLog contents).writeTo (fun _ => none) 0 bytes = (none, linkedLog contents') :=
  ⟨_, Disk.writeTo_accepted (fun _ => rfl) (linkedLog contents) 0 bytes⟩

theorem rename_linkedLog : (linkedLog contents).rename temporaryName logName =
    .ok (loopedLog contents) := by
  have first : (linkedLog contents).walk .entry Disk.maxLinks false Disk.workingDirectory
      [temporaryName] = .ok (.entry ⟨Disk.workingDirectory, temporaryName⟩ false) := by
    rw [Disk.walk]
    rfl
  rw [Disk.rename, locate_name (.inr rfl) first, locate_name (.inl rfl) (walk_linkedLog _ _)]
  rfl

theorem openAppend_loopedLog : (loopedLog contents).openAppend logName = .error .tooManyLinks := by
  rw [Disk.openAppend, locate_name (.inl rfl) (walk_loopedLog _ (.inl rfl))]
  rfl

theorem lookup_loopedLog : (loopedLog contents).lookup logName = .error .tooManyLinks := by
  rw [Disk.lookup, Disk.find, locate_name (.inl rfl) (walk_loopedLog _ (.inr rfl))]
  rfl

theorem replaceWith_linkedLog (contents : List Contents) (kept : List Point) :
    ∃ fault contents', replaceWith (fun _ => none) logStore kept (linkedLog contents) =
      (.error fault, loopedLog contents') := by
  have named : Path.withExtension logStore.path "jsonl.tmp" = temporaryName := temporary_logStore
  obtain ⟨empty, created⟩ := create_linkedLog contents
  obtain ⟨full, written⟩ := writeTo_linkedLog empty (kept.flatMap rowOf)
  refine ⟨cannotOpen logName .tooManyLinks, full, ?_⟩
  rw [replaceWith, named]
  simp only [unlessRefused, created, written]
  rw [show logStore.path = logName from rfl, rename_linkedLog]
  simp only [openAppend_loopedLog]

/-- A log that the name beside it leads to is lost with a cleanup, and so is what is recorded later:
the link that takes its place leads nowhere. -/
theorem linked_log_is_lost :
    ∃ fault d', open? (linkedLog [[mixedLog]]) logName = .ok (logStore, linkedLog [[mixedLog]]) ∧
      logStore.points (linkedLog [[mixedLog]]) =
        .ok [⟨beforeNoon 7200, 41, 30, 20⟩, sampleRow] ∧
      logStore.cleanup (linkedLog [[mixedLog]]) (beforeNoon 0) hour =
        .ok ⟨.error fault, logStore, d'⟩ ∧
      ¬ logStore.Recovers (linkedLog [[mixedLog]]) (beforeNoon 3600) d' ∧
      ∀ ps, logStore.points (logStore.recordAll d' ps) =
        .error (.fileRead logName .tooManyLinks) := by
  have opened : (linkedLog [[mixedLog]]).openAppend logName = .ok (0, linkedLog [[mixedLog]]) :=
    openAppend_linkedLog
  have read := points_mixedLog (Disk.lookup_of_openAppend opened rfl rfl) (List.append_nil mixedLog)
  have cut : cutoff? (beforeNoon 0) hour = .ok (beforeNoon 3600) := rfl
  obtain ⟨fault, contents, failed⟩ := replaceWith_linkedLog [[mixedLog]] [sampleRow]
  rw [← after_mixedLog] at failed
  obtain ⟨fault, failed⟩ := cleanupWith_of_replaceWith cut rfl read
    (by rw [after_mixedLog]; decide) ⟨fault, failed⟩
  have elsewhere : (loopedLog contents).lookup logName ≠ .ok (.file 0) := by
    rw [lookup_loopedLog]
    nofun
  refine ⟨fault, loopedLog contents, open?_logName opened, read, failed, ?_, fun ps => ?_⟩
  · exact fun recovered => elsewhere recovered.isOpen.lookup
  · rw [points_recordAll_of_elsewhere elsewhere, points, Disk.read,
      show logStore.path = logName from rfl, lookup_loopedLog]
    rfl

end Samples

end ChassisCooling.History.Store
