import ChassisCooling.Proofs.Recording
import ChassisCooling.Proofs.Replacing

/-! # What a cleanup leaves

A store is open when its path leads to the file that it writes to. Recording keeps it open, and a
cleanup opens it again: the file with the points that are kept is the one that the path leads to
from then on, and the one that later rows go to.
-/

namespace ChassisCooling.Files.Disk

variable {d d' : Disk} {path source : Path} {id : FileId} {e old new : Entry} {slash : Bool}

open Calendar

/-! ## Sound disks -/

theorem IsSound.congr (sound : d.IsSound) (nodes : d'.nodes = d.nodes)
    (contents : d.contents.length ≤ d'.contents.length) : d'.IsSound := by
  intro named among id file
  exact Nat.lt_of_lt_of_le (sound named (nodes ▸ among) id file) contents

theorem IsSound.newFile (sound : d.IsSound) (e : Entry) : (d.newFile e).2.IsSound := by
  intro named among id file
  rw [length_newFile]
  rcases List.mem_cons.mp among with rfl | among
  · cases file
    exact Nat.lt_succ_self _
  · exact Nat.lt_succ_of_lt (sound named (List.mem_filter.mp among).1 id file)

theorem IsSound.openAppend (sound : d.IsSound) (opened : d.openAppend path = .ok (id, d')) :
    d'.IsSound := by
  rcases openAppend_cases opened with ⟨e, slash, -, -, made⟩ | ⟨e, slash, -, -, rfl⟩
  · obtain ⟨-, rfl⟩ := Prod.mk.inj made
    exact sound.newFile e
  · exact sound

theorem IsSound.moveName (sound : d.IsSound) (done : d.moveName old new slash = .ok d') :
    d'.IsSound := by
  obtain ⟨-, node, held, ⟨rfl, -⟩ | ⟨rfl, -⟩⟩ := moveName_inversion done
  · exact sound
  · intro named among id file
    rcases List.mem_cons.mp among with rfl | among
    · obtain ⟨named, listed, same⟩ := Option.map_eq_some_iff.mp held
      exact sound named (List.mem_of_find?_eq_some listed) id (same.trans file)
    · exact sound named (List.mem_filter.mp (List.mem_filter.mp among).1).1 id file

theorem IsSound.rename (sound : d.IsSound) (done : d.rename source path = .ok d') :
    d'.IsSound := by
  obtain ⟨old, oldSlash, new, newSlash, -, -, done⟩ := rename_inversion done
  exact sound.moveName done

theorem contents_of_rename (done : d.rename source path = .ok d') : d'.contents = d.contents := by
  obtain ⟨old, oldSlash, new, newSlash, -, -, done⟩ := rename_inversion done
  exact contents_of_moveName done

theorem bytes_of_rename (done : d.rename source path = .ok d') (id : FileId) :
    d'.bytes id = d.bytes id := by
  rw [bytes, written, contents_of_rename done, bytes, written]

end ChassisCooling.Files.Disk

namespace ChassisCooling.History

open Calendar Files Text

/-! ## Points that have been read -/

/-- Whatever point is read, its time can be written again. -/
theorem Point.isWritable_of_ofJson? {j : Json} {p : Point} (read : ofJson? j = some p) :
    p.timestamp.IsWritable := by
  obtain ⟨fields, -, read⟩ := Option.bind_eq_some_iff.mp read
  split at read
  · obtain ⟨t, timed, read⟩ := Option.bind_eq_some_iff.mp read
    obtain ⟨cpu, -, read⟩ := Option.bind_eq_some_iff.mp read
    obtain ⟨gpu, -, read⟩ := Option.bind_eq_some_iff.mp read
    obtain ⟨speed, -, read⟩ := Option.bind_eq_some_iff.mp read
    obtain ⟨field, -, timed⟩ := Option.bind_eq_some_iff.mp timed
    obtain ⟨text, -, timed⟩ := Option.bind_eq_some_iff.mp timed
    cases read
    exact Rfc3339.isWritable_of_read? timed
  · cases read

namespace Store

variable {store store' : Store} {d d' d₀ : Disk} {path : Path} {p : Point} {ps kept : List Point}
  {bytes line : List UInt8} {refusal : CleanupStep → Option Cause}

theorem isWritable_of_readable (among : p ∈ readable bytes) : p.timestamp.IsWritable := by
  obtain ⟨line, -, read⟩ := List.mem_filterMap.mp among
  obtain ⟨text, -, read⟩ := Option.bind_eq_some_iff.mp read
  rw [pointOf?] at read
  split at read
  · cases read
  · obtain ⟨j, -, read⟩ := Option.bind_eq_some_iff.mp read
    exact Point.isWritable_of_ofJson? read

/-! ## Open stores -/

/-- The path of the store leads to the file that it writes to. -/
structure IsOpen (store : Store) (d : Disk) : Prop where
  sound : d.IsSound
  opened : ∃ d₁ d₀ : Disk, d₁.openAppend store.path = .ok (store.handle, d₀) ∧
    d.aboves = d₀.aboves ∧ d.nodes = d₀.nodes
  held : store.handle < d.contents.length

theorem IsOpen.lookup (isOpen : store.IsOpen d) :
    d.lookup store.path = .ok (.file store.handle) := by
  obtain ⟨d₁, d₀, opened, aboves, nodes⟩ := isOpen.opened
  exact Disk.lookup_of_openAppend opened aboves nodes

/-- A query reads the file that the store writes to. -/
theorem IsOpen.points_eq (isOpen : store.IsOpen d) :
    store.points d = pointsOf (d.bytes store.handle) := by
  rw [points, Disk.read, isOpen.lookup]
  rfl

/-- Points can be read from a file only, and from a text. -/
theorem points_inversion {points : List Point} (read : store.points d = .ok points) :
    ∃ id, d.lookup store.path = .ok (.file id) ∧ IsText (d.bytes id) ∧
      points = readable (d.bytes id) := by
  obtain ⟨bytes, read, listed⟩ := ok_of_bind read
  rw [Disk.read] at read
  split at read
  · next id found =>
    cases read
    rw [pointsOf_eq] at listed
    split at listed
    · next clean => exact ⟨id, found, clean, (Except.ok.inj listed).symm⟩
    · cases listed
  · cases read
  · cases read
  · cases read

theorem isOpen_of_openAppend (sound : d.IsSound)
    (opened : d.openAppend path = .ok (store.handle, d')) (same : store.path = path) :
    store.IsOpen d' where
  sound := sound.openAppend opened
  opened := ⟨d, d', same ▸ opened, rfl, rfl⟩
  held := Disk.lt_of_openAppend sound opened

theorem isOpen_of_open? (sound : d.IsSound) (opened : open? d path = .ok (store, d₀)) :
    store.IsOpen d₀ := by
  obtain ⟨same, d₁, sound, reached⟩ := open?_cases sound opened
  exact isOpen_of_openAppend sound reached same

theorem IsOpen.record (isOpen : store.IsOpen d) (p : Point) : store.IsOpen (store.record d p) where
  sound := isOpen.sound.congr rfl (Nat.le_of_eq List.length_set.symm)
  opened := isOpen.opened
  held := Nat.lt_of_lt_of_eq isOpen.held List.length_set.symm

theorem IsOpen.bytes_record (isOpen : store.IsOpen d) (p : Point) :
    (store.record d p).bytes store.handle = d.bytes store.handle ++ rowOf p :=
  Disk.bytes_appendTo isOpen.held

/-! ## Replacing the file -/

/-- A file that has been made anew holds what is written to it, and is what its path leads to. -/
theorem created_bytes {temporary : Path} {id : FileId} {d₁ : Disk} (sound : d.IsSound)
    (created : d.create temporary = .ok (id, d₁)) (bytes : List UInt8) :
    (d₁.appendTo id bytes).IsSound ∧ Disk.Extends d (d₁.appendTo id bytes) ∧
      (d₁.appendTo id bytes).lookup temporary = .ok (.file id) ∧
      (d₁.appendTo id bytes).bytes id = bytes := by
  obtain ⟨held, empty⟩ := Disk.bytes_of_create_self sound created
  obtain ⟨⟨id', d₀⟩, opened, cleared⟩ := ok_of_bind created
  cases cleared
  have length : d₀.contents.length ≤ ((d₀.clear id).appendTo id bytes).contents.length :=
    Nat.le_of_eq (List.length_set.trans List.length_set).symm
  refine ⟨(sound.openAppend opened).congr rfl length,
    (Disk.extends_of_openAppend opened).congr rfl rfl, Disk.lookup_of_openAppend opened rfl rfl, ?_⟩
  rw [Disk.bytes_appendTo held, empty, List.nil_append]

/-- A file that has been replaced is open, and holds the rows of the kept points. -/
theorem isOpen_of_replaceWith {id : FileId} (sound : d.IsSound)
    (found : d.lookup store.path = .ok (.file id))
    (done : replaceWith refusal store kept d = (.ok store', d')) :
    store'.IsOpen d' ∧ d'.bytes store'.handle = kept.flatMap rowOf := by
  rw [replaceWith] at done
  split at done
  · cases done
  next id d₁ created =>
  split at done
  · cases done
  next d₂ written =>
  split at done
  · cases done
  split at done
  · cases done
  next d₃ renamed =>
  split at done
  · cases done
  next handle d₄ opened =>
  cases done
  obtain rfl := Disk.eq_of_writeTo written
  obtain ⟨sound, extended, temporary, rows⟩ :=
    created_bytes sound (Disk.ok_of_unlessRefused created) (kept.flatMap rowOf)
  have renamed := Disk.ok_of_unlessRefused renamed
  have opened := Disk.ok_of_unlessRefused opened
  have sound := sound.rename renamed
  have segment : Path.IsSegment "jsonl.tmp" := by simp [Path.IsSegment]
  obtain ⟨rfl, rfl⟩ := Disk.opened_of_replaced segment temporary
    (Disk.ends_of_extends extended found) renamed opened
  exact ⟨isOpen_of_openAppend sound opened rfl, (Disk.bytes_of_rename renamed handle).trans rows⟩

/-! ## Cleanups -/

variable {now cutoff : Instant} {retention : Span} {cleaned : Cleaned}

/-- What a cleanup up to a cutoff leaves, once it has read the points. -/
def cleanedUp (refusal : CleanupStep → Option Cause) (store : Store) (d : Disk)
    (cutoff : Instant) : Except Fault (List Point) → Cleaned
  | .error fault => ⟨.error fault, store, d⟩
  | .ok points =>
    let removed := points.length - (after cutoff points).length
    if removed = 0 then ⟨.ok 0, store, d⟩
    else match replaceWith refusal store (after cutoff points) d with
    | (.error fault, d) => ⟨.error fault, store, d⟩
    | (.ok store, d) => ⟨.ok removed, store, d⟩

/-- The points that a cleanup reads, unless the system refuses to open the file. -/
def readUnless (refusal : CleanupStep → Option Cause) (store : Store) (d : Disk) :
    Except Fault (List Point) :=
  match refusal .read with
  | some cause => .error (Fault.fileRead store.path cause)
  | none => store.points d

theorem cleanupWith_eq (refusal : CleanupStep → Option Cause) (store : Store) (d : Disk)
    (now : Instant) (retention : Span) : store.cleanupWith refusal d now retention =
      (cutoff? now retention).map fun cutoff =>
        cleanedUp refusal store d cutoff (readUnless refusal store d) := by
  rw [cleanupWith, cutoff?]
  cases Clock.system.read now with
  | error cause => rfl
  | ok t =>
    change (t.sub retention >>= _) = (t.sub retention).map _
    cases t.sub retention with
    | error cause => rfl
    | ok cutoff =>
      simp only [bind, Except.bind, Except.map, readUnless]
      cases refusal .read with
      | some cause => rfl
      | none =>
        cases store.points d with
        | error fault => rfl
        | ok points =>
          simp only [cleanedUp]
          split
          · rfl
          · cases replaceWith refusal store (after cutoff points) d with
            | mk result d => cases result <;> rfl

theorem cleanup_eq (store : Store) (d : Disk) (now : Instant) (retention : Span) :
    store.cleanup d now retention = (cutoff? now retention).map fun cutoff =>
      cleanedUp (fun _ => none) store d cutoff (store.points d) :=
  cleanupWith_eq (fun _ => none) store d now retention

theorem eq_of_cutoff? (cut : cutoff? now retention = .ok cutoff) :
    cutoff = .ofNanos (now.nanos - retention.nanos) := by
  obtain ⟨shown, read, earlier⟩ := ok_of_bind cut
  rw [Clock.read] at read
  split at read
  · cases read
  · obtain rfl := Instant.eq_of_checked read
    exact Instant.eq_of_checked earlier

theorem mem_after_iff {points : List Point} (among : p ∈ points) :
    p ∈ after cutoff points ↔ cutoff < p.timestamp := by
  rw [after, List.mem_filter, and_iff_right among, decide_eq_true_eq]

theorem lt_iff_not_le (t : Instant) : cutoff < t ↔ ¬ t ≤ cutoff :=
  Int.not_le.symm

/-- Points that are not kept are those up to the cutoff. -/
theorem length_sub_after (cutoff : Instant) (points : List Point) :
    points.length - (after cutoff points).length =
      points.countP fun p => decide (p.timestamp ≤ cutoff) := by
  have kept : (after cutoff points).length =
      points.countP fun p => decide ¬ decide (p.timestamp ≤ cutoff) = true := by
    rw [after, List.countP_eq_length_filter]
    simp only [lt_iff_not_le, decide_eq_true_eq]
  have whole := points.length_eq_countP_add_countP fun p => decide (p.timestamp ≤ cutoff)
  omega

theorem after_eq_self {points : List Point}
    (none : points.countP (fun p => decide (p.timestamp ≤ cutoff)) = 0) :
    after cutoff points = points := by
  refine List.filter_eq_self.mpr fun p among => decide_eq_true ?_
  exact (lt_iff_not_le _).mpr fun late => List.countP_eq_zero.mp none p among (decide_eq_true late)

/-- A cleanup that comes to its end has removed the points up to its cutoff. It has changed nothing
if there were none; else the file holds the rows of the others. -/
theorem cleanup_ok {removed : Nat} (sound : d.IsSound)
    (done : store.cleanup d now retention = .ok ⟨.ok removed, store', d'⟩) :
    ∃ cutoff points, cutoff? now retention = .ok cutoff ∧ store.points d = .ok points ∧
      removed = points.countP (fun p => decide (p.timestamp ≤ cutoff)) ∧
      (store' = store ∧ d' = d ∧ removed = 0 ∨
        store'.IsOpen d' ∧ d'.bytes store'.handle = (after cutoff points).flatMap rowOf) := by
  rw [cleanup_eq] at done
  cases cut : cutoff? now retention with
  | error cause =>
    rw [cut] at done
    cases done
  | ok cutoff =>
    rw [cut] at done
    have done : cleanedUp (fun _ => none) store d cutoff (store.points d) =
        ⟨.ok removed, store', d'⟩ := Except.ok.inj done
    cases read : store.points d with
    | error fault =>
      rw [read] at done
      cases done
    | ok points =>
      rw [read, cleanedUp, length_sub_after] at done
      refine ⟨cutoff, points, rfl, rfl, ?_⟩
      split at done
      · next none =>
        cases done
        exact ⟨none.symm, .inl ⟨rfl, rfl, rfl⟩⟩
      split at done
      · cases done
      · next replaced =>
        cases done
        obtain ⟨id, found, -, -⟩ := points_inversion read
        exact ⟨rfl, .inr (isOpen_of_replaceWith sound found replaced)⟩

theorem isMargin_nil : IsMargin [] :=
  ⟨[], rfl, nofun⟩

/-- Rows that a cleanup has written are read as the points that they are of. -/
theorem readable_rows (writable : ∀ p ∈ ps, p.timestamp.IsWritable) :
    IsText (ps.flatMap rowOf) ∧ readable (ps.flatMap rowOf) = ps := by
  have margin : IsMargin (unfinished []) := isMargin_nil
  rw [← List.nil_append (ps.flatMap rowOf), isText_recorded, readable_of_margin margin writable]
  exact ⟨by decide, rfl⟩

/-- The points that a cleanup leaves to be read are those after its cutoff. -/
theorem points_of_cleanup {removed : Nat} (sound : d.IsSound)
    (done : store.cleanup d now retention = .ok ⟨.ok removed, store', d'⟩) :
    ∃ cutoff points, cutoff? now retention = .ok cutoff ∧ store.points d = .ok points ∧
      removed = points.countP (fun p => decide (p.timestamp ≤ cutoff)) ∧
      store'.points d' = .ok (after cutoff points) := by
  obtain ⟨cutoff, points, cut, read, count, unchanged | ⟨isOpen, rows⟩⟩ := cleanup_ok sound done
  all_goals
    refine ⟨cutoff, points, cut, read, count, ?_⟩
  · obtain ⟨rfl, rfl, none⟩ := unchanged
    rw [after_eq_self (count.symm.trans none), read]
  · obtain ⟨id, -, -, rfl⟩ := points_inversion read
    have writable : ∀ p ∈ after cutoff (readable (d.bytes id)), p.timestamp.IsWritable :=
      fun p among => isWritable_of_readable (List.mem_filter.mp among).1
    obtain ⟨clean, listed⟩ := readable_rows writable
    rw [isOpen.points_eq, pointsOf_eq, rows, if_pos clean, listed]

/-- A cleanup that cannot read the points changes nothing. -/
theorem cleanup_of_unread {fault : Fault} (read : store.points d = .error fault)
    (cut : cutoff? now retention = .ok cutoff) :
    store.cleanup d now retention = .ok ⟨.error fault, store, d⟩ := by
  rw [cleanup_eq, cut, read]
  rfl

/-! ## Stores as lists -/

theorem unfinished_append_row (bytes : List UInt8) (p : Point) :
    unfinished (bytes ++ rowOf p) = [] := by
  rw [unfinished, rowOf_eq, List.reverse_append, List.reverse_append]
  rfl

theorem unfinished_rows (ps : List Point) : unfinished (ps.flatMap rowOf) = [] := by
  rcases List.eq_nil_or_concat ps with rfl | ⟨front, p, rfl⟩
  · rfl
  · rw [List.concat_eq_append, List.flatMap_append, List.flatMap_singleton]
    exact unfinished_append_row _ p

/-- The store holds these points, each on a line of its own that has been ended. -/
structure Holds (store : Store) (d : Disk) (points : List Point) : Prop where
  isOpen : store.IsOpen d
  clean : IsText (d.bytes store.handle)
  ended : unfinished (d.bytes store.handle) = []
  listed : readable (d.bytes store.handle) = points

namespace Holds

variable {points : List Point} (holds : store.Holds d points)

include holds

theorem points_eq : store.points d = .ok points := by
  rw [holds.isOpen.points_eq, pointsOf_eq, if_pos holds.clean, holds.listed]

theorem writable : ∀ p ∈ points, p.timestamp.IsWritable := by
  intro p among
  rw [← holds.listed] at among
  exact isWritable_of_readable among

theorem record (writable : p.timestamp.IsWritable) :
    store.Holds (store.record d p) (points ++ [p]) := by
  have margin : IsMargin (unfinished (d.bytes store.handle)) := by
    rw [holds.ended]
    exact isMargin_nil
  have bytes : (store.record d p).bytes store.handle =
      d.bytes store.handle ++ [p].flatMap rowOf := by
    rw [holds.isOpen.bytes_record, List.flatMap_singleton]
  refine ⟨holds.isOpen.record p, ?_, ?_, ?_⟩
  · rw [bytes, isText_recorded]
    exact holds.clean
  · rw [holds.isOpen.bytes_record]
    exact unfinished_append_row _ p
  · rw [bytes, readable_of_margin margin (List.forall_mem_singleton.mpr writable), holds.listed]

theorem cleanup {removed : Nat}
    (done : store.cleanup d now retention = .ok ⟨.ok removed, store', d'⟩) :
    ∃ cutoff, cutoff? now retention = .ok cutoff ∧
      removed = points.countP (fun p => decide (p.timestamp ≤ cutoff)) ∧
      store'.Holds d' (after cutoff points) := by
  obtain ⟨cutoff, points', cut, read, count, unchanged | ⟨isOpen, rows⟩⟩ :=
    cleanup_ok holds.isOpen.sound done
  all_goals
    obtain rfl := Except.ok.inj (holds.points_eq.symm.trans read)
    refine ⟨cutoff, cut, count, ?_⟩
  · obtain ⟨rfl, rfl, none⟩ := unchanged
    rw [after_eq_self (count.symm.trans none)]
    exact holds
  · have writable : ∀ p ∈ after cutoff points, p.timestamp.IsWritable := fun p among =>
      holds.writable p (List.mem_filter.mp among).1
    obtain ⟨clean, listed⟩ := readable_rows writable
    exact ⟨isOpen, rows ▸ clean, rows ▸ unfinished_rows _, rows ▸ listed⟩

end Holds

/-! A log on a disk by itself. Whatever the files hold, it can be replaced there, and so it can be
cleaned up once it has been read. -/

/-- A disk with nothing but the log, which is the file of this number. -/
def loggedIn (id : FileId) (contents : List Contents) : Disk :=
  ⟨[(⟨Disk.workingDirectory, logName⟩, .file id)], [Disk.root, Disk.root], contents⟩

def temporaryName : Path := "h.jsonl.tmp"

/-- The same disk while the log is being replaced. -/
def loggedBeside (new id : FileId) (contents : List Contents) : Disk :=
  ⟨[(⟨Disk.workingDirectory, temporaryName⟩, .file new),
    (⟨Disk.workingDirectory, logName⟩, .file id)], [Disk.root, Disk.root], contents⟩

/-- A log on a disk by itself. -/
def IsAlone (store : Store) (d : Disk) : Prop :=
  ∃ handle id contents, store = ⟨logName, handle⟩ ∧ d = loggedIn id contents ∧ id < contents.length

section Alone

variable {id new handle : FileId} {contents : List Contents} {approach : Disk.Approach}

theorem isSingle_logName : Disk.IsSingle logName := by
  constructor
  all_goals decide +kernel

theorem isSingle_temporaryName : Disk.IsSingle temporaryName := by
  constructor
  all_goals decide +kernel

theorem locate_name {name : Path} {result : Except Cause Disk.Place}
    (isOne : name = logName ∨ name = temporaryName)
    (walked : d.walk approach Disk.maxLinks false Disk.workingDirectory [name] = result) :
    d.locate approach name = result := by
  rcases isOne with rfl | rfl
  · exact (Disk.locate_single isSingle_logName).trans walked
  · exact (Disk.locate_single isSingle_temporaryName).trans walked

theorem openAppend_loggedIn : (loggedIn id contents).openAppend logName =
    .ok (id, loggedIn id contents) := by
  have walked : (loggedIn id contents).walk .file Disk.maxLinks false Disk.workingDirectory
      [logName] = .ok (.entry ⟨Disk.workingDirectory, logName⟩ false) := by
    rw [Disk.walk]
    rfl
  rw [Disk.openAppend, locate_name (.inl rfl) walked]
  rfl

theorem create_loggedIn (id : FileId) (contents : List Contents) : ∃ contents',
    contents'.length = contents.length + 1 ∧ (loggedIn id contents).create temporaryName =
      .ok (contents.length, loggedBeside contents.length id contents') := by
  have walked : (loggedIn id contents).walk .file Disk.maxLinks false Disk.workingDirectory
      [temporaryName] = .ok (.entry ⟨Disk.workingDirectory, temporaryName⟩ false) := by
    rw [Disk.walk]
    rfl
  refine ⟨(contents ++ [[]]).set contents.length [], List.length_set.trans List.length_append, ?_⟩
  rw [Disk.create, Disk.openAppend, locate_name (.inr rfl) walked]
  rfl

theorem appendTo_loggedBeside (new id : FileId) (contents : List Contents) (bytes : List UInt8) :
    ∃ contents', contents'.length = contents.length ∧
      (loggedBeside new id contents).appendTo new bytes = loggedBeside new id contents' :=
  ⟨_, List.length_set, rfl⟩

/-- The file that has been made takes the place of another one. -/
theorem rename_loggedBeside (apart : new ≠ id) :
    (loggedBeside new id contents).rename temporaryName logName = .ok (loggedIn new contents) := by
  have first : (loggedBeside new id contents).walk .entry Disk.maxLinks false
      Disk.workingDirectory [temporaryName] =
        .ok (.entry ⟨Disk.workingDirectory, temporaryName⟩ false) := by
    rw [Disk.walk]
    rfl
  have second : (loggedBeside new id contents).walk .entry Disk.maxLinks false
      Disk.workingDirectory [logName] = .ok (.entry ⟨Disk.workingDirectory, logName⟩ false) := by
    rw [Disk.walk]
    rfl
  have seen : (loggedBeside new id contents).look
      (.entry ⟨Disk.workingDirectory, temporaryName⟩ false) = .ok (some (.file new)) := rfl
  have there : (loggedBeside new id contents).look
      (.entry ⟨Disk.workingDirectory, logName⟩ false) = .ok (some (.file id)) := rfl
  have names : (⟨Disk.workingDirectory, temporaryName⟩ : Entry) ≠
      ⟨Disk.workingDirectory, logName⟩ := by decide
  have files : some (Node.file id) ≠ some (Node.file new) := fun same => apart (by cases same; rfl)
  rw [Disk.rename, locate_name (.inr rfl) first, locate_name (.inl rfl) second]
  simp only [bind, Except.bind, Disk.moveName, Bool.or_false, seen, there]
  rw [if_neg (not_or.mpr ⟨names, fun both => files both.2⟩)]
  rfl

theorem replaceWith_loggedIn (held : id < contents.length) (kept : List Point) : ∃ store' d',
    replaceWith (fun _ => none) ⟨logName, handle⟩ kept (loggedIn id contents) =
      (.ok store', d') ∧ IsAlone store' d' := by
  have named : Path.withExtension logName "jsonl.tmp" = temporaryName := by decide +kernel
  obtain ⟨empty, longer, created⟩ := create_loggedIn id contents
  obtain ⟨full, same, written⟩ :=
    appendTo_loggedBeside contents.length id empty (kept.flatMap rowOf)
  have renamed : (loggedBeside contents.length id full).rename temporaryName logName =
      .ok (loggedIn contents.length full) := rename_loggedBeside (Nat.ne_of_gt held)
  refine ⟨⟨logName, contents.length⟩, loggedIn contents.length full, ?_, _, _, _, rfl, rfl, ?_⟩
  · simp only [replaceWith, unlessRefused, named, created, Disk.writeTo_accepted fun _ => rfl,
      written, renamed, openAppend_loggedIn]
  · exact Nat.lt_of_lt_of_eq (Nat.lt_succ_self _) (longer.symm.trans same.symm)

theorem isAlone_diskWith (bytes : List UInt8) : IsAlone ⟨logName, 0⟩ (diskWith bytes) :=
  ⟨0, 0, [[bytes]], rfl, rfl, Nat.zero_lt_one⟩

theorem points_diskWith {bytes : List UInt8} (clean : IsText bytes) :
    Store.points ⟨logName, 0⟩ (diskWith bytes) = .ok (readable bytes) := by
  have isOpen := isOpen_of_open? (isSound_diskWith bytes) (open?_diskWith bytes)
  rw [isOpen.points_eq, bytes_diskWith, pointsOf_eq, if_pos clean]

theorem IsAlone.record (alone : store.IsAlone d) (p : Point) :
    store.IsAlone (store.record d p) := by
  obtain ⟨handle, id, contents, rfl, rfl, held⟩ := alone
  exact ⟨handle, id, _, rfl, rfl, Nat.lt_of_lt_of_eq held List.length_set.symm⟩

theorem IsAlone.cleanup (alone : store.IsAlone d) {points : List Point}
    (read : store.points d = .ok points) (cut : cutoff? now retention = .ok cutoff) :
    ∃ removed store' d', store.cleanup d now retention = .ok ⟨.ok removed, store', d'⟩ ∧
      store'.IsAlone d' := by
  rw [cleanup_eq, cut, read, Except.map, cleanedUp]
  split
  · exact ⟨0, store, d, rfl, alone⟩
  · obtain ⟨handle, id, contents, rfl, rfl, held⟩ := alone
    obtain ⟨store', d', replaced, alone⟩ := replaceWith_loggedIn held (after cutoff points)
    rw [replaced]
    exact ⟨_, store', d', rfl, alone⟩

end Alone

end Store

end ChassisCooling.History
