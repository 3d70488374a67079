import ChassisCooling.Calendar.Clock
import ChassisCooling.Fault
import ChassisCooling.Files.Disk
import ChassisCooling.History.Point
import ChassisCooling.Json.Reader
import ChassisCooling.Json.Writer
import ChassisCooling.Text.Blank
import ChassisCooling.Text.Lines

/-! # The history on disk

One point on a line, added at the end of a file. A query reads the whole file; what is not a point
is passed over. Times are those of the system's clock. A cleanup writes the points that are kept
beside the file, moves them into its place, and opens it again.
-/

namespace ChassisCooling.History

open Calendar Files

/-- A history in a file that is open for writing at its end. -/
structure Store where
  path : Path
  handle : FileId
deriving Repr

/-- A history could not be opened for writing. -/
def cannotOpen (path : Path) (cause : Cause) : Fault :=
  .store s!"cannot open {path}: {cause.message}"

namespace Store

/-- Opens the history at a path; its directory is made if it is missing. -/
def open? (d : Disk) (path : Path) : Except Fault (Store × Disk) := do
  let d ← match Path.parent? path with
    | none => .ok d
    | some parent => (d.ensurePath parent).mapError (Fault.fileWrite parent)
  let (handle, d) ← (d.openAppend path).mapError (cannotOpen path)
  .ok (⟨path, handle⟩, d)

/-- The line of a point, with its end. -/
def rowOf (p : Point) : List UInt8 :=
  Text.Utf8.encode (p.toJson.compact ++ ['\n'])

/-- Adds a point. -/
def record (store : Store) (d : Disk) (p : Point) : Disk :=
  d.appendTo store.handle (rowOf p)

/-- Adds a point for the time that the system's clock shows. -/
def recordReading (store : Store) (d : Disk) (now : Instant) (cpu gpu : Int32) (speed : UInt8) :
    Except OutOfCalendar Disk := do
  pure (store.record d ⟨← Clock.system.read now, cpu, gpu, speed⟩)

/-- The point on a line, if there is one. -/
def pointOf? (line : List Char) : Option Point :=
  if line.all Text.isBlank then none else (Json.read? line).bind Point.ofJson?

/-- The points in the bytes of a history. Bytes that are no text spoil all of it. -/
def pointsOf (bytes : List UInt8) : Except Fault (List Point) :=
  match (Text.byteLines bytes).mapM Text.Utf8.decode? with
  | none => .error (.system .notUtf8)
  | some lines => .ok (lines.filterMap pointOf?)

/-- The points that the path leads to, in the order of the file. -/
def points (store : Store) (d : Disk) : Except Fault (List Point) := do
  pointsOf (← d.read store.path (Fault.fileRead store.path) Fault.system)

/-- The points after a time. -/
def after (cutoff : Instant) (points : List Point) : List Point :=
  points.filter fun p => cutoff < p.timestamp

/-- Points in the order of their times; of equal times the earlier in the list is first. -/
def inOrder (points : List Point) : List Point :=
  points.mergeSort fun p q => decide (p.timestamp ≤ q.timestamp)

/-- The points of the last `window`, oldest first. -/
def history (store : Store) (d : Disk) (now : Instant) (window : Span) :
    Except OutOfCalendar (Except Fault (List Point)) := do
  let cutoff ← (← Clock.system.read now).sub window
  pure ((store.points d).map fun points => inOrder (after cutoff points))

/-! ## Cleaning up -/

/-- The steps of a cleanup, each of which the system may refuse. -/
inductive CleanupStep where
  | read
  | create
  /-- Writing the byte at a place of the kept rows, after those before it have been written. -/
  | write (index : Nat)
  | sync
  | rename
  | reopen
deriving DecidableEq, Repr

/-- Writes the rows of the kept points beside the file and moves them into its place. Whatever was
done before a step that fails stays done. -/
def replaceWith (refusal : CleanupStep → Option Cause) (store : Store) (kept : List Point)
    (d : Disk) : Except Fault Store × Disk :=
  let temporary := Path.withExtension store.path "jsonl.tmp"
  match unlessRefused (refusal .create) (d.create temporary) with
  | .error cause => (.error (.fileWrite temporary cause), d)
  | .ok (id, d) =>
    match d.writeTo (fun index => refusal (.write index)) id (kept.flatMap rowOf) with
    | (some cause, d) => (.error (.fileWrite temporary cause), d)
    | (none, d) =>
      match refusal .sync with
      | some cause => (.error (.fileWrite temporary cause), d)
      | none =>
        match unlessRefused (refusal .rename) (d.rename temporary store.path) with
        | .error cause => (.error (.fileWrite store.path cause), d)
        | .ok d =>
          match unlessRefused (refusal .reopen) (d.openAppend store.path) with
          | .error cause => (.error (cannotOpen store.path cause), d)
          | .ok (handle, d) => (.ok { store with handle }, d)

/-- What a cleanup leaves: how many points it removed or why it failed, the store and the disk. -/
structure Cleaned where
  removed : Except Fault Nat
  store : Store
  disk : Disk

/-- Removes the points that are no younger than the retention. `refusal` says which steps the
system refuses for reasons of its own. -/
def cleanupWith (refusal : CleanupStep → Option Cause) (store : Store) (d : Disk) (now : Instant)
    (retention : Span) : Except OutOfCalendar Cleaned := do
  let cutoff ← (← Clock.system.read now).sub retention
  let read : Except Fault (List Point) := match refusal .read with
    | some cause => .error (Fault.fileRead store.path cause)
    | none => store.points d
  match read with
  | .error fault => pure ⟨.error fault, store, d⟩
  | .ok points =>
    let kept := after cutoff points
    let removed := points.length - kept.length
    if removed = 0 then pure ⟨.ok 0, store, d⟩
    else match replaceWith refusal store kept d with
      | (.error fault, d) => pure ⟨.error fault, store, d⟩
      | (.ok store, d) => pure ⟨.ok removed, store, d⟩

/-- Removes the points that are no younger than the retention. -/
def cleanup (store : Store) (d : Disk) (now : Instant) (retention : Span) :
    Except OutOfCalendar Cleaned :=
  cleanupWith (fun _ => none) store d now retention

end Store

end ChassisCooling.History
