import ChassisCooling.Cause
import ChassisCooling.Files.Path
import ChassisCooling.Text.Utf8

/-! # Disks

A name in a directory stands for a node. Directories and files have numbers: a path leads from
directory to directory, and what a file holds is kept apart from its names, since an open file goes
on to exist after its name has been given to another file or to none.
-/

namespace ChassisCooling.Files

/-- The number of a directory. -/
abbrev DirectoryId := Nat

/-- The number of a file, which it keeps whatever its name. -/
abbrev FileId := Nat

/-- A name in a directory. -/
structure Entry where
  directory : DirectoryId
  name : String
deriving DecidableEq, Repr

/-- What a name can stand for. -/
inductive Node where
  | file (id : FileId)
  | directory (id : DirectoryId)
  | symlink (target : Path)
  | socket
deriving DecidableEq, Repr

/-- The node is a file, which another name may stand for as well. -/
def Node.isFile : Node → Bool
  | .file _ => true
  | .directory _ | .symlink _ | .socket => false

/-- What has been written to a file, piece by piece, newest first. -/
abbrev Contents := List (List UInt8)

/-- The nodes of a disk by their names, the directories that its directories lie in, and the contents
of its files by their numbers. -/
structure Disk where
  nodes : List (Entry × Node)
  aboves : List DirectoryId
  contents : List Contents
deriving Repr

/-- The result of an operation, unless the system refuses it for a reason of its own. -/
def unlessRefused {α : Type} (refusal : Option Cause) (result : Except Cause α) : Except Cause α :=
  match refusal with
  | some cause => .error cause
  | none => result

/-- The first byte of a text that the system refuses to write, and why. -/
def refusedByte? (refusal : Nat → Option Cause) (size : Nat) : Option (Nat × Cause) :=
  (List.range size).findSome? fun index => (refusal index).map fun cause => (index, cause)

namespace Disk

/-- The directory where absolute paths begin. -/
def root : DirectoryId := 0

/-- The directory where all other paths begin. -/
def workingDirectory : DirectoryId := 1

/-- A disk without files. The root lies in itself, and the working directory in the root. -/
def empty : Disk :=
  ⟨[], [root, root], []⟩

/-- The directory that a directory lies in. -/
def above (d : Disk) (id : DirectoryId) : DirectoryId :=
  d.aboves[id]?.getD root

/-- What a name stands for. -/
def node? (d : Disk) (e : Entry) : Option Node :=
  (d.nodes.find? fun named => named.1 == e).map Prod.snd

/-- Lets a name stand for a node, in place of what it stands for. -/
def put (d : Disk) (e : Entry) (node : Node) : Disk :=
  { d with nodes := (e, node) :: d.nodes.filter fun named => named.1 != e }

/-- Takes away a name. -/
def remove (d : Disk) (e : Entry) : Disk :=
  { d with nodes := d.nodes.filter fun named => named.1 != e }

/-- What has been written to a file. -/
def written (d : Disk) (id : FileId) : Contents :=
  d.contents[id]?.getD []

/-- The bytes of a file. -/
def bytes (d : Disk) (id : FileId) : List UInt8 :=
  (d.written id).reverse.flatten

/-- Takes away all bytes of a file. -/
def clear (d : Disk) (id : FileId) : Disk :=
  { d with contents := d.contents.set id [] }

/-- Writes bytes at the end of a file. -/
def appendTo (d : Disk) (id : FileId) (bytes : List UInt8) : Disk :=
  { d with contents := d.contents.set id (bytes :: d.written id) }

/-- Writes bytes at the end of a file, up to the first that the system refuses. -/
def writeTo (refusal : Nat → Option Cause) (d : Disk) (id : FileId) (bytes : List UInt8) :
    Option Cause × Disk :=
  match refusedByte? refusal bytes.length with
  | some (index, cause) => (some cause, d.appendTo id (bytes.take index))
  | none => (none, d.appendTo id bytes)

/-- Puts a new, empty file under a name. -/
def newFile (d : Disk) (e : Entry) : FileId × Disk :=
  (d.contents.length, { d.put e (.file d.contents.length) with contents := d.contents ++ [[]] })

/-- Puts a new, empty directory under a name. -/
def newDirectory (d : Disk) (e : Entry) : Disk :=
  { d.put e (.directory d.aboves.length) with aboves := d.aboves ++ [e.directory] }

/-! ## Finding places -/

/-- The most symbolic links that are followed for one path. -/
def maxLinks : Nat := 40

/-- The greatest size of a name in bytes. -/
def maxName : Nat := 255

/-- The size in bytes from which a path is too long. -/
def maxPath : Nat := 4096

/-- How far a path is followed. -/
inductive Approach where
  /-- To its last name, whatever that stands for: it is to be made, moved or removed. -/
  | entry
  /-- To what its last name stands for. A link is followed if a slash asks for a directory. -/
  | itself
  /-- To what its last name stands for. A link is followed. -/
  | target
  /-- As far as `target`, where a file is to be made if nothing is there. A slash is refused, for it
  asks for a directory. -/
  | file
deriving DecidableEq, Repr

/-- A link that is the last name of a path is followed. -/
def Approach.followsLast (approach : Approach) (slash : Bool) : Bool :=
  match approach with
  | .entry => false
  | .itself => slash
  | .target | .file => true

/-- Where a path leads. -/
inductive Place where
  /-- To a directory, by dots or because it is where the path begins. -/
  | directory (id : DirectoryId)
  /-- To a name. A slash after it asks for a directory. -/
  | entry (e : Entry) (slash : Bool)
deriving DecidableEq, Repr

/-- What is at a place. A name that is too long cannot even be looked for. -/
def look (d : Disk) (place : Place) : Except Cause (Option Node) :=
  match place with
  | .directory id => .ok (some (.directory id))
  | .entry e _ =>
    if maxName < (Text.Utf8.encodeString e.name).length then .error .nameTooLong
    else .ok (d.node? e)

/-- The directory where a path begins. -/
def startOf (path : Path) (here : DirectoryId) : DirectoryId :=
  if Path.isAbsolute path then root else here

/-- The place that some names lead to from a directory. All of them but the last have to lead to
directories. `slash` says that a slash follows the last. -/
def walk (d : Disk) (approach : Approach) (links : Nat) (slash : Bool) (here : DirectoryId)
    (names : List String) : Except Cause Place :=
  match names with
  | [] => .ok (.directory here)
  | name :: rest =>
    let last := rest.isEmpty
    let place := Place.entry ⟨here, name⟩ slash
    if name == "." then d.walk approach links slash here rest
    else if name == ".." then d.walk approach links slash (d.above here) rest
    else if last && approach == .entry then .ok place
    else if last && approach == .file && slash then .error .isDirectory
    else match d.look place with
    | .error cause => .error cause
    | .ok (some (.symlink target)) =>
      if last && !approach.followsLast slash then .ok place
      else match links with
        | 0 => .error .tooManyLinks
        | links + 1 =>
          let slash := slash || last && Path.endsInSlash target
          d.walk approach links slash (startOf target here) (Path.names target ++ rest)
    | .ok found =>
      if last then .ok place
      else match found with
      | some (.directory id) => d.walk approach links slash id rest
      | some _ => .error .notDirectory
      | none => .error .noEntry
termination_by (links, names.length)

/-- The place that a path leads to. -/
def locate (d : Disk) (approach : Approach) (path : Path) : Except Cause Place :=
  if path.toList.isEmpty then .error .noEntry
  else if path.toList.contains '\x00' then
    .error (.other "file name contained an unexpected NUL byte")
  else if maxPath ≤ (Text.Utf8.encodeString path).length then .error .nameTooLong
  else
    let start := startOf path workingDirectory
    d.walk approach maxLinks (Path.endsInSlash path) start (Path.names path)

/-- What a path leads to. -/
def find (d : Disk) (approach : Approach) (path : Path) : Except Cause Node := do
  let place ← d.locate approach path
  match place, ← d.look place with
  | _, none => .error .noEntry
  | _, some (.directory id) => .ok (.directory id)
  | .entry _ true, some _ => .error .notDirectory
  | _, some node => .ok node

/-- What a path leads to, links included. -/
def lookup (d : Disk) (path : Path) : Except Cause Node :=
  d.find .target path

/-- Something is there. -/
def present (d : Disk) (path : Path) : Bool :=
  (d.lookup path).toOption.isSome

/-- The path leads to a directory. -/
def isDirectory (d : Disk) (path : Path) : Bool :=
  match d.lookup path with
  | .ok (.directory _) => true
  | _ => false

/-- The path itself is a symbolic link. -/
def isSymlink (d : Disk) (path : Path) : Bool :=
  match d.find .itself path with
  | .ok (.symlink _) => true
  | _ => false

/-- Something is there, even if it is a link to nothing. -/
def presentItself (d : Disk) (path : Path) : Bool :=
  (d.find .itself path).toOption.isSome

/-! ## Files -/

/-- The reason against opening what is neither a file nor a directory. -/
def noDevice : Cause :=
  .other "No such device or address (os error 6)"

/-- The bytes at a path. A directory can be opened but not read; `opening` says what becomes of a
failure to open, `reading` of a failure to read. -/
def read {ε : Type} (d : Disk) (path : Path) (opening reading : Cause → ε) :
    Except ε (List UInt8) :=
  match d.lookup path with
  | .ok (.file id) => .ok (d.bytes id)
  | .ok (.directory _) => .error (reading .isDirectory)
  | .ok _ => .error (opening noDevice)
  | .error cause => .error (opening cause)

/-- Opens a file to write at its end, and makes it when it is not there. -/
def openAppend (d : Disk) (path : Path) : Except Cause (FileId × Disk) := do
  let place ← d.locate .file path
  match place, ← d.look place with
  | .entry e _, none => .ok (d.newFile e)
  | _, some (.file id) => .ok (id, d)
  | _, some (.directory _) => .error .isDirectory
  | _, _ => .error noDevice

/-- Opens a file to write it anew, and makes it when it is not there. -/
def create (d : Disk) (path : Path) : Except Cause (FileId × Disk) := do
  let (id, d) ← d.openAppend path
  .ok (id, d.clear id)

/-! ## Names -/

/-- The name of something that is to be made. It must not stand for anything yet, and a slash after
it is for directories. -/
def vacancy (d : Disk) (path : Path) (isDirectory : Bool) : Except Cause Entry := do
  let place ← d.locate .entry path
  match place, ← d.look place with
  | .entry e slash, none => if slash && !isDirectory then .error .noEntry else .ok e
  | _, _ => .error .entryExists

/-- Makes a symbolic link. -/
def makeLink (d : Disk) (target path : Path) : Except Cause Disk :=
  if target.toList.isEmpty then .error .noEntry
  else (d.vacancy path false).map fun e => d.put e (.symlink target)

/-- Gives what has a name another name, in place of what has that one. Directories stay where they
are, and so does a file that has both names. `slash` says that a slash follows one of the names. -/
def moveName (d : Disk) (old new : Entry) (slash : Bool) : Except Cause Disk := do
  match ← d.look (.entry old slash) with
  | none => .error .noEntry
  | some (.directory _) => .error .busy
  | some node =>
    match slash, ← d.look (.entry new slash) with
    | true, _ => .error .notDirectory
    | false, some (.directory _) => .error .isDirectory
    | false, there =>
      .ok (if old = new ∨ node.isFile ∧ there = some node then d else (d.remove old).put new node)

/-- Gives a file, a socket or a link another path, in place of what has that one. -/
def rename (d : Disk) (source target : Path) : Except Cause Disk := do
  match ← d.locate .entry source, ← d.locate .entry target with
  | .entry old oldSlash, .entry new newSlash => d.moveName old new (oldSlash || newSlash)
  | _, _ => .error .busy

/-- Removes a file, a socket or a link. -/
def unlink (d : Disk) (path : Path) : Except Cause Disk := do
  let place ← d.locate .entry path
  match place, ← d.look place with
  | _, none => .error .noEntry
  | .directory _, some _ | _, some (.directory _) => .error .isDirectory
  | .entry _ true, some _ => .error .notDirectory
  | .entry e false, some _ => .ok (d.remove e)

/-! ## Directories -/

/-- Makes one directory. -/
def makeDirectory (d : Disk) (path : Path) : Except Cause Disk :=
  (d.vacancy path true).map d.newDirectory

/-- Makes one directory, unless it is there. `refusal` says which directories the system refuses to
make for reasons of its own. -/
def ensureDirectoryWith (refusal : Path → Option Cause) (d : Disk) (path : Path) :
    Except Cause Unit × Disk :=
  match unlessRefused (refusal path) (d.makeDirectory path) with
  | .ok made => (.ok (), made)
  | .error cause => (if d.isDirectory path then .ok () else .error cause, d)

/-- Makes a directory and those above it, as far as they are missing. Those that were made before one
that cannot be made stay. The fuel bounds how many. -/
def ensureDirectoriesWith (refusal : Path → Option Cause) (d : Disk) :
    Nat → Path → Except Cause Unit × Disk
  | 0, _ => (.error .noEntry, d)
  | fuel + 1, path =>
    if path.toList.isEmpty then (.ok (), d)
    else match unlessRefused (refusal path) (d.makeDirectory path), Path.parent? path with
      | .error .noEntry, some parent =>
        match d.ensureDirectoriesWith refusal fuel parent with
        | (.error cause, above) => (.error cause, above)
        | (.ok (), above) => above.ensureDirectoryWith refusal path
      | _, _ => d.ensureDirectoryWith refusal path

/-- Makes a directory and those above it, as far as they are missing. -/
def ensurePathWith (refusal : Path → Option Cause) (d : Disk) (path : Path) :
    Except Cause Unit × Disk :=
  d.ensureDirectoriesWith refusal (path.length + 1) path

/-- Makes a directory and those above it, as far as they are missing. -/
def ensurePath (d : Disk) (path : Path) : Except Cause Disk :=
  let (result, made) := d.ensurePathWith (fun _ => none) path
  result.map fun _ => made

end Disk

end ChassisCooling.Files
