import ChassisCooling.Files.Disk

/-! # Listening

The socket takes the place of a stale one, but never of a symbolic link.
-/

namespace ChassisCooling.Server

open Files

/-- Why a socket could not be made. -/
inductive ListenFault where
  | symlink (path : Path)
  | staleSocket (path : Path) (cause : Cause)
  | directory (path : Path) (cause : Cause)
  | binding (path : Path) (cause : Cause)
  | permissions (cause : Cause)
deriving DecidableEq, Repr

/-- What was tried, and why it failed. -/
def ListenFault.chain : ListenFault → List String
  | symlink path => [s!"Socket path {path} is a symlink - refusing for security"]
  | staleSocket path cause => [s!"removing stale socket {path}", cause.message]
  | directory path cause => [s!"creating socket directory {path}", cause.message]
  | binding path cause => [s!"binding {path}", cause.message]
  | permissions cause => [cause.message]

/-- The permissions of the socket: owner and group may read and write. -/
def socketMode : Nat := 0o660

/-- The size in bytes from which a path cannot name a socket. -/
def maxSocketPath : Nat := 108

/-- A path that can name a socket. -/
def checkSocketPath (path : Path) : Except Cause Unit :=
  if path.toList.contains '\x00' then
    .error (.other "paths must not contain interior null bytes")
  else if maxSocketPath ≤ (Text.Utf8.encodeString path).length then .error .socketPathTooLong
  else .ok ()

/-- Makes a socket at a path where nothing is. -/
def bind (d : Disk) (path : Path) : Except Cause Disk := do
  checkSocketPath path
  match d.vacancy path false with
  | .ok e => .ok (d.put e .socket)
  | .error .entryExists => .error (.other "Address already in use (os error 98)")
  | .error cause => .error cause

/-- Removes what is at a path, unless it is a link. -/
def clearPath (d : Disk) (path : Path) : Except ListenFault Disk :=
  if d.isSymlink path then .error (.symlink path)
  else if d.presentItself path then (d.unlink path).mapError (.staleSocket path)
  else .ok d

/-- Makes the directory of a path, if there has to be one. -/
def prepareDirectory (d : Disk) (path : Path) : Except ListenFault Disk :=
  match Path.parent? path with
  | none => .ok d
  | some parent =>
    if parent.toList.isEmpty || d.present parent then .ok d
    else (d.ensurePath parent).mapError (.directory parent)

/-- A socket that is to be on no disk: its name is empty, or begins with the character NUL. -/
def isUnlisted (path : Path) : Bool :=
  path.toList.head?.all fun c => c == '\x00'

/-- Why a socket on no disk fails. There is no file that could be given permissions. -/
def unlistedFault (path : Path) : ListenFault :=
  if path.toList.isEmpty then .permissions .noEntry
  else if maxSocketPath < (Text.Utf8.encodeString path).length then
    .binding path (.other "abstract socket name must be shorter than SUN_LEN")
  else .permissions (.other "file name contained an unexpected NUL byte")

/-- Makes the socket of a server. What was done before a step that fails stays done. -/
def listen (d : Disk) (path : Path) : Except ListenFault Unit × Disk :=
  match clearPath d path with
  | .error fault => (.error fault, d)
  | .ok d => match prepareDirectory d path with
    | .error fault => (.error fault, d)
    | .ok d =>
      if isUnlisted path then (.error (unlistedFault path), d)
      else match bind d path with
      | .error cause => (.error (.binding path cause), d)
      | .ok d => (.ok (), d)

/-- Removes the socket of a server that has stopped. -/
def unlisten (d : Disk) (path : Path) : Disk :=
  (d.unlink path).toOption.getD d

end ChassisCooling.Server
