import ChassisCooling.Files.Disk
import ChassisCooling.Fault
import ChassisCooling.Server.Listener

/-! # Links to a daemon

A link carries lines to a daemon and bytes back. What the daemon does with a line is its own
affair; a client sees the bytes that come back, and whether the daemon has hung up.
-/

namespace ChassisCooling.Client

open Files

/-- What a daemon does with a line: the bytes that it sends back, and whether it then hangs up. -/
structure Reply where
  bytes : List UInt8
  hangsUp : Bool

/-- A daemon, as a function of the line and of its own state. -/
abbrev Peer (π : Type) := List UInt8 → π → Reply × π

/-- One end of a connection: the bytes that came and are not read yet, and whether the other end has
hung up. -/
structure Link where
  unread : List UInt8
  hungUp : Bool
deriving Repr

namespace Link

/-- A new connection. -/
def fresh : Link :=
  ⟨[], false⟩

/-- The greatest size of a response line in bytes. -/
def maxResponse : Nat := 4194304

/-- Sends a line. -/
def send {π : Type} (peer : Peer π) (link : Link) (line : List UInt8) (p : π) :
    Except Fault Link × π :=
  if link.hungUp then (.error (.sending s!"write failed: {Cause.brokenPipe.message}"), p)
  else
    let (reply, p) := peer line p
    (.ok ⟨link.unread ++ reply.bytes, reply.hangsUp⟩, p)

/-- The bytes up to the first line feed and including it, but at most `limit` of them, and those
after them. -/
def takeLine (limit : Nat) (bytes : List UInt8) : List UInt8 × List UInt8 :=
  let front := bytes.take limit
  let line := front.takeWhile fun b => b != 0x0A
  let size := if line.length < front.length then line.length + 1 else line.length
  (bytes.take size, bytes.drop size)

/-- A line is unfinished: it neither ends in a line feed nor has the greatest size. -/
def isUnfinished (line : List UInt8) : Bool :=
  line.length ≤ maxResponse && line.getLast? != some 0x0A

/-- Reads a line. At the end of the connection what is left counts as one. When the daemon sends no
line and does not hang up, the wait ends after a while. -/
def receive (link : Link) : Except Fault (List UInt8) × Link :=
  let (line, rest) := takeLine (maxResponse + 1) link.unread
  if isUnfinished line && !link.hungUp then
    (.error (.sending "read failed: Resource temporarily unavailable (os error 11)"),
      { link with unread := rest })
  else if line.isEmpty then (.error (.response "Daemon closed the connection"), link)
  else if maxResponse < line.length then
    (.error (.tooLarge line.length maxResponse), { link with unread := rest })
  else (.ok line, { link with unread := rest })

end Link

/-- Whether a socket at a path can be reached, given where daemons listen. -/
def reach (d : Disk) (listens : Path → Bool) (path : Path) : Except Cause Unit := do
  if path.toList.isEmpty then .error .invalidArgument
  else
    Server.checkSocketPath path
    match ← d.lookup path with
    | .socket => if listens path then .ok () else .error .connectionRefused
    | _ => .error .connectionRefused

/-- The failure to connect to a daemon. -/
def unreachable (path : Path) (cause : Cause) : Fault :=
  .connection s!"Failed to connect to daemon at {path}: {cause.message}"

end ChassisCooling.Client
