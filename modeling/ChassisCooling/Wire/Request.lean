import ChassisCooling.Text.Blank
import ChassisCooling.Text.Utf8

/-! # Requests

What a client may ask of the daemon, and which requests are refused before they reach the
controller.
-/

namespace ChassisCooling.Wire

/-- A request to the daemon. -/
inductive Request where
  | ping
  | version
  | getStatus
  /-- The last so many seconds of the history. -/
  | getHistory (duration : UInt64)
  /-- A hint lasts so many seconds, and with 0 until it is withdrawn. The action `stop`, in any
  case of its letters, withdraws the hint of the source. -/
  | addHint (kind action intensity : String) (duration : Int64) (source : String)
  | removeHint (source : String)
  /-- An override lasts so many seconds, and with 0 until it is cleared. -/
  | setOverride (speed duration : Int64) (reason : String)
  | clearOverride
  | getConfig
deriving DecidableEq, Repr

namespace Request

/-- The name of a request on the wire. -/
def name : Request → String
  | ping => "Ping"
  | version => "Version"
  | getStatus => "GetStatus"
  | getHistory .. => "GetHistory"
  | addHint .. => "AddHint"
  | removeHint .. => "RemoveHint"
  | setOverride .. => "SetOverride"
  | clearOverride => "ClearOverride"
  | getConfig => "GetConfig"

/-- The request may change the state of the controller. -/
def isMutating : Request → Bool
  | addHint .. | removeHint .. | setOverride .. | clearOverride => true
  | _ => false

end Request

/-! ## Limits -/

/-- The greatest size of a label, in bytes. -/
def maxLabelSize : Nat := 128

/-- The greatest size of the reason of an override, in bytes. -/
def maxReasonSize : Nat := 256

/-- The longest time that a hint or an override may be asked for: one week, in seconds. -/
def maxDuration : Int := 604800

/-- Why a request is refused. -/
inductive Refusal where
  | emptyHistory
  | labelMissing (field : String)
  | labelTooLong (field : String) (size : Nat)
  | labelHasControl (field : String)
  | speedOutOfRange (speed : Int)
  | negativeDuration
  | durationTooLong (seconds : Int)
  | reasonTooLong (size : Nat)
deriving DecidableEq, Repr

namespace Refusal

def message : Refusal → String
  | emptyHistory => "History duration must be positive"
  | labelMissing field => s!"{field} is required"
  | labelTooLong field size => s!"{field} too long: {size} > {maxLabelSize} chars"
  | labelHasControl field => s!"{field} contains control characters"
  | speedOutOfRange speed => s!"Invalid speed {speed} (must be 0-100)"
  | negativeDuration => "Duration cannot be negative"
  | durationTooLong seconds =>
    s!"Duration too long: {seconds}s (max {maxDuration}s, use 0 for no expiry)"
  | reasonTooLong size => s!"reason too long: {size} > {maxReasonSize} chars"

end Refusal

/-- The number of bytes of a text. -/
def byteSize (text : String) : Nat :=
  (Text.Utf8.encodeString text).length

/-- A label that has to be given is not blank, and every label is short and free of control
characters. -/
def checkLabel (field value : String) (required : Bool) : Except Refusal Unit :=
  if required && value.toList.all Text.isBlank then .error (.labelMissing field)
  else if maxLabelSize < byteSize value then .error (.labelTooLong field (byteSize value))
  else if value.toList.any Text.isControl then .error (.labelHasControl field)
  else .ok ()

/-- A speed is a percentage. -/
def checkSpeed (speed : Int) : Except Refusal Unit :=
  if 0 ≤ speed ∧ speed ≤ 100 then .ok () else .error (.speedOutOfRange speed)

/-- A duration is not negative and at most a week. -/
def checkDuration (seconds : Int) : Except Refusal Unit :=
  if seconds < 0 then .error .negativeDuration
  else if maxDuration < seconds then .error (.durationTooLong seconds)
  else .ok ()

/-- A reason is short. -/
def checkReason (reason : String) : Except Refusal Unit :=
  if maxReasonSize < byteSize reason then .error (.reasonTooLong (byteSize reason)) else .ok ()

/-- The first reason to refuse a request, if there is one. -/
def Request.check : Request → Except Refusal Unit
  | getHistory duration => if duration = 0 then .error .emptyHistory else .ok ()
  | addHint kind action intensity duration source => do
    checkLabel "type" kind true
    checkLabel "action" action true
    checkLabel "source" source true
    checkLabel "intensity" intensity false
    checkDuration duration.toInt
  | removeHint source => checkLabel "source" source true
  | setOverride speed duration reason => do
    checkSpeed speed.toInt
    checkDuration duration.toInt
    checkReason reason
  | ping | version | getStatus | clearOverride | getConfig => .ok ()

end ChassisCooling.Wire
