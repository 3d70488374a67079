import ChassisCooling.Cause

/-! # What can go wrong

One type for the failures of hardware, files, requests and connections, each with its text.
-/

namespace ChassisCooling

/-- A failure that is reported to whoever asked for the operation. -/
inductive Fault where
  | system (cause : Cause)
  | fileRead (path : String) (cause : Cause)
  | fileWrite (path : String) (cause : Cause)
  | settings (text : String)
  /-- A text is no JSON document, or not one of the kind expected. -/
  | document
  | invalidSetting (field reason : String)
  | sensorRead (sensor reason : String)
  | toolFailed (program stderr : String)
  | toolNotStarted (program : String) (cause : Cause)
  | actuator (text : String)
  | store (text : String)
  | invalidSpeed (value : Int)
  | invalidRequest (text : String)
  | alreadyRunning
  | connection (text : String)
  | sending (text : String)
  | response (text : String)
  | tooLarge (size limit : Nat)
  | other (text : String)
  | timedOut (text : String)
deriving DecidableEq, Repr

namespace Fault

/-- The text of a failure. -/
def message : Fault → String
  | system cause => s!"I/O error: {cause.message}"
  | fileRead path cause => s!"Failed to read file {path}: {cause.message}"
  | fileWrite path cause => s!"Failed to write file {path}: {cause.message}"
  | settings text => s!"Configuration error: {text}"
  | document => "Failed to parse JSON"
  | invalidSetting field reason => s!"Invalid configuration value for {field}: {reason}"
  | sensorRead sensor reason => s!"Sensor read failed ({sensor}): {reason}"
  | toolFailed program stderr => s!"{program} exited with failure: {stderr}"
  | toolNotStarted program cause => s!"Failed to spawn {program}: {cause.message}"
  | actuator text => s!"Fan actuator error: {text}"
  | store text => s!"History store error: {text}"
  | invalidSpeed value => s!"Invalid fan speed: {value} (must be 0-100)"
  | invalidRequest text => s!"Invalid request: {text}"
  | alreadyRunning => "Controller is already running"
  | connection text => s!"Daemon connection failed: {text}"
  | sending text => s!"Daemon request failed: {text}"
  | response text => s!"Daemon response error: {text}"
  | tooLarge size limit => s!"Message too large: {size} bytes (max {limit} bytes)"
  | other text => text
  | timedOut text => s!"Operation timed out: {text}"

/-- The reason behind a failure, where its text names one of the system's. -/
def cause? : Fault → Option Cause
  | fileRead _ cause | fileWrite _ cause | toolNotStarted _ cause => some cause
  | _ => none

end Fault

end ChassisCooling
