import RobotHost.Driver.Kind
import RobotHost.Process.Error

/-!
# Errors of robots

Why the parts of a robot could not be built, exchanged or closed.
-/

namespace RobotHost

/-- One thing that did not close well. -/
inductive CloseFailure where
  /-- Processes did not stop. -/
  | processes (errors : List ProcessError)
  /-- A driver reported a fault. -/
  | driver (kind : DriverKind) (name : String) (fault : String)
  /-- The robot behind a remote did not close all of its own. -/
  | remote (name : String) (failures : List CloseFailure)

inductive RobotError where
  | config (e : ConfigError)
  | missingSubtype (sensor : String)
  /-- A component is of a type that names no kind of part. -/
  | unknownComponentType (component : String) (type : String)
  /-- The factory could not make a driver. -/
  | construct (kind : DriverKind) (name : String) (cause : String)
  /-- The connector could not reach an address. -/
  | remoteConnect (address : String) (cause : String)
  | process (e : ProcessError)
  /-- A sensor was to be exchanged for one of another capability. -/
  | sensorKindMismatch (name : String) (existing replacement : Capability)
  /-- A process that was handed over met another of its id. -/
  | unexpectedProcessReplacement (id : String)
  | close (failures : List CloseFailure)

namespace CloseFailure

/-- What did not close well. -/
def target : CloseFailure → String
  | processes _ => "process manager"
  | driver kind name _ => kind.text ++ " " ++ quoted name
  | remote name _ => "remote " ++ quoted name

mutual

/-- Why it did not close well. -/
def cause : CloseFailure → String
  | processes errors => ProcessError.stopMessage errors
  | driver _ _ fault => fault
  | remote _ failures => String.intercalate "; " (reports failures)

/-- A line for each failure. -/
def reports : List CloseFailure → List String
  | [] => []
  | f :: rest => ("error closing " ++ f.target ++ ": " ++ f.cause) :: reports rest

end

/-- The message of all failures met while closing. -/
def message (failures : List CloseFailure) : String := String.intercalate "; " (reports failures)

end CloseFailure

def RobotError.message : RobotError → String
  | config e => e.message
  | missingSubtype sensor => "sensor component " ++ quoted sensor ++ " requires a subtype"
  | unknownComponentType component type =>
    "unknown component type: " ++ type ++ " (component " ++ quoted component ++ ")"
  | construct kind name cause =>
    "failed to create " ++ kind.text ++ " " ++ quoted name ++ ": " ++ cause
  | remoteConnect address cause =>
    "couldn't connect to robot remote (" ++ address ++ "): " ++ cause
  | process e => e.message
  | sensorKindMismatch name existing replacement =>
    "cannot replace " ++ existing.text ++ " " ++ quoted name ++ " with a " ++ replacement.text
  | unexpectedProcessReplacement id => "unexpected process replacement " ++ quoted id
  | close failures => CloseFailure.message failures

end RobotHost
