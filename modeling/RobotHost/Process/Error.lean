import RobotHost.Config.Error

/-!
# Errors of processes

Why a process could not be started, stopped or taken under management.
-/

namespace RobotHost

inductive ProcessError where
  /-- The program could not be run at all. -/
  | spawn (id : String) (reason : String)
  /-- A program that runs once ended with an exit code other than zero. -/
  | exited (id : String) (code : Nat)
  /-- The running program could not be ended. -/
  | kill (id : String) (reason : String)
  | alreadyExists (id : String)
  /-- A service refused to start or to stop. -/
  | failed (id : String) (reason : String)
deriving DecidableEq, Repr

namespace ProcessError

def message : ProcessError → String
  | spawn id reason => "failed to spawn process " ++ quoted id ++ ": " ++ reason
  | exited id code =>
    "process " ++ quoted id ++ " exited unsuccessfully (exit status: " ++ toString code ++ ")"
  | kill id reason => "failed to stop process " ++ quoted id ++ ": " ++ reason
  | alreadyExists id => "process " ++ quoted id ++ " already exists"
  | failed id reason => "process " ++ quoted id ++ ": " ++ reason

/-- The message of all errors met while stopping processes. -/
def stopMessage (errors : List ProcessError) : String :=
  "error stopping processes: " ++ String.intercalate "; " (errors.map message)

end ProcessError

end RobotHost
