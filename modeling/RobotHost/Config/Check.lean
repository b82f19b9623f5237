import RobotHost.Config.Error

/-!
# Checks

What the checks of all sections are made of: a text that must not be empty, a list whose elements
are checked in order, a name that must not come twice.
-/

namespace RobotHost

/-- Checks the elements of a list in order, each under its position in the list. -/
def checkEach {α : Type} (path : String) (check : String → α → Except ConfigError Unit)
    (index : Nat) : List α → Except ConfigError Unit
  | [] => .ok ()
  | x :: rest =>
    match check (path ++ "." ++ toString index) x with
    | .error e => .error e
    | .ok () => checkEach path check (index + 1) rest

/-- The first element that stood in the list before; `seen` holds the earlier ones. -/
def firstRepeated? (seen : List String) : List String → Option String
  | [] => none
  | x :: rest => if seen.contains x then some x else firstRepeated? (x :: seen) rest

/-- Checks that a text of an entry is not empty. -/
def checkFilled (path field text : String) : Except ConfigError Unit :=
  if text.isEmpty then .error (.fieldRequired path field) else .ok ()

end RobotHost
