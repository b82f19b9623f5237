/-!
# Defects of a configuration

Why a configuration is not valid, or a board diff does not apply. `ConfigError.message` words them.
-/

namespace RobotHost

/-- What hangs on a board's pins. -/
inductive PinKind where
  | analog
  | interrupt
deriving DecidableEq, Repr

/-- What a board diff wants to do to an entry that is there already. -/
inductive PinChange where
  | removed
  | modified
deriving DecidableEq, Repr

/-- Why a board diff does not apply. -/
inductive BoardDiffFault where
  /-- An entry that should be removed or modified is not there. -/
  | absent (change : PinChange) (kind : PinKind) (name : String)
  /-- An entry that should be added is there already. -/
  | present (kind : PinKind) (name : String)
deriving DecidableEq, Repr

inductive ConfigError where
  /-- A required text is empty. -/
  | fieldRequired (path : String) (field : String)
  /-- A name stands twice among the analog readers and interrupts of a board. -/
  | repeatedPinName (path : String) (name : String)
  | duplicateName (name : String)
  | missingDependency (component : String) (dependency : String)
  | circularDependency (cycle : List String)
  | boardDiff (board : String) (fault : BoardDiffFault)
deriving DecidableEq, Repr

def PinKind.text : PinKind → String
  | .analog => "analog"
  | .interrupt => "digital interrupt"

def PinChange.text : PinChange → String
  | .removed => "removed"
  | .modified => "modified"

/-- A text between double quotes, as it stands. -/
def quoted (s : String) : String := "\"" ++ s ++ "\""

def BoardDiffFault.message : BoardDiffFault → String
  | .absent change kind name =>
    change.text ++ " " ++ kind.text ++ " " ++ quoted name ++ " does not exist"
  | .present kind name => "added " ++ kind.text ++ " " ++ quoted name ++ " already exists"

/-- The path under which a component is named in messages. -/
def componentPath (name : String) : String := "components." ++ name

def ConfigError.message : ConfigError → String
  | .fieldRequired path field =>
    "error validating " ++ quoted path ++ ": " ++ quoted field ++ " is required"
  | .repeatedPinName path name =>
    "error validating " ++ quoted path ++ ": sub-resource name " ++ quoted name ++ " is not unique"
  | .duplicateName name => "component name " ++ quoted name ++ " is not unique"
  | .missingDependency component dependency =>
    "error validating " ++ quoted (componentPath component) ++ ": dependency " ++ quoted dependency
      ++ " does not exist"
  | .circularDependency cycle =>
    "circular dependency detected in component list between " ++ String.intercalate ", " cycle
  | .boardDiff board fault => "board diff for " ++ quoted board ++ ": " ++ fault.message

end RobotHost
