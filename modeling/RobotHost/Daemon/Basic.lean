import RobotHost.Config.Load
import RobotHost.Robot.Basic
import RobotHost.Simulated.Factory

/-!
# The daemon

The daemon loads a configuration from a file and checks it. It can stop there and print the build
order, or bring the robot up with simulated drivers and report its parts.
-/

namespace RobotHost.Daemon

/-- Why the daemon does not come up. -/
inductive Failure where
  /-- The file holds no configuration. -/
  | load (path : String) (e : LoadError)
  /-- The configuration is not valid, or its robot cannot be built. -/
  | robot (e : RobotError)

def Failure.message : Failure → String
  | load path _ => "failed to load " ++ path
  | robot e => e.message

/-- The configuration in a file; there is no content if it cannot be read. -/
def load (path : String) (content : Option ByteArray) : Except Failure Config :=
  let loaded :=
    match content with
    | some bytes => Config.ofFile path bytes
    | none => .error (.unreadable .missing)
  loaded.mapError (.load path)

/-- A configuration that was checked and put in build order. -/
def ready (c : Config) : Except Failure Config :=
  match c.ensure false with
  | (.error e, _) => .error (.robot (.config e))
  | (.ok (), c) => .ok c

/-! ## The build order -/

def boardLine (b : BoardConfig) : String := "  - " ++ b.name ++ " (board)"

def componentLine (c : Component) : String :=
  let line := "  - " ++ c.name ++ " (" ++ c.type.text ++ ")"
  if c.dependsOn.isEmpty then line else line ++ " after " ++ String.intercalate ", " c.dependsOn

/-- What is printed of a valid configuration. -/
def orderLines (c : Config) : List String :=
  "Configuration is valid. Build order:" :: c.boards.map boardLine ++ c.components.map componentLine

/-! ## The parts -/

/-- The names of one listing. -/
structure Listing where
  title : String
  names : List String
deriving DecidableEq, Repr

/-- The listings of a robot that are not empty. -/
def listings (g : Graph) (w : World) : List Listing :=
  let all := Kind.listed.map (fun k => ⟨k.plural, g.names w k⟩) ++ [⟨"functions", g.functionNames w⟩]
  all.filter fun l => !l.names.isEmpty

/-- Brings up the robot of a configuration, in a world of its own and with no other robot in reach.
The answer is the robot and its world. -/
def bringUp (host : Host) (c : Config) : Except Failure (LocalRobot × World) := do
  match LocalRobot.start (Simulated.environment host .empty) (← ready c) {} with
  | .ok robot w => .ok (robot, w)
  | .error e _ => .error (.robot e)

/-! ## Commands -/

/-- Checks a file. -/
def check (path : String) (content : Option ByteArray) : Except Failure (List String) := do
  return orderLines (← ready (← load path content))

/-- Brings up the robot of a file and lists its parts. -/
def run (host : Host) (path : String) (content : Option ByteArray) :
    Except Failure (List Listing) := do
  let (robot, w) ← bringUp host (← load path content)
  return listings robot.graph w

end RobotHost.Daemon
