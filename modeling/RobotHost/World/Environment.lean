import RobotHost.World.Basic

/-!
# Environments

What a robot needs from outside: a factory that makes drivers, a connector that reaches other
robots, and a host that runs programs. All three may answer differently as the world goes on.
-/

namespace RobotHost

/-- An order for a driver. -/
inductive Blueprint where
  | board (c : BoardConfig)
  | sensor (c : Component)
  | part (kind : PartKind) (c : Component)

namespace Blueprint

def kind : Blueprint → DriverKind
  | board _ => .board
  | sensor _ => .sensor
  | part kind _ => .part kind

def name : Blueprint → String
  | board c => c.name
  | sensor c | part _ c => c.name

end Blueprint

/-- What a factory delivers. -/
inductive Made where
  | fresh (d : Driver)
  /-- A driver that it delivered before. -/
  | existing (d : Ref .driver)

structure Environment where
  /-- Makes a driver, or says why it cannot. -/
  factory : World → Blueprint → Except String Made
  /-- Reaches the robot at an address, or says why it cannot. -/
  connector : World → (address : String) → Except String Connection
  host : Host

namespace Environment

/-- Asks the factory for a driver. -/
def construct (env : Environment) (b : Blueprint) : StateM World (Except String (Ref .driver)) := do
  match env.factory (← get) b with
  | .error cause =>
    World.note (.constructed b.kind b.name none)
    return .error cause
  | .ok made =>
    let d ←
      match made with
      | .fresh d => World.addDriver d
      | .existing d => pure d
    World.note (.constructed b.kind b.name (some d))
    return .ok d

/-- Asks the connector for a connection. -/
def connect (env : Environment) (address : String) : StateM World (Except String Connection) := do
  match env.connector (← get) address with
  | .error cause =>
    World.note (.connected address none)
    return .error cause
  | .ok c =>
    World.note (.connected address (some c))
    return .ok c

end Environment

end RobotHost
