import RobotHost.Graph.Build
import RobotHost.Graph.Lookup

/-!
# Selecting parts

Selecting takes from a graph the parts that a configuration names, as a graph of its own. Drivers
get new handles there, and are found as they are by name, so in remotes too; remotes and processes
are shared. Names that do not run are passed over.
-/

namespace RobotHost

namespace Graph

/-- Selects a process. -/
def selectProcess (h : Host) (g : Graph) (id : String) : Build Unit :=
  match g.manager.get? id with
  | some p => do let _ ← Build.addProcess h p false
  | none => return ()

/-- Selects a remote. -/
def selectRemote (g : Graph) (name : String) : Build Unit :=
  match g.remotes.get? name with
  | some h => Build.addRemote h
  | none => return ()

/-- Selects a driver. -/
def selectDriver (g : Graph) (k : DriverKind) (name : String) : Build Unit := do
  match g.find? (← get).world (.driver k) name with
  | none => return ()
  | some h =>
    match ← Build.onWorld (World.rewrap k h) with
    | some h => Build.insert (.driver k) name h
    | none => return ()

end Graph

/-- The kind of driver that components of a type are; there is none for boards, which are declared
apart, and for types that are not known. -/
def ComponentType.driverKind? : ComponentType → Option DriverKind
  | arm => some (.part .arm)
  | base => some (.part .base)
  | gripper => some (.part .gripper)
  | camera => some (.part .camera)
  | lidar => some (.part .lidar)
  | provider => some (.part .provider)
  | sensor => some .sensor
  | board | other _ => none

namespace Graph

/-- Selects a component. -/
def selectComponent (g : Graph) (c : Component) : Build Unit :=
  match c.type.driverKind? with
  | some k => g.selectDriver k c.name
  | none => throw (.unknownComponentType c.name c.type.text)

/-- Selects a function. -/
def selectFunction (g : Graph) (name : String) : Build Unit :=
  if g.functions.contains name then Build.onGraph fun f => f.insertFunction name else return ()

/-- Selects all that a configuration names. -/
def selectConfig (h : Host) (g : Graph) (c : Config) : Build Unit := do
  Build.each (fun p => g.selectProcess h p.id) c.processes
  Build.each (fun r => g.selectRemote r.name) c.remotes
  Build.each (fun b => g.selectDriver .board b.name) c.boards
  Build.each g.selectComponent c.components
  Build.each (fun f => g.selectFunction f.name) c.functions

/-- The graph of the parts that a configuration names. -/
def select (h : Host) (g : Graph) (c : Config) : EStateM RobotError World Graph := fun w =>
  match g.selectConfig h c ⟨{}, w⟩ with
  | .ok () s => .ok s.graph s.world
  | .error e s => .error e s.world

end Graph

end RobotHost
