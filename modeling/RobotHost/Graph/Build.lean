import RobotHost.Config.Basic
import RobotHost.Graph.Error
import RobotHost.Handle.Basic
import RobotHost.Process.Lifecycle
import RobotHost.World.Environment

/-!
# Building graphs

A graph is built from a configuration in a fixed order: all processes are added and then started,
remotes are connected, boards are made, then providers, then the other components, and at last the
functions are named. The first failure ends the build; what was built so far stays in the graph, so
that it can be closed.
-/

namespace RobotHost

/-- A graph under construction and the world around it. -/
structure Site where
  graph : Graph
  world : World

/-- A step of construction. A step that fails leaves the site as far as it got. -/
abbrev Build := EStateM RobotError Site

namespace Build

/-- Does something in the world. -/
def onWorld {α : Type} (f : StateM World α) : Build α := fun s =>
  let (x, w) := f s.world
  .ok x { s with world := w }

/-- Does something with processes, which may fail. -/
def onProcesses {α : Type} (f : EStateM ProcessError World α) : Build α := fun s =>
  match f s.world with
  | .ok x w => .ok x { s with world := w }
  | .error e w => .error (.process e) { s with world := w }

/-- Changes the graph. -/
def onGraph (f : Graph → Graph) : Build Unit := modify fun s => { s with graph := f s.graph }

/-- Writes the handle of a part. -/
def insert (k : Kind) (name : String) (h : k.Handle) : Build Unit :=
  onGraph fun g => g.insert k name h

/-! ## Single parts -/

/-- Puts a driver into the graph behind a new handle. -/
def register (k : DriverKind) (name : String) (d : Ref .driver) : Build Unit := do
  let h ← onWorld (World.wrap d k)
  insert (.driver k) name h

/-- Has a driver made. -/
def construct (env : Environment) (b : Blueprint) : Build (Ref .driver) := do
  match ← onWorld (env.construct b) with
  | .ok d => return d
  | .error cause => throw (.construct b.kind b.name cause)

/-- Puts a process under management. -/
def addProcess (h : Host) (p : Ref .process) (replace : Bool) : Build (Option (Ref .process)) := do
  let (replaced, m) ← onProcesses ((← get).graph.manager.add h p replace)
  onGraph fun g => { g with manager := m }
  return replaced

/-- Puts a program under management. -/
def addProgram (h : Host) (c : ProcessConfig) : Build (Ref .process) := do
  let (p, m) ← onProcesses ((← get).graph.manager.addProgram h c)
  onGraph fun g => { g with manager := m }
  return p

/-- Starts the graph's manager. -/
def startProcesses (h : Host) : Build Unit := do
  onGraph fun g => { g with manager := g.manager.startedUp }
  onProcesses ((← get).graph.manager.startAll h)

/-- Puts a remote robot into the graph, under the name it has in its settings. -/
def addRemote (h : Ref .remote) : Build Unit := do
  match (← get).world.remotes.get? h with
  | some remote => insert .remote remote.config.name h
  | none => return ()

/-! ## The parts of a configuration -/

/-- Does a step for each element of a list. -/
def each {α : Type} (step : α → Build Unit) : List α → Build Unit
  | [] => return ()
  | x :: rest => do
    step x
    each step rest

def processes (env : Environment) (cs : List ProcessConfig) : Build Unit := do
  each (fun c => do let _ ← addProgram env.host c) cs
  startProcesses env.host

/-- Connects a remote robot. -/
def remote (env : Environment) (c : RemoteConfig) : Build Unit := do
  match ← onWorld (env.connect c.address) with
  | .error cause => throw (.remoteConnect c.address cause)
  | .ok connection =>
    let h ← onWorld (World.addRemote ⟨c, connection⟩)
    insert .remote c.name h

/-- Builds a board under a name. -/
def board (env : Environment) (name : String) (c : BoardConfig) : Build Unit := do
  let d ← construct env (.board c)
  register .board name d

end Build

/-- The order that is given for a component. -/
def Component.blueprint (c : Component) : Except RobotError Blueprint :=
  match c.type with
  | .arm => .ok (.part .arm c)
  | .base => .ok (.part .base c)
  | .gripper => .ok (.part .gripper c)
  | .camera => .ok (.part .camera c)
  | .lidar => .ok (.part .lidar c)
  | .provider => .ok (.part .provider c)
  | .sensor => if c.subtype.isEmpty then .error (.missingSubtype c.name) else .ok (.sensor c)
  | .board | .other _ => .error (.unknownComponentType c.name c.type.text)

namespace Build

/-- Builds a component under a name. -/
def component (env : Environment) (name : String) (c : Component) : Build Unit := do
  match c.blueprint with
  | .error e => throw e
  | .ok b =>
    let d ← construct env b
    register b.kind name d

/-- Providers first, then the other components, each in the given order. -/
def providersFirst (cs : List Component) : List Component :=
  cs.filter (·.type = .provider) ++ cs.filter (·.type ≠ .provider)

def components (env : Environment) (cs : List Component) : Build Unit :=
  each (fun c => component env c.name c) (providersFirst cs)

def functions (cs : List FunctionConfig) : Build Unit :=
  each (fun c => onGraph fun g => g.insertFunction c.name) cs

/-- Builds all that a configuration declares. -/
def config (env : Environment) (c : Config) : Build Unit := do
  processes env c.processes
  each (remote env) c.remotes
  each (fun b => board env b.name b) c.boards
  components env c.components
  functions c.functions

/-- Builds a board anew, as a diff says. -/
def modifiedBoard (env : Environment) (name : String) (d : BoardConfigDiff) : Build Unit := do
  match d.toConfig with
  | .error e => throw (.config e)
  | .ok c => board env name c

/-- Builds what takes the place of running parts: what a diff modifies, boards in ascending order of
their names. -/
def modified (env : Environment) (m : ModifiedConfig) : Build Unit := do
  processes env m.processes
  each (remote env) m.remotes
  each (fun e => modifiedBoard env e.1 e.2) m.boards.entries
  components env m.components
  functions m.functions

end Build

end RobotHost
