import RobotHost.Config.Section
import RobotHost.Driver.Basic
import RobotHost.Graph.Basic
import RobotHost.Process.Basic

/-!
# The world

A `World` holds all objects that graphs share: drivers and the handles to them, remote robots, the
robots that answer them, and processes. It also keeps a log of what was done to drivers,
connections and processes, in the order in which it was done.

Graphs are values and stay outside; the world holds only those that answer calls from other robots.
-/

namespace RobotHost

/-! ## Shared objects -/

/-- A connection to a robot. -/
inductive Connection where
  /-- To the robot itself. -/
  | robot (r : Ref .robot)
  /-- To a remote robot of another robot, which passes calls on. -/
  | remote (r : Ref .remote)
deriving DecidableEq, Repr

/-- What a robot holds and has to close in the end. -/
inductive Resource where
  | driver (d : Ref .driver)
  | connection (c : Connection)
deriving DecidableEq, Repr

/-- A remote robot as a robot knows it. -/
structure Remote where
  config : RemoteConfig
  connection : Connection

/-- A pin of a board: what the board gives for a name. -/
structure Pin where
  board : Ref .driver
  kind : PinKind
  name : String
deriving DecidableEq, Repr

/-- A handle to a board, with a handle for each of its pins by name. -/
structure BoardProxy where
  actual : Ref .driver
  analogs : NameMap (Ref .pinProxy) := .empty
  interrupts : NameMap (Ref .pinProxy) := .empty

def BoardProxy.pins (b : BoardProxy) : PinKind → NameMap (Ref .pinProxy)
  | .analog => b.analogs
  | .interrupt => b.interrupts

/-! ## Events -/

inductive Event where
  /-- A driver was asked for; there is no outcome if none could be made. -/
  | constructed (kind : DriverKind) (name : String) (outcome : Option (Ref .driver))
  /-- A connection was asked for; there is no outcome if the address did not answer. -/
  | connected (address : String) (outcome : Option Connection)
  /-- A process was asked to start. -/
  | started (p : Ref .process)
  /-- A process was asked to stop. -/
  | stopped (p : Ref .process)
  /-- A driver was closed, well or not. -/
  | closed (d : Ref .driver)
  /-- A connection was closed, well or not. -/
  | hungUp (c : Connection)
deriving DecidableEq, Repr

/-! ## The world -/

structure World where
  drivers : Table .driver Driver := {}
  proxies : Table .proxy (Ref .driver) := {}
  pinProxies : Table .pinProxy Pin := {}
  boardProxies : Table .boardProxy BoardProxy := {}
  remotes : Table .remote Remote := {}
  /-- The robots that answer calls of others. -/
  robots : Table .robot Graph := {}
  processes : Table .process Process := {}
  /-- How many calls were made on the host. -/
  hostCalls : Nat := 0
  log : List Event := []

namespace World

/-- Notes an event. -/
def note (e : Event) : StateM World Unit :=
  modify fun w => { w with log := w.log ++ [e] }

/-! ## New objects -/

def addDriver (d : Driver) : StateM World (Ref .driver) :=
  modifyGet fun w => (w.drivers.next, { w with drivers := w.drivers.push d })

def addProxy (d : Ref .driver) : StateM World (Ref .proxy) :=
  modifyGet fun w => (w.proxies.next, { w with proxies := w.proxies.push d })

def addPinProxy (p : Pin) : StateM World (Ref .pinProxy) :=
  modifyGet fun w => (w.pinProxies.next, { w with pinProxies := w.pinProxies.push p })

def addBoardProxy (b : BoardProxy) : StateM World (Ref .boardProxy) :=
  modifyGet fun w => (w.boardProxies.next, { w with boardProxies := w.boardProxies.push b })

def addRemote (r : Remote) : StateM World (Ref .remote) :=
  modifyGet fun w => (w.remotes.next, { w with remotes := w.remotes.push r })

/-- Lets a robot of this graph answer calls. -/
def addRobot (g : Graph) : StateM World (Ref .robot) :=
  modifyGet fun w => (w.robots.next, { w with robots := w.robots.push g })

def addProcess (p : Process) : StateM World (Ref .process) :=
  modifyGet fun w => (w.processes.next, { w with processes := w.processes.push p })

/-! ## What stands behind handles -/

/-- The driver behind a handle; behind a remote robot's handle there is none. -/
def actual? (w : World) : (k : Kind) → k.Handle → Option (Ref .driver)
  | .remote, _ => none
  | .driver .board, h => (w.boardProxies.get? h).map BoardProxy.actual
  | .driver .sensor, h => w.proxies.get? h.proxy
  | .driver (.part _), h => w.proxies.get? h

/-- The id of a process. -/
def processId (w : World) (p : Ref .process) : String :=
  ((w.processes.get? p).map Process.id).getD ""

/-- The names of a driver's pins, in ascending order. -/
def pinNames (w : World) (d : Ref .driver) (kind : PinKind) : List String :=
  ((w.drivers.get? d).map fun d => d.pinNames kind).getD []

/-- What a board gives for the name of a pin. -/
def pin? (w : World) (d : Ref .driver) (kind : PinKind) (name : String) : Option Pin :=
  if name ∈ w.pinNames d kind then some ⟨d, kind, name⟩ else none

/-- A number that no chain of connections exceeds, as long as none leads back to where it began. -/
def depth (w : World) : Nat := w.remotes.size + w.robots.size + 1

/-- A number that no chain of connections exceeds along which a part of this name is looked for. The
name gets shorter at each remote that qualifies names, and a search that comes back to a connection
with the same name never ends. -/
def reach (w : World) (name : String) : Nat := w.depth * (name.length + 1)

end World

end RobotHost
