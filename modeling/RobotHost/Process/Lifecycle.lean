import RobotHost.World.Basic

/-!
# Starting and stopping managed processes

The processes of a manager are started and stopped in ascending order of their ids. Starting ends
at the first that fails; stopping goes through all and reports each failure.

Adding a process, and adding all processes of another manager, either succeeds or leaves the
manager as it was.
-/

namespace RobotHost

namespace World

/-- Starts a process. -/
def start (h : Host) (p : Ref .process) : EStateM ProcessError World Unit := fun w =>
  match w.processes.get? p with
  | none => .ok () w
  | some process =>
    let a := process.start h w.hostCalls
    let w :=
      { w with
        processes := w.processes.set p a.after
        hostCalls := a.nextCall
        log := w.log ++ [.started p] }
    match a.outcome with
    | .ok () => .ok () w
    | .error e => .error e w

/-- Stops a process. -/
def stop (h : Host) (p : Ref .process) : StateM World (Except ProcessError Unit) := fun w =>
  match w.processes.get? p with
  | none => (.ok (), w)
  | some process =>
    let a := process.stop h w.hostCalls
    (a.outcome,
      { w with
        processes := w.processes.set p a.after
        hostCalls := a.nextCall
        log := w.log ++ [.stopped p] })

/-- Starts processes in turn, up to the first that fails. -/
def startEach (h : Host) : List (Ref .process) → EStateM ProcessError World Unit
  | [] => pure ()
  | p :: rest => do
    start h p
    startEach h rest

/-- Stops processes in turn, and collects what fails. -/
def stopEach (h : Host) : List (Ref .process) → StateM World (List ProcessError)
  | [] => pure []
  | p :: rest => do
    let outcome ← stop h p
    let errors ← stopEach h rest
    match outcome with
    | .ok () => return errors
    | .error e => return e :: errors

end World

namespace ProcessManager

/-- Adds a process under its id and starts it if the manager was started. Unless it may `replace`
another, the id must be free. The answer is the manager with the process, and the process that had
the id before. -/
def add (h : Host) (m : ProcessManager) (p : Ref .process) (replace : Bool) :
    EStateM ProcessError World (Option (Ref .process) × ProcessManager) := do
  let id := (← get).processId p
  if !replace && m.processes.contains id then throw (.alreadyExists id)
  if m.started then World.start h p
  return (m.get? id, { m with processes := m.processes.insert id p })

/-- Adds a program to be run. -/
def addProgram (h : Host) (m : ProcessManager) (c : ProcessConfig) :
    EStateM ProcessError World (Ref .process × ProcessManager) := do
  let p ← modifyGet (World.addProcess (.program { config := c }))
  let (_, m) ← m.add h p false
  return (p, m)

/-- Adds processes in turn, each over the one of its id. The answer is the manager with all of
them, and those that were replaced. -/
def addEach (h : Host) (m : ProcessManager) :
    List (Ref .process) → EStateM ProcessError World (List (Ref .process) × ProcessManager)
  | [] => pure ([], m)
  | p :: rest => do
    let (replaced, m) ← m.add h p true
    let (others, m) ← addEach h m rest
    return (replaced.toList ++ others, m)

/-- Adds all processes of another manager. -/
def addAll (h : Host) (m other : ProcessManager) :
    EStateM ProcessError World (List (Ref .process) × ProcessManager) :=
  m.addEach h other.processes.values

/-- The manager once it is started. -/
def startedUp (m : ProcessManager) : ProcessManager := { m with started := true }

/-- The manager once it is stopped. -/
def shutDown (m : ProcessManager) : ProcessManager := { m with started := false }

/-- Starts all processes of a manager. -/
def startAll (h : Host) (m : ProcessManager) : EStateM ProcessError World Unit :=
  World.startEach h m.processes.values

/-- Stops all processes of a manager, and collects what fails. -/
def stopAll (h : Host) (m : ProcessManager) : StateM World (List ProcessError) :=
  World.stopEach h m.processes.values

end ProcessManager

end RobotHost
