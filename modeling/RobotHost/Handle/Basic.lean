import RobotHost.Handle.Board

/-!
# Handles

A handle stays the same while the driver behind it is exchanged. A sensor's handle keeps the
capability of the sensor it was made for, and takes only sensors from handles of the same one.
-/

namespace RobotHost

namespace World

/-! ## New handles -/

/-- The most that a sensor can do. -/
def capability (w : World) (d : Ref .driver) : Capability :=
  ((w.drivers.get? d).map Driver.capability).getD .sensor

/-- A new handle to a driver. -/
def wrap (d : Ref .driver) : (k : DriverKind) → StateM World k.Handle
  | .board => wrapBoard d
  | .sensor => do
    let capability := (← get).capability d
    let proxy ← addProxy d
    return ⟨capability, proxy⟩
  | .part _ => addProxy d

/-- A new handle to the driver behind another; a sensor keeps its capability. -/
def rewrap : (k : DriverKind) → k.Handle → StateM World (Option k.Handle)
  | .sensor, h => do
    match (← get).proxies.get? h.proxy with
    | none => return none
    | some d =>
      let proxy ← addProxy d
      return some ⟨h.capability, proxy⟩
  | .board, h => do
    match (← get).actual? (.driver .board) h with
    | none => return none
    | some d =>
      let h ← wrapBoard d
      return some h
  | .part _, h => do
    match (← get).proxies.get? h with
    | none => return none
    | some d =>
      let h ← addProxy d
      return some h

/-! ## Exchanging the driver -/

/-- Puts a driver behind a handle. The answer is the driver that was there, if it is another. -/
def replaceDriver (h : Ref .proxy) (next : Ref .driver) : StateM World (Option (Ref .driver)) := do
  match (← get).proxies.get? h with
  | none => return none
  | some d =>
    modify fun w => { w with proxies := w.proxies.set h next }
    return if d = next then none else some d

/-- Puts the driver behind another handle behind a sensor's handle; without effect when they are of
different capabilities. -/
def replaceSensor (h next : SensorHandle) : StateM World (Option (Ref .driver)) := do
  if h.capability ≠ next.capability then return none
  match (← get).proxies.get? next.proxy with
  | none => return none
  | some d => replaceDriver h.proxy d

/-- Lets a remote robot take over the settings and the connection of another. The answer is the
connection that it had, if it is another. -/
def replaceRemote (h next : Ref .remote) : StateM World (Option Connection) := do
  match (← get).remotes.get? h, (← get).remotes.get? next with
  | some old, some new =>
    modify fun w => { w with remotes := w.remotes.set h new }
    return if old.connection = new.connection then none else some old.connection
  | _, _ => return none

/-! ## Closing drivers -/

/-- Closes a driver. The answer is what it reports if it does not close well. -/
def closeDriver (d : Ref .driver) : StateM World (Option String) := fun w =>
  ((w.drivers.get? d).bind Driver.closeFault,
    { w with
      drivers := w.drivers.modify d fun d => { d with closed := true }
      log := w.log ++ [.closed d] })

end World

end RobotHost
