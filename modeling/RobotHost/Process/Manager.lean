import RobotHost.NameMap
import RobotHost.World.Table

/-!
# Process managers

A manager holds processes by their ids. Once it was started, a process that is added is started
too; a manager that was stopped no longer does so. A copy of a manager has its own entries and
shares the processes themselves.
-/

namespace RobotHost

structure ProcessManager where
  processes : NameMap (Ref .process) := .empty
  /-- Whether a process that is added is started. -/
  started : Bool := false

namespace ProcessManager

/-- The process of an id. -/
def get? (m : ProcessManager) (id : String) : Option (Ref .process) := m.processes.get? id

/-- Lets go of an id. -/
def remove (m : ProcessManager) (id : String) : ProcessManager :=
  { m with processes := m.processes.erase id }

/-- Lets go of all ids of another manager. -/
def removeAll (m other : ProcessManager) : ProcessManager :=
  { m with processes := m.processes.eraseAll other.processes.names }

/-- The entries that a manager has under ids of another, in ascending order. -/
def shared (m other : ProcessManager) : List (Ref .process) :=
  other.processes.names.filterMap m.get?

theorem get?_remove (m : ProcessManager) (id other : String) :
    (m.remove id).get? other = if id = other then none else m.get? other :=
  m.processes.get?_erase id other

theorem get?_removeAll (m other : ProcessManager) (id : String) :
    (m.removeAll other).get? id = if id ∈ other.processes.names then none else m.get? id :=
  m.processes.get?_eraseAll _ id

end ProcessManager

end RobotHost
