import RobotHost.Driver.Kind
import RobotHost.Process.Manager

/-!
# Graphs of parts

A `Graph` is what a robot is made of: a handle for each part by kind and name, the names of its
functions, and its processes. Handles are numbers of shared objects, so a copy of a graph has its
own entries while what stands behind a handle is seen through both.
-/

namespace RobotHost

/-! ## Tables of plain parts -/

/-- A table for each kind of part that has a plain handle. -/
structure PartTables where
  arms : NameMap (Ref .proxy) := .empty
  bases : NameMap (Ref .proxy) := .empty
  grippers : NameMap (Ref .proxy) := .empty
  cameras : NameMap (Ref .proxy) := .empty
  lidars : NameMap (Ref .proxy) := .empty
  providers : NameMap (Ref .proxy) := .empty

namespace PartTables

def get (t : PartTables) : PartKind → NameMap (Ref .proxy)
  | .arm => t.arms
  | .base => t.bases
  | .gripper => t.grippers
  | .camera => t.cameras
  | .lidar => t.lidars
  | .provider => t.providers

def ofFun (f : PartKind → NameMap (Ref .proxy)) : PartTables :=
  ⟨f .arm, f .base, f .gripper, f .camera, f .lidar, f .provider⟩

@[simp]
theorem get_ofFun (f : PartKind → NameMap (Ref .proxy)) (k : PartKind) : (ofFun f).get k = f k := by
  cases k <;> rfl

theorem ext_get {t u : PartTables} (h : ∀ k, t.get k = u.get k) : t = u := by
  obtain ⟨_, _, _, _, _, _⟩ := t
  obtain ⟨_, _, _, _, _, _⟩ := u
  congr
  · exact h .arm
  · exact h .base
  · exact h .gripper
  · exact h .camera
  · exact h .lidar
  · exact h .provider

end PartTables

/-! ## Graphs -/

structure Graph where
  remotes : NameMap (Ref .remote) := .empty
  boards : NameMap (Ref .boardProxy) := .empty
  sensors : NameMap SensorHandle := .empty
  parts : PartTables := {}
  functions : NameSet := .empty
  manager : ProcessManager := {}

namespace Graph

/-- The handles of a kind by name. -/
def entries (g : Graph) : (k : Kind) → NameMap k.Handle
  | .remote => g.remotes
  | .driver .board => g.boards
  | .driver .sensor => g.sensors
  | .driver (.part p) => g.parts.get p

/-- The graph with these handles and otherwise like `g`. -/
def withEntries (g : Graph) (f : (k : Kind) → NameMap k.Handle) : Graph :=
  { g with
    remotes := f .remote
    boards := f (.driver .board)
    sensors := f (.driver .sensor)
    parts := .ofFun fun p => f (.driver (.part p)) }

/-- Writes the handle of a part, over one of the same kind and name. -/
def insert (g : Graph) : (k : Kind) → String → k.Handle → Graph
  | .remote, name, h => { g with remotes := g.remotes.insert name h }
  | .driver .board, name, h => { g with boards := g.boards.insert name h }
  | .driver .sensor, name, h => { g with sensors := g.sensors.insert name h }
  | .driver (.part p), name, h =>
    { g with
      parts := .ofFun fun q => if q = p then (g.parts.get q).insert name h else g.parts.get q }

/-- Writes the name of a function. -/
def insertFunction (g : Graph) (name : String) : Graph :=
  { g with functions := g.functions.insert name () }

/-! ## What the entries are afterwards -/

@[simp]
theorem entries_withEntries (g : Graph) (f : (k : Kind) → NameMap k.Handle) (k : Kind) :
    (g.withEntries f).entries k = f k := by
  match k with
  | .remote | .driver .board | .driver .sensor => rfl
  | .driver (.part p) => exact PartTables.get_ofFun _ p

theorem entries_insert_self (g : Graph) (k : Kind) (name : String) (h : k.Handle) :
    (g.insert k name h).entries k = (g.entries k).insert name h := by
  match k with
  | .remote | .driver .board | .driver .sensor => rfl
  | .driver (.part p) => simp [insert, entries]

theorem entries_insert_of_ne (g : Graph) {k other : Kind} (name : String) (h : k.Handle)
    (hne : other ≠ k) : (g.insert k name h).entries other = g.entries other := by
  match k, other with
  | .remote, .remote | .driver .board, .driver .board | .driver .sensor, .driver .sensor =>
    exact absurd rfl hne
  | .remote, .driver .board | .remote, .driver .sensor | .remote, .driver (.part _)
  | .driver .board, .remote | .driver .board, .driver .sensor | .driver .board, .driver (.part _)
  | .driver .sensor, .remote | .driver .sensor, .driver .board
  | .driver .sensor, .driver (.part _)
  | .driver (.part _), .remote | .driver (.part _), .driver .board
  | .driver (.part _), .driver .sensor => rfl
  | .driver (.part p), .driver (.part q) =>
    have hqp : q ≠ p := fun h => hne (by rw [h])
    simp [insert, entries, hqp]

@[simp]
theorem functions_insert (g : Graph) (k : Kind) (name : String) (h : k.Handle) :
    (g.insert k name h).functions = g.functions := by
  match k with
  | .remote | .driver .board | .driver .sensor | .driver (.part _) => rfl

@[simp]
theorem manager_insert (g : Graph) (k : Kind) (name : String) (h : k.Handle) :
    (g.insert k name h).manager = g.manager := by
  match k with
  | .remote | .driver .board | .driver .sensor | .driver (.part _) => rfl

/-- Graphs with the same handles, functions and processes are equal. -/
theorem ext_entries {g g' : Graph} (h : ∀ k, g.entries k = g'.entries k)
    (hf : g.functions = g'.functions) (hm : g.manager = g'.manager) : g = g' := by
  obtain ⟨remotes, boards, sensors, parts, functions, manager⟩ := g
  obtain ⟨remotes', boards', sensors', parts', functions', manager'⟩ := g'
  have hr : remotes = remotes' := h .remote
  have hb : boards = boards' := h (.driver .board)
  have hs : sensors = sensors' := h (.driver .sensor)
  have hp : parts = parts' := PartTables.ext_get fun p => h (.driver (.part p))
  have hf' : functions = functions' := hf
  have hm' : manager = manager' := hm
  subst hr hb hs hp hf' hm'
  rfl

end Graph

end RobotHost
