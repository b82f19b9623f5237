import RobotHost.Process.Lifecycle
import RobotHost.Proofs.World.Ledger

/-!
# How worlds grow

Almost everything a robot does leaves what stood behind a handle where it was: it makes new objects,
starts and stops processes, closes drivers and writes to the log. Only an exchange of what stands
behind a handle does more.

Three relations say this, each a preorder:

* `World.Quiet`: handles, remote robots, robots and drivers are those of before; processes may have
  moved on, and things may have been closed;
* `World.Extends`: new objects may have come besides;
* `World.Recalls`: what stood behind a handle still does, but the pins of a board may have changed.

Handles are of different types. A `Slot` is the place in the world that a handle of any kind
names, and a `Backing` is what may stand there.
-/

namespace RobotHost

/-! ## Slots -/

/-- The place of a handle in the world. -/
inductive Slot where
  | proxy (r : Ref .proxy)
  | boardProxy (r : Ref .boardProxy)
  | remote (r : Ref .remote)
deriving DecidableEq, Repr

/-- The place that a handle names. -/
def Kind.slot : (k : Kind) → k.Handle → Slot
  | .remote, h => .remote h
  | .driver .board, h => .boardProxy h
  | .driver .sensor, h => .proxy h.proxy
  | .driver (.part _), h => .proxy h

/-- What stands behind a handle. -/
inductive Backing where
  | driver (d : Ref .driver)
  | remote (r : Remote)

/-- What has to be closed of it. -/
def Backing.resource : Backing → Resource
  | driver d => .driver d
  | remote r => .connection r.connection

/-- What stands in a slot. -/
def World.behind? (w : World) : Slot → Option Backing
  | .proxy r => (w.proxies.get? r).map .driver
  | .boardProxy r => (w.boardProxies.get? r).map fun b => .driver b.actual
  | .remote r => (w.remotes.get? r).map .remote

/-- The driver behind a handle is what stands in the slot of the handle. -/
theorem World.actual?_eq_some_iff {w : World} {k : DriverKind} {h : (Kind.driver k).Handle}
    {d : Ref .driver} :
    w.actual? (.driver k) h = some d ↔ w.behind? (Kind.slot (.driver k) h) = some (.driver d) := by
  cases k <;> simp [World.actual?, World.behind?, Kind.slot]

/-- Behind the handle of a driver there is a driver, if anything. -/
theorem World.behind?_driver {w : World} {k : DriverKind} {h : (Kind.driver k).Handle} {x : Backing}
    (hx : w.behind? (Kind.slot (.driver k) h) = some x) : ∃ d, x = .driver d := by
  cases k <;> simp only [World.behind?, Kind.slot, Option.map_eq_some_iff] at hx <;>
    obtain ⟨_, -, rfl⟩ := hx <;> exact ⟨_, rfl⟩

theorem World.behind?_remote {w : World} {h : Kind.remote.Handle} {x : Backing} :
    w.behind? (Kind.slot .remote h) = some x ↔
      ∃ remote, w.remotes.get? h = some remote ∧ x = .remote remote := by
  simp only [World.behind?, Kind.slot, Option.map_eq_some_iff]
  constructor <;> rintro ⟨remote, hr, rfl⟩ <;> exact ⟨remote, hr, rfl⟩

/-! ## Tables -/

namespace Table

variable {s : Stored} {α : Type}

/-- Every row of the first table is a row of the second. -/
def Keeps (t u : Table s α) : Prop := ∀ r x, t.get? r = some x → u.get? r = some x

theorem Keeps.refl (t : Table s α) : t.Keeps t := fun _ _ h => h

theorem Keeps.trans {t u v : Table s α} (h : t.Keeps u) (h' : u.Keeps v) : t.Keeps v :=
  fun r x hx => h' r x (h r x hx)

theorem keeps_push (t : Table s α) (x : α) : t.Keeps (t.push x) := by
  intro r y hy
  have hr : r ≠ t.next := by
    rintro rfl
    rw [get?_next] at hy
    cases hy
  rw [get?_push, if_neg hr, hy]

/-- Writing a row that the first table lacks keeps the rows of the first. -/
theorem Keeps.set {t u : Table s α} (h : t.Keeps u) {r : Ref s} (hr : t.get? r = none) (x : α) :
    t.Keeps (u.set r x) := by
  intro q y hy
  have hq : r ≠ q := by
    rintro rfl
    rw [hr] at hy
    cases hy
  rw [get?_set, if_neg hq, h q y hy]

/-- What is in a table once an object is written was there before, or is the object. -/
theorem mem_rows_set {t : Table s α} {r : Ref s} {x y : α} (hy : y ∈ (t.set r x).rows) :
    y ∈ t.rows ∨ y = x := by
  obtain ⟨i, hi⟩ := List.mem_iff_getElem?.mp hy
  have hget : (t.set r x).get? ⟨i⟩ = some y := hi
  rw [get?_set] at hget
  split at hget
  · obtain ⟨_, -, rfl⟩ := Option.map_eq_some_iff.mp hget
    exact .inr rfl
  · exact .inl (List.mem_of_getElem? hget)

end Table

/-! ## The relations -/

namespace World

/-- What stood behind handles still does, robots are the same, and no object is lost. -/
structure Recalls (w w' : World) : Prop where
  behind : ∀ s x, w.behind? s = some x → w'.behind? s = some x
  robots : w'.robots = w.robots
  drivers : w.drivers.size ≤ w'.drivers.size
  processes : ∀ p q, w.processes.get? p = some q →
    ∃ q', w'.processes.get? p = some q' ∧ q'.id = q.id
  log : w.log <+: w'.log

/-- What stood behind handles still does, and so do the handles of the pins of each board. -/
structure Extends (w w' : World) : Prop extends Recalls w w' where
  boardProxies : w.boardProxies.Keeps w'.boardProxies
  pinProxies : w.pinProxies.Keeps w'.pinProxies

/-- All handles, remote robots, robots and drivers are those of before, and none was delivered. -/
structure Quiet (w w' : World) : Prop where
  proxies : w'.proxies = w.proxies
  boardProxies : w'.boardProxies = w.boardProxies
  pinProxies : w'.pinProxies = w.pinProxies
  remotes : w'.remotes = w.remotes
  robots : w'.robots = w.robots
  drivers : w'.drivers.size = w.drivers.size
  processes : ∀ p q, w.processes.get? p = some q →
    ∃ q', w'.processes.get? p = some q' ∧ q'.id = q.id
  logs : Logs (fun e => e.delivers? = none) w w'

variable {w w' w'' : World}

theorem Recalls.refl (w : World) : w.Recalls w where
  behind := fun _ _ h => h
  robots := rfl
  drivers := Nat.le_refl _
  processes := fun _ q h => ⟨q, h, rfl⟩
  log := List.prefix_refl _

theorem Recalls.trans (h : w.Recalls w') (h' : w'.Recalls w'') : w.Recalls w'' where
  behind := fun s x hx => h'.behind s x (h.behind s x hx)
  robots := h'.robots.trans h.robots
  drivers := Nat.le_trans h.drivers h'.drivers
  processes := by
    intro p q hq
    obtain ⟨q', hq', hid⟩ := h.processes p q hq
    obtain ⟨q'', hq'', hid'⟩ := h'.processes p q' hq'
    exact ⟨q'', hq'', hid'.trans hid⟩
  log := h.log.trans h'.log

theorem Extends.refl (w : World) : w.Extends w where
  toRecalls := .refl w
  boardProxies := .refl _
  pinProxies := .refl _

theorem Extends.trans (h : w.Extends w') (h' : w'.Extends w'') : w.Extends w'' where
  toRecalls := h.toRecalls.trans h'.toRecalls
  boardProxies := h.boardProxies.trans h'.boardProxies
  pinProxies := h.pinProxies.trans h'.pinProxies

/-- A slot that is empty later was empty before. -/
theorem Recalls.empty (h : w.Recalls w') {s : Slot} (hs : w'.behind? s = none) :
    w.behind? s = none := by
  cases hx : w.behind? s with
  | none => rfl
  | some x => rw [h.behind s x hx] at hs; cases hs

/-- A process that is not there later was not there before. -/
theorem Recalls.noProcess (h : w.Recalls w') {p : Ref .process}
    (hp : w'.processes.get? p = none) : w.processes.get? p = none := by
  cases hq : w.processes.get? p with
  | none => rfl
  | some q =>
    obtain ⟨q', hq', -⟩ := h.processes p q hq
    rw [hp] at hq'
    cases hq'

theorem Quiet.refl (w : World) : w.Quiet w :=
  ⟨rfl, rfl, rfl, rfl, rfl, rfl, fun _ q h => ⟨q, h, rfl⟩, .refl _ w⟩

theorem Quiet.trans (h : w.Quiet w') (h' : w'.Quiet w'') : w.Quiet w'' where
  proxies := h'.proxies.trans h.proxies
  boardProxies := h'.boardProxies.trans h.boardProxies
  pinProxies := h'.pinProxies.trans h.pinProxies
  remotes := h'.remotes.trans h.remotes
  robots := h'.robots.trans h.robots
  drivers := h'.drivers.trans h.drivers
  processes := by
    intro p q hq
    obtain ⟨q', hq', hid⟩ := h.processes p q hq
    obtain ⟨q'', hq'', hid'⟩ := h'.processes p q' hq'
    exact ⟨q'', hq'', hid'.trans hid⟩
  logs := h.logs.trans h'.logs

/-- After a quiet step each handle stands for what it stood for. -/
theorem Quiet.behind?_eq (h : w.Quiet w') (s : Slot) : w'.behind? s = w.behind? s := by
  cases s <;> simp only [World.behind?, h.proxies, h.boardProxies, h.remotes]

/-- A quiet step takes nothing away. -/
theorem Quiet.extends (h : w.Quiet w') : w.Extends w' where
  behind := fun s x hx => (h.behind?_eq s).trans hx
  robots := h.robots
  drivers := Nat.le_of_eq h.drivers.symm
  processes := h.processes
  log := h.logs.log
  boardProxies := by rw [h.boardProxies]; exact .refl _
  pinProxies := by rw [h.pinProxies]; exact .refl _

/-! ## Processes alone -/

/-- Nothing but processes has moved on. -/
structure Idle (w w' : World) : Prop extends Quiet w w' where
  ofProcess : Logs Event.OfProcess w w'

theorem Idle.refl (w : World) : w.Idle w := ⟨.refl w, .refl _ w⟩

theorem Idle.trans (h : w.Idle w') (h' : w'.Idle w'') : w.Idle w'' :=
  ⟨h.toQuiet.trans h'.toQuiet, h.ofProcess.trans h'.ofProcess⟩

/-- Nothing but processes has moved on, and none was stopped. -/
structure Launches (w w' : World) : Prop extends Quiet w w' where
  ofStart : Logs Event.OfStart w w'

theorem Launches.refl (w : World) : w.Launches w := ⟨.refl w, .refl _ w⟩

theorem Launches.trans (h : w.Launches w') (h' : w'.Launches w'') : w.Launches w'' :=
  ⟨h.toQuiet.trans h'.toQuiet, h.ofStart.trans h'.ofStart⟩

/-- Starts deliver, close and stop nothing. -/
theorem Launches.plain (h : w.Launches w') : Logs Event.Plain w w' :=
  h.ofStart.mono fun _ => Event.OfStart.plain

theorem Launches.closings (h : w.Launches w') : w'.closings = w.closings :=
  (h.plain.mono fun _ he => he.closes).closings

/-! ## New objects and notes -/

/-- A world whose tables of handles keep those of another extends it. -/
theorem extends_of_keeps (hproxies : w.proxies.Keeps w'.proxies)
    (hboards : w.boardProxies.Keeps w'.boardProxies) (hpins : w.pinProxies.Keeps w'.pinProxies)
    (hremotes : w.remotes.Keeps w'.remotes) (hrobots : w'.robots = w.robots)
    (hdrivers : w.drivers.size ≤ w'.drivers.size) (hprocesses : w.processes.Keeps w'.processes)
    (hlog : w.log <+: w'.log) : w.Extends w' where
  behind := by
    intro s x hx
    -- a slot is in one of three tables, each of which keeps its rows
    cases s with
    | proxy r =>
      obtain ⟨d, hd, rfl⟩ := Option.map_eq_some_iff.mp hx
      exact Option.map_eq_some_iff.mpr ⟨d, hproxies r d hd, rfl⟩
    | boardProxy r =>
      obtain ⟨b, hb, rfl⟩ := Option.map_eq_some_iff.mp hx
      exact Option.map_eq_some_iff.mpr ⟨b, hboards r b hb, rfl⟩
    | remote r =>
      obtain ⟨remote, hr, rfl⟩ := Option.map_eq_some_iff.mp hx
      exact Option.map_eq_some_iff.mpr ⟨remote, hremotes r remote hr, rfl⟩
  robots := hrobots
  drivers := hdrivers
  processes := fun p q hq => ⟨q, hprocesses p q hq, rfl⟩
  log := hlog
  boardProxies := hboards
  pinProxies := hpins

variable (w)

/-- To log an event changes nothing else. -/
theorem extends_note (e : Event) : w.Extends (note e w).2 :=
  extends_of_keeps (.refl _) (.refl _) (.refl _) (.refl _) rfl (Nat.le_refl _) (.refl _)
    (List.prefix_append _ _)

theorem extends_addDriver (d : Driver) : w.Extends (addDriver d w).2 := by
  have hsize : w.drivers.size ≤ (w.drivers.push d).size := by simp
  exact extends_of_keeps (.refl _) (.refl _) (.refl _) (.refl _) rfl hsize (.refl _)
    (List.prefix_refl _)

theorem extends_addProxy (d : Ref .driver) : w.Extends (addProxy d w).2 :=
  extends_of_keeps (Table.keeps_push _ _) (.refl _) (.refl _) (.refl _) rfl (Nat.le_refl _)
    (.refl _) (List.prefix_refl _)

theorem extends_addRemote (r : Remote) : w.Extends (addRemote r w).2 :=
  extends_of_keeps (.refl _) (.refl _) (.refl _) (Table.keeps_push _ _) rfl (Nat.le_refl _)
    (.refl _) (List.prefix_refl _)

theorem extends_addProcess (p : Process) : w.Extends (addProcess p w).2 :=
  extends_of_keeps (.refl _) (.refl _) (.refl _) (.refl _) rfl (Nat.le_refl _)
    (Table.keeps_push _ _) (List.prefix_refl _)

end World

end RobotHost
