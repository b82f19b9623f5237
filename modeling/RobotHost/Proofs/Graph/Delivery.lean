import RobotHost.Graph.Select
import RobotHost.Proofs.Graph.Parts
import RobotHost.Proofs.Handle.Wrapping
import RobotHost.Proofs.World.Ledger

/-!
# Deliveries

A build goes through a list of items and has each of them delivered: the environment is asked for a
driver or a connection, and what it gives out is put into the graph behind a new handle.

One item comes to one of two things (`Item.build_ok`, `Item.build_error`): a delivery, or a refusal
that leaves the graph as it was and delivers nothing.
-/

namespace RobotHost

/-! ## Items -/

/-- One thing that a build has delivered. -/
inductive Item where
  | remote (c : RemoteConfig)
  /-- A board under a name; its settings may be at fault. -/
  | board (name : String) (c : Except ConfigError BoardConfig)
  | component (c : Component)

namespace Item

/-- Where the part goes; there is no place for a component of a type that names no kind. -/
def key? : Item → Option (Kind × String)
  | remote c => some (.remote, c.name)
  | board name _ => some (.driver .board, name)
  | component c => c.type.driverKind?.map fun k => (.driver k, c.name)

def build (env : Environment) : Item → Build Unit
  | remote c => Build.remote env c
  | board _ (.error e) => throw (.config e)
  | board name (.ok c) => Build.board env name c
  | component c => Build.component env c.name c

end Item

/-- The items of a configuration, in the order in which they are built. -/
def Config.items (c : Config) : List Item :=
  c.remotes.map .remote ++ c.boards.map (fun b => .board b.name (.ok b)) ++
    (Build.providersFirst c.components).map .component

def ModifiedConfig.items (m : ModifiedConfig) : List Item :=
  m.remotes.map .remote ++ m.boards.entries.map (fun e => .board e.1 e.2.toConfig) ++
    (Build.providersFirst m.components).map .component

/-- Providers come first, and that is all that makes the order of the items. -/
theorem Build.providersFirst_perm (cs : List Component) : (providersFirst cs).Perm cs := by
  have hnot : cs.filter (fun c => decide (c.type ≠ .provider)) =
      cs.filter (fun c => !decide (c.type = .provider)) := by simp
  unfold providersFirst
  rw [hnot]
  exact List.filter_append_perm _ cs

/-- The keys of the parts that a configuration declares. -/
def Config.keys (c : Config) : List (Kind × String) := c.items.filterMap Item.key?

/-- The keys of the parts that a diff modifies. -/
def ModifiedConfig.keys (m : ModifiedConfig) : List (Kind × String) := m.items.filterMap Item.key?

/-! ## What is delivered -/

/-- What came of an item: a connection for a remote robot, or a driver for an order. -/
inductive Delivery where
  | remote (c : RemoteConfig) (connection : Connection)
  | driver (name : String) (b : Blueprint) (d : Ref .driver)

namespace Delivery

def kind : Delivery → Kind
  | remote _ _ => .remote
  | driver _ b _ => .driver b.kind

def name : Delivery → String
  | remote c _ => c.name
  | driver name _ _ => name

def key (x : Delivery) : Kind × String := (x.kind, x.name)

/-- What stands behind the new handle. -/
def backing : Delivery → Backing
  | remote c connection => .remote ⟨c, connection⟩
  | driver _ _ d => .driver d

def resource (x : Delivery) : Resource := x.backing.resource

/-- How the log tells it. -/
def event : Delivery → Event
  | remote c connection => .connected c.address (some connection)
  | driver _ b d => .constructed b.kind b.name (some d)

/-- The answer of the environment. A driver may be a new one, or one that it gave out before. -/
def AnsweredBy (env : Environment) (w w' : World) : Delivery → Prop
  | remote c connection => env.connector w c.address = .ok connection
  | driver _ b d => env.factory w b = .ok (.existing d) ∨
      ∃ new, env.factory w b = .ok (.fresh new) ∧ d = w.drivers.next ∧
        w.drivers.size < w'.drivers.size

/-- What is logged of a delivery tells the resource that was delivered. -/
@[simp]
theorem delivers?_event (x : Delivery) : x.event.delivers? = some x.resource := by
  cases x <;> rfl

@[simp]
theorem closes?_event (x : Delivery) : x.event.closes? = none := by
  cases x <;> rfl

@[simp]
theorem stops?_event (x : Delivery) : x.event.stops? = none := by
  cases x <;> rfl

end Delivery

/-- What was delivered is the resources of the deliveries. -/
theorem World.delivered_of_deliveries {w w' : World} {xs : List Delivery}
    (h : w'.deliveries = w.deliveries ++ xs.map Delivery.event) :
    w'.delivered = w.delivered ++ xs.map Delivery.resource := by
  rw [delivered_eq, h, List.filterMap_append, ← delivered_eq]
  simp

/-- What an item may come to. -/
inductive Item.Delivers : Item → Delivery → Prop
  | remote (c : RemoteConfig) (connection : Connection) :
    Delivers (.remote c) (.remote c connection)
  | board (name : String) (c : BoardConfig) (d : Ref .driver) :
    Delivers (.board name (.ok c)) (.driver name (.board c) d)
  | component (c : Component) (b : Blueprint) (d : Ref .driver) (h : c.blueprint = .ok b) :
    Delivers (.component c) (.driver c.name b d)

/-- An order is for a driver of the kind that the component's type names. -/
theorem Component.driverKind?_of_blueprint {c : Component} {b : Blueprint}
    (h : c.blueprint = .ok b) : c.type.driverKind? = some b.kind := by
  unfold Component.blueprint at h
  cases htype : c.type <;> simp only [htype] at h
  -- a sensor has an order only if its subtype is given
  case sensor =>
    split at h
    · cases h
    · cases h
      rfl
  case board => cases h
  case other => cases h
  all_goals
    cases h
    rfl

/-- A component is ordered as a part or a sensor, under its own name. -/
theorem Component.blueprint_names {c : Component} {b : Blueprint} (h : c.blueprint = .ok b) :
    b.kind ≠ .board ∧ b.name = c.name := by
  unfold Component.blueprint at h
  cases htype : c.type <;> simp only [htype] at h
  case sensor =>
    split at h
    · cases h
    · cases h
      exact ⟨nofun, rfl⟩
  case board => cases h
  case other => cases h
  all_goals
    cases h
    exact ⟨nofun, rfl⟩

/-- What is delivered goes where the item says. -/
theorem Item.Delivers.key {i : Item} {x : Delivery} (h : i.Delivers x) : i.key? = some x.key := by
  cases h with
  | remote c connection => rfl
  | board name c d => rfl
  | component c b d hb =>
    show c.type.driverKind?.map _ = _
    rw [Component.driverKind?_of_blueprint hb]
    rfl

/-! ## Sites -/

/-- A delivery takes an empty slot and gives the graph a handle; nothing else is logged. -/
structure Delivered (env : Environment) (s : Site) (x : Delivery) (s' : Site) : Prop where
  world : s.world.Extends s'.world
  log : s'.world.log = s.world.log ++ [x.event]
  answer : x.AnsweredBy env s.world s'.world
  handle : ∃ h, s'.graph = s.graph.insert x.kind x.name h ∧
    s.world.behind? (x.kind.slot h) = none ∧ s'.world.behind? (x.kind.slot h) = some x.backing

/-- A refusal leaves the graph as it was and delivers nothing. -/
structure Refused (s s' : Site) : Prop where
  graph : s'.graph = s.graph
  world : s.world.Extends s'.world
  log : World.Logs Event.Plain s.world s'.world

theorem Refused.refl (s : Site) : Refused s s := ⟨rfl, .refl _, .refl _ _⟩

/-- Errors that come only once the new graph is installed. -/
def RobotError.OfTeardown : RobotError → Prop
  | unexpectedProcessReplacement _ | close _ => True
  | _ => False

/-! ## What the environment does -/

namespace Environment

variable {env : Environment} {w w' : World}

/-- What asking for a driver comes to, case by case. -/
theorem construct_eq (b : Blueprint) : env.construct b w =
    (match env.factory w b with
    | .error cause => (.error cause, (World.note (.constructed b.kind b.name none) w).2)
    | .ok (.existing d) => (.ok d, (World.note (.constructed b.kind b.name (some d)) w).2)
    | .ok (.fresh new) => (.ok w.drivers.next,
      (World.note (.constructed b.kind b.name (some w.drivers.next)) (World.addDriver new w).2).2) :
      Except String (Ref .driver) × World) := by
  rw [construct, get_bind]
  rcases env.factory w b with cause | made | made <;> rfl

/-- A factory that makes a driver, or finds one, answers the order, and just this is logged. -/
theorem construct_ok {b : Blueprint} {d : Ref .driver} (h : env.construct b w = (.ok d, w'))
    (name : String) :
    w.Extends w' ∧ w'.log = w.log ++ [.constructed b.kind b.name (some d)] ∧
      (Delivery.driver name b d).AnsweredBy env w w' := by
  rw [construct_eq] at h
  split at h
  · cases h
  · next hmade =>
    cases h
    exact ⟨World.extends_note w _, rfl, Or.inl hmade⟩
  · next new hmade =>
    cases h
    refine ⟨(World.extends_addDriver w new).trans (World.extends_note _ _), rfl,
      Or.inr ⟨new, hmade, rfl, ?_⟩⟩
    show w.drivers.size < (w.drivers.push new).size
    simp

/-- A factory that fails has logged the order, and done nothing else. -/
theorem construct_error {b : Blueprint} {cause : String}
    (h : env.construct b w = (.error cause, w')) :
    w.Extends w' ∧ w'.log = w.log ++ [.constructed b.kind b.name none] := by
  rw [construct_eq] at h
  split at h
  · cases h
    exact ⟨World.extends_note w _, rfl⟩
  · cases h
  · cases h

/-- What asking for a connection comes to. -/
theorem connect_eq (address : String) : env.connect address w =
    (match env.connector w address with
    | .error cause => (.error cause, (World.note (.connected address none) w).2)
    | .ok c => (.ok c, (World.note (.connected address (some c)) w).2) :
      Except String Connection × World) := by
  rw [connect, get_bind]
  cases env.connector w address <;> rfl

end Environment

/-! ## One item -/

namespace Build

variable {env : Environment} {s s' : Site}

/-- A step in the world leaves the graph alone. -/
theorem onWorld_bind {α β : Type} (f : StateM World α) (g : α → Build β) :
    (onWorld f >>= g) s = g (f s.world).1 { s with world := (f s.world).2 } := rfl

theorem construct_eq (b : Blueprint) : construct env b s =
    match env.construct b s.world with
    | (.ok d, w) => .ok d { s with world := w }
    | (.error cause, w) => .error (.construct b.kind b.name cause) { s with world := w } := by
  rw [construct, onWorld_bind]
  rcases env.construct b s.world with ⟨cause | d, w⟩ <;> rfl

/-- A driver that is made and put into the graph. -/
def driver (env : Environment) (name : String) (b : Blueprint) : Build Unit := do
  let d ← construct env b
  register b.kind name d

/-- A step that builds a driver delivers one. -/
theorem driver_ok {name : String} {b : Blueprint} (h : driver env name b s = .ok () s') :
    ∃ d, Delivered env s (.driver name b d) s' := by
  obtain ⟨d, t, hd, hregister⟩ := bind_eq_ok.mp h
  rw [construct_eq] at hd
  split at hd
  case h_2 => cases hd
  case h_1 d' w hmade =>
    cases hd
    obtain ⟨hext, hlog, hanswer⟩ := Environment.construct_ok hmade name
    obtain ⟨hwires, hempty, hbehind⟩ := World.wrap_spec d b.kind w
    cases hregister
    refine ⟨d, hext.trans hwires.toExtends, hwires.sameLog.trans hlog, ?_,
      ⟨_, rfl, hext.empty hempty, hbehind⟩⟩
    -- the new handle comes after the answer and makes no driver
    rcases hanswer with hold | ⟨new, hnew, hnext, hsize⟩
    · exact Or.inl hold
    · exact Or.inr ⟨new, hnew, hnext, Nat.lt_of_lt_of_le hsize hwires.drivers⟩

/-- A driver fails only where it is made: putting it into the graph cannot fail. -/
theorem driver_refused {name : String} {b : Blueprint} {e : RobotError}
    (h : driver env name b s = .error e s') :
    ∃ cause w, env.construct b s.world = (.error cause, w) ∧
      e = .construct b.kind b.name cause ∧ s' = { s with world := w } := by
  rcases bind_eq_error.mp h with hrefused | ⟨d, t, -, hregister⟩
  · rw [construct_eq] at hrefused
    split at hrefused
    · cases hrefused
    · next cause w hmade =>
      cases hrefused
      exact ⟨cause, w, hmade, rfl, rfl⟩
  · cases hregister

/-- A step that fails to build a driver refuses it, and its error is none of closing. -/
theorem driver_error {name : String} {b : Blueprint} {e : RobotError}
    (h : driver env name b s = .error e s') : Refused s s' ∧ ¬e.OfTeardown := by
  obtain ⟨cause, w, hmade, rfl, rfl⟩ := driver_refused h
  obtain ⟨hext, hlog⟩ := Environment.construct_error hmade
  exact ⟨⟨rfl, hext, [_], hlog, by simpa using ⟨rfl, rfl, rfl⟩⟩, id⟩

theorem remote_eq (c : RemoteConfig) : remote env c s =
    match env.connector s.world c.address with
    | .error cause => .error (.remoteConnect c.address cause)
      { s with world := (World.note (.connected c.address none) s.world).2 }
    | .ok connection =>
      let w := (World.note (.connected c.address (some connection)) s.world).2
      .ok () ⟨s.graph.insert .remote c.name w.remotes.next,
        (World.addRemote ⟨c, connection⟩ w).2⟩ := by
  rw [remote, onWorld_bind, Environment.connect_eq]
  cases env.connector s.world c.address <;> rfl

theorem remote_ok {c : RemoteConfig} (h : remote env c s = .ok () s') :
    ∃ connection, Delivered env s (.remote c connection) s' := by
  rw [remote_eq] at h
  split at h
  · cases h
  · next connection hanswer =>
    cases h
    refine ⟨connection, (World.extends_note _ _).trans (World.extends_addRemote _ _), rfl, hanswer,
      ⟨_, rfl, ?_, ?_⟩⟩
    · show (s.world.remotes.get? s.world.remotes.next).map Backing.remote = none
      rw [Table.get?_next, Option.map_none]
    · show ((s.world.remotes.push _).get? s.world.remotes.next).map Backing.remote = _
      rw [Table.get?_push, if_pos rfl]
      rfl

theorem remote_error {c : RemoteConfig} {e : RobotError} (h : remote env c s = .error e s') :
    Refused s s' ∧ ¬e.OfTeardown := by
  rw [remote_eq] at h
  split at h
  · cases h
    exact ⟨⟨rfl, World.extends_note _ _, [_], rfl, by simpa using ⟨rfl, rfl, rfl⟩⟩, id⟩
  · cases h

end Build

namespace Item

variable {env : Environment} {s s' : Site}

theorem build_component (env : Environment) (c : Component) : (Item.component c).build env =
    match c.blueprint with
    | .error e => throw e
    | .ok b => Build.driver env c.name b := rfl

/-- An item that is built was delivered. -/
theorem build_ok {i : Item} (h : i.build env s = .ok () s') :
    ∃ x, i.Delivers x ∧ Delivered env s x s' := by
  cases i with
  | remote c =>
    obtain ⟨connection, hx⟩ := Build.remote_ok h
    exact ⟨_, .remote c connection, hx⟩
  | board name c =>
    cases c with
    | error e => cases h
    | ok c =>
      obtain ⟨d, hx⟩ := Build.driver_ok (b := .board c) h
      exact ⟨_, .board name c d, hx⟩
  | component c =>
    rw [build_component] at h
    cases hb : c.blueprint with
    | error e =>
      rw [hb] at h
      cases h
    | ok b =>
      rw [hb] at h
      obtain ⟨d, hx⟩ := Build.driver_ok h
      exact ⟨_, .component c b d hb, hx⟩

/-- What a blueprint is refused for has nothing to do with closing. -/
theorem not_ofTeardown_of_blueprint {c : Component} {e : RobotError} (h : c.blueprint = .error e) :
    ¬e.OfTeardown := by
  unfold Component.blueprint at h
  split at h
  all_goals try cases h
  all_goals try exact id
  split at h
  · cases h
    exact id
  · cases h

/-- An item that is not built was refused. -/
theorem build_error {i : Item} {e : RobotError} (h : i.build env s = .error e s') :
    Refused s s' ∧ ¬e.OfTeardown := by
  cases i with
  | remote c => exact Build.remote_error h
  | board name c =>
    cases c with
    | error e' =>
      cases h
      exact ⟨.refl s, id⟩
    | ok c => exact Build.driver_error (b := .board c) h
  | component c =>
    rw [build_component] at h
    cases hb : c.blueprint with
    | error e' =>
      rw [hb] at h
      cases h
      exact ⟨.refl s, not_ofTeardown_of_blueprint hb⟩
    | ok b =>
      rw [hb] at h
      exact Build.driver_error h

end Item

end RobotHost
