import RobotHost.Proofs.Graph.Steps
import RobotHost.Proofs.Process.Conservation

/-!
# The steps of a build

A build registers processes, declares the manager started and launches them, connects remotes, makes
boards and components, and names functions. For each of these steps there is one rule for each way
in which it may be taken or fail (`Build.Step.Takes`, `Build.Step.Fails`), and of a step that is due
at a site one of them holds (`Build.Step.Due.decided`).

From the rules it follows what a step leaves, and what it asks the environment for. A step that fails
leaves the graph as it is.
-/

namespace RobotHost

/-! ## Requests -/

/-- What a build asks for. -/
inductive Request where
  /-- To start the process of an id. -/
  | start (id : String)
  | connect (address : String)
  | construct (kind : DriverKind) (name : String)

/-- How the log tells of a request, however it was answered. -/
inductive Event.Tells (w : World) : Event → Request → Prop
  | start {p : Ref .process} {q : Process} (hq : w.processes.get? p = some q) :
    Tells w (.started p) (.start q.id)
  | connect (address : String) (outcome : Option Connection) :
    Tells w (.connected address outcome) (.connect address)
  | construct (kind : DriverKind) (name : String) (outcome : Option (Ref .driver)) :
    Tells w (.constructed kind name outcome) (.construct kind name)

/-- From one world to the next these requests were made in turn, and nothing else was logged. -/
def World.Requested (w : World) (rs : List Request) (u : World) : Prop :=
  ∃ es, u.log = w.log ++ es ∧ List.Forall₂ (Event.Tells u) es rs

theorem Event.Tells.mono {w u : World} {event : Event} {r : Request} (h : event.Tells w r)
    (hu : w.Recalls u) : event.Tells u r := by
  cases h with
  | @start p q hq =>
    obtain ⟨q', hq', hid⟩ := hu.processes p q hq
    rw [← hid]
    exact .start hq'
  | connect address outcome => exact .connect address outcome
  | construct kind name outcome => exact .construct kind name outcome

namespace World

variable {w v u : World} {rs rs' : List Request}

theorem requested_nil (h : u.log = w.log) : w.Requested [] u :=
  ⟨[], by rw [h, List.append_nil], .nil⟩

theorem requested_one {event : Event} {r : Request} (h : u.log = w.log ++ [event])
    (hr : event.Tells u r) : w.Requested [r] u :=
  ⟨[event], h, .cons hr .nil⟩

/-- Requests of two steps are made in turn. -/
theorem Requested.trans (h : w.Requested rs v) (hu : v.Recalls u) (h' : v.Requested rs' u) :
    w.Requested (rs ++ rs') u := by
  obtain ⟨es, hes, htell⟩ := h
  obtain ⟨es', hes', htell'⟩ := h'
  refine ⟨es ++ es', by rw [hes', hes, List.append_assoc], ?_⟩
  exact List.rel_append (htell.imp fun _ _ ht => ht.mono hu) htell'

end World

namespace Build

/-! ## Steps -/

inductive Step where
  | register (c : ProcessConfig)
  /-- From here on the manager counts as started. -/
  | ready
  | launch (id : String)
  | connect (c : RemoteConfig)
  | board (c : BoardConfig)
  | component (c : Component)
  | function (name : String)

namespace Step

/-- Where the part goes that comes of a step. -/
def key? : Step → Option (Kind × String)
  | connect c => some (.remote, c.name)
  | board c => some (.driver .board, c.name)
  | component c => c.type.driverKind?.map fun k => (.driver k, c.name)
  | register _ | ready | launch _ | function _ => none

/-- What a step asks for. A component that has no order is not asked for. -/
def request? : Step → Option Request
  | launch id => some (.start id)
  | connect c => some (.connect c.address)
  | board c => some (.construct .board c.name)
  | component c => c.blueprint.toOption.map fun b => .construct b.kind c.name
  | register _ | ready | function _ => none

variable (env : Environment)

/-- What comes of a step that is taken. -/
inductive Takes : Site → Step → Site → Prop
  | register {g : Graph} {w : World} {c : ProcessConfig} (hstarted : g.manager.started = false)
    (hfree : c.id ∉ g.manager.processes.names) :
    Takes ⟨g, w⟩ (.register c)
      ⟨{ g with manager.processes := g.manager.processes.insert c.id w.processes.next },
        (World.addProcess (.program { config := c }) w).2⟩
  | ready {g : Graph} {w : World} :
    Takes ⟨g, w⟩ .ready ⟨{ g with manager := g.manager.startedUp }, w⟩
  | launch {g : Graph} {w u : World} {id : String} {p : Ref .process}
    (hp : g.manager.get? id = some p) (hstart : World.start env.host p w = .ok () u) :
    Takes ⟨g, w⟩ (.launch id) ⟨g, u⟩
  | connect {g : Graph} {w u : World} {c : RemoteConfig} {connection : Connection}
    (hmade : env.connect c.address w = (.ok connection, u)) :
    Takes ⟨g, w⟩ (.connect c) ⟨g.insert .remote c.name (World.addRemote ⟨c, connection⟩ u).1,
      (World.addRemote ⟨c, connection⟩ u).2⟩
  | board {g : Graph} {w u : World} {c : BoardConfig} {d : Ref .driver}
    (hmade : env.construct (.board c) w = (.ok d, u)) :
    Takes ⟨g, w⟩ (.board c) ⟨g.insert (.driver .board) c.name (World.wrap d .board u).1,
      (World.wrap d .board u).2⟩
  | component {g : Graph} {w u : World} {c : Component} {b : Blueprint} {d : Ref .driver}
    (hb : c.blueprint = .ok b) (hmade : env.construct b w = (.ok d, u)) :
    Takes ⟨g, w⟩ (.component c) ⟨g.insert (.driver b.kind) c.name (World.wrap d b.kind u).1,
      (World.wrap d b.kind u).2⟩
  | function {g : Graph} {w : World} {name : String} :
    Takes ⟨g, w⟩ (.function name) ⟨g.insertFunction name, w⟩

/-- The error of a step that fails, and what it leaves behind. -/
inductive Fails : Site → Step → RobotError → Site → Prop
  /-- An id is registered twice. -/
  | taken {g : Graph} {w : World} {c : ProcessConfig} (hstarted : g.manager.started = false)
    (htaken : c.id ∈ g.manager.processes.names) :
    Fails ⟨g, w⟩ (.register c) (.process (.alreadyExists c.id))
      ⟨g, (World.addProcess (.program { config := c }) w).2⟩
  | stalled {g : Graph} {w u : World} {id : String} {p : Ref .process} {e : ProcessError}
    (hp : g.manager.get? id = some p) (hstart : World.start env.host p w = .error e u) :
    Fails ⟨g, w⟩ (.launch id) (.process e) ⟨g, u⟩
  | unanswered {g : Graph} {w u : World} {c : RemoteConfig} {cause : String}
    (hmade : env.connect c.address w = (.error cause, u)) :
    Fails ⟨g, w⟩ (.connect c) (.remoteConnect c.address cause) ⟨g, u⟩
  | unmadeBoard {g : Graph} {w u : World} {c : BoardConfig} {cause : String}
    (hmade : env.construct (.board c) w = (.error cause, u)) :
    Fails ⟨g, w⟩ (.board c) (.construct .board c.name cause) ⟨g, u⟩
  | unmade {g : Graph} {w u : World} {c : Component} {b : Blueprint} {cause : String}
    (hb : c.blueprint = .ok b) (hmade : env.construct b w = (.error cause, u)) :
    Fails ⟨g, w⟩ (.component c) (.construct b.kind c.name cause) ⟨g, u⟩
  /-- A sensor has to say what it measures. -/
  | vague {g : Graph} {w : World} {c : Component} (htype : c.type = .sensor)
    (hsubtype : c.subtype = "") :
    Fails ⟨g, w⟩ (.component c) (.missingSubtype c.name) ⟨g, w⟩
  /-- Boards are declared apart, and other types are not known. -/
  | unknown {g : Graph} {w : World} {c : Component}
    (htype : c.type = .board ∨ ∃ name, c.type = .other name) :
    Fails ⟨g, w⟩ (.component c) (.unknownComponentType c.name c.type.text) ⟨g, w⟩

end Step

variable {env : Environment} {s t u : Site} {x : Step} {e : RobotError}

/-! ## Steps as they are done -/

/-- A component that has no order fails at its turn. -/
theorem Step.fails_of_blueprint {c : Component} (h : c.blueprint = .error e) (s : Site) :
    Fails env s (.component c) e s := by
  unfold Component.blueprint at h
  cases htype : c.type <;> simp only [htype] at h
  case sensor =>
    split at h
    · next hsubtype =>
      cases h
      exact .vague htype (String.isEmpty_iff.mp hsubtype)
    · cases h
  case board =>
    cases h
    have hfails : Fails env s (.component c) _ s := .unknown (.inl htype)
    rwa [htype] at hfails
  case other name =>
    cases h
    have hfails : Fails env s (.component c) _ s := .unknown (.inr ⟨name, htype⟩)
    rwa [htype] at hfails
  all_goals cases h

/-- What registers a process in a manager that was not started. -/
theorem addProgram_of_not_started (h : Host) (c : ProcessConfig) (s : Site)
    (hstarted : s.graph.manager.started = false) :
    (do let _ ← addProgram h c : Build Unit) s =
      if c.id ∈ s.graph.manager.processes.names then
        .error (.process (.alreadyExists c.id))
          ⟨s.graph, (World.addProcess (.program { config := c }) s.world).2⟩
      else .ok () ⟨{ s.graph with
          manager.processes := s.graph.manager.processes.insert c.id s.world.processes.next },
        (World.addProcess (.program { config := c }) s.world).2⟩ := by
  have hid : (World.addProcess (.program { config := c }) s.world).2.processId
      s.world.processes.next = c.id := by
    show ((((s.world.processes.push _).get? s.world.processes.next).map Process.id).getD "") = _
    rw [Table.get?_push, if_pos rfl]
    rfl
  show EStateM.bind (addProgram h c) (fun _ => pure ()) s = _
  unfold EStateM.bind
  rw [addProgram_eq, ProcessManager.addProgram_eq, ProcessManager.add_of_not_started h hstarted, hid]
  by_cases hmem : c.id ∈ s.graph.manager.processes.names
  · rw [if_pos hmem, if_pos ((NameMap.contains_iff _).mpr hmem)]
  · rw [if_neg hmem, if_neg (mt (NameMap.contains_iff _).mp hmem)]
    rfl

theorem remote_of_connect (env : Environment) (c : RemoteConfig) (s : Site) :
    remote env c s =
      match env.connect c.address s.world with
      | (.error cause, u) => .error (.remoteConnect c.address cause) ⟨s.graph, u⟩
      | (.ok connection, u) => .ok () ⟨s.graph.insert .remote c.name
          (World.addRemote ⟨c, connection⟩ u).1, (World.addRemote ⟨c, connection⟩ u).2⟩ := by
  rw [remote, onWorld_bind]
  rcases env.connect c.address s.world with ⟨cause | connection, u⟩ <;> rfl

theorem driver_of_construct (env : Environment) (name : String) (b : Blueprint) (s : Site) :
    driver env name b s =
      match env.construct b s.world with
      | (.error cause, u) => .error (.construct b.kind b.name cause) ⟨s.graph, u⟩
      | (.ok d, u) => .ok () ⟨s.graph.insert (.driver b.kind) name (World.wrap d b.kind u).1,
          (World.wrap d b.kind u).2⟩ := by
  show EStateM.bind (construct env b) _ s = _
  rw [EStateM.bind, construct_eq]
  rcases env.construct b s.world with ⟨cause | d, u⟩ <;> rfl

/-- What is done for a step. -/
def Step.attempt (env : Environment) : Step → Build Unit
  | .register c => do let _ ← addProgram env.host c
  | .ready => onGraph fun g => { g with manager := g.manager.startedUp }
  | .launch id => fun s =>
    match s.graph.manager.get? id with
    | some p => onProcesses (World.start env.host p) s
    | none => .ok () s
  | .connect c => remote env c
  | .board c => Build.board env c.name c
  | .component c => Build.component env c.name c
  | .function name => onGraph fun g => g.insertFunction name

/-- Processes are registered before the manager counts as started, and launched once registered. -/
def Step.Due (s : Site) : Step → Prop
  | .register _ => s.graph.manager.started = false
  | .launch id => id ∈ s.graph.manager.processes.names
  | _ => True

/-- A step that can be taken is what the attempt comes to. -/
theorem Step.Takes.attempt_eq (hx : x.Takes env s t) : x.attempt env s = .ok () t := by
  cases hx with
  | register hstarted hfree =>
    exact (addProgram_of_not_started env.host _ _ hstarted).trans (if_neg hfree)
  | ready | function => rfl
  | launch hp hstart =>
    simp only [attempt, hp, onProcesses, hstart]
  | connect hmade =>
    show remote env _ _ = _
    rw [remote_of_connect]
    simp only [hmade]
  | board hmade =>
    show driver env _ (.board _) _ = _
    rw [driver_of_construct]
    simp only [hmade]
    rfl
  | component hb hmade =>
    show Item.build env (.component _) _ = _
    rw [Item.build_component, hb]
    simp only [driver_of_construct, hmade]

theorem Step.Fails.attempt_eq (hx : x.Fails env s e t) : x.attempt env s = .error e t := by
  cases hx with
  | taken hstarted htaken =>
    exact (addProgram_of_not_started env.host _ _ hstarted).trans (if_pos htaken)
  | stalled hp hstart =>
    simp only [attempt, hp, onProcesses, hstart]
  | unanswered hmade =>
    show remote env _ _ = _
    rw [remote_of_connect]
    simp only [hmade]
  | unmadeBoard hmade =>
    show driver env _ (.board _) _ = _
    rw [driver_of_construct]
    simp only [hmade]
    rfl
  | unmade hb hmade =>
    show Item.build env (.component _) _ = _
    rw [Item.build_component, hb]
    simp only [driver_of_construct, hmade, (Component.blueprint_names hb).2]
  | vague htype hsubtype =>
    show Item.build env (.component _) _ = _
    rw [Item.build_component, Component.blueprint, htype, hsubtype]
    rfl
  | unknown htype =>
    show Item.build env (.component _) _ = _
    rw [Item.build_component, Component.blueprint]
    rcases htype with htype | ⟨name, htype⟩ <;> rw [htype] <;> rfl

/-- A step that is due is taken or fails. -/
theorem Step.Due.decided (hx : x.Due s) (env : Environment) :
    (∃ t, x.Takes env s t) ∨ ∃ e t, x.Fails env s e t := by
  -- a step asks its question, and either answer is one of the rules
  cases x with
  | register c =>
    by_cases hmem : c.id ∈ s.graph.manager.processes.names
    · exact .inr ⟨_, _, .taken hx hmem⟩
    · exact .inl ⟨_, .register hx hmem⟩
  | ready => exact .inl ⟨_, .ready⟩
  | launch id =>
    obtain ⟨p, hp⟩ := (NameMap.mem_names_iff _).mp hx
    cases hstart : World.start env.host p s.world with
    | ok _ u => exact .inl ⟨_, .launch hp hstart⟩
    | error e u => exact .inr ⟨_, _, .stalled hp hstart⟩
  | connect c =>
    rcases hmade : env.connect c.address s.world with ⟨cause | connection, u⟩
    · exact .inr ⟨_, _, .unanswered hmade⟩
    · exact .inl ⟨_, .connect hmade⟩
  | board c =>
    rcases hmade : env.construct (.board c) s.world with ⟨cause | d, u⟩
    · exact .inr ⟨_, _, .unmadeBoard hmade⟩
    · exact .inl ⟨_, .board hmade⟩
  | component c =>
    cases hb : c.blueprint with
    | error e => exact .inr ⟨_, _, fails_of_blueprint hb s⟩
    | ok b =>
      rcases hmade : env.construct b s.world with ⟨cause | d, u⟩
      · exact .inr ⟨_, _, .unmade hb hmade⟩
      · exact .inl ⟨_, .component hb hmade⟩
  | function name => exact .inl ⟨_, .function⟩

/-! ## What a step leaves -/

/-- A driver is asked for, whether it is made or not. -/
theorem construct_asks {b : Blueprint} {w u : World} {outcome : Except String (Ref .driver)}
    (h : env.construct b w = (outcome, u)) :
    w.Extends u ∧ w.Requested [.construct b.kind b.name] u := by
  cases outcome with
  | error cause =>
    obtain ⟨hw, hlog⟩ := Environment.construct_error h
    exact ⟨hw, World.requested_one hlog (.construct _ _ _)⟩
  | ok d =>
    obtain ⟨hw, hlog, -⟩ := Environment.construct_ok h b.name
    exact ⟨hw, World.requested_one hlog (.construct _ _ _)⟩

/-- A connection is asked for, whether the address answers or not. -/
theorem connect_asks {address : String} {w u : World} {outcome : Except String Connection}
    (h : env.connect address w = (outcome, u)) :
    w.Extends u ∧ w.Requested [.connect address] u := by
  rw [Environment.connect_eq] at h
  split at h
  · cases h
    exact ⟨World.extends_note _ _, World.requested_one rfl (.connect _ _)⟩
  · cases h
    exact ⟨World.extends_note _ _, World.requested_one rfl (.connect _ _)⟩

namespace Step

/-- What comes of a step with a key is delivered under it. -/
theorem Takes.delivered (hx : x.Takes env s t) {key : Kind × String} (hkey : x.key? = some key) :
    ∃ d, Delivered env s d t ∧ d.key = key := by
  have hitem : ∀ i : Item, i.build env s = .ok () t → i.key? = some key →
      ∃ d, Delivered env s d t ∧ d.key = key := by
    intro i hi hikey
    obtain ⟨d, hd, hdelivered⟩ := Item.build_ok hi
    rw [hd.key] at hikey
    exact ⟨d, hdelivered, Option.some.inj hikey⟩
  cases x with
  | connect c => exact hitem (.remote c) hx.attempt_eq hkey
  | board c => exact hitem (.board c.name (.ok c)) hx.attempt_eq hkey
  | component c => exact hitem (.component c) hx.attempt_eq hkey
  | register | ready | launch | function => cases hkey

/-- A step without a key leaves all parts as they are. -/
theorem Takes.parts (hx : x.Takes env s t) (hkey : x.key? = none) :
    (∀ k, t.graph.entries k = s.graph.entries k) ∧ s.world.Extends t.world := by
  cases hx with
  | @register g w c =>
    exact ⟨Graph.entries_with g g.functions _, World.extends_addProcess _ _⟩
  | @ready g w => exact ⟨Graph.entries_with g g.functions _, .refl _⟩
  | launch hp hstart =>
    exact ⟨fun _ => rfl, ((World.start_launches env.host _).of_ok hstart).extends⟩
  | @function g w name => exact ⟨Graph.entries_with g _ g.manager, .refl _⟩
  | connect | board => cases hkey
  | component hb =>
    rw [key?, Component.driverKind?_of_blueprint hb] at hkey
    cases hkey

/-- A step that is taken exchanges nothing. -/
theorem Takes.extends (hx : x.Takes env s t) : s.world.Extends t.world := by
  cases hkey : x.key? with
  | none => exact (hx.parts hkey).2
  | some key =>
    obtain ⟨d, hd, -⟩ := hx.delivered hkey
    exact hd.world

/-- What stands under other keys is left alone. -/
theorem Takes.get?_of_ne (hx : x.Takes env s t) {k : Kind} {name : String}
    (hkey : x.key? ≠ some (k, name)) :
    (t.graph.entries k).get? name = (s.graph.entries k).get? name := by
  cases hxkey : x.key? with
  | none => rw [(hx.parts hxkey).1]
  | some key =>
    obtain ⟨d, hd, rfl⟩ := hx.delivered hxkey
    obtain ⟨h, hgraph, -, -⟩ := hd.handle
    have hne : d.key ≠ (k, name) := fun heq => hkey (hxkey.trans (congrArg some heq))
    rw [hgraph]
    by_cases hk : k = d.kind
    · subst hk
      have hname : d.name ≠ name := fun heq => hne (by rw [Delivery.key, heq])
      rw [Graph.entries_insert_self, NameMap.get?_insert, if_neg hname]
    · rw [Graph.entries_insert_of_ne _ _ _ hk]

/-- Processes come by being registered. -/
theorem Takes.mem_processes (hx : x.Takes env s t) {id : String} :
    id ∈ t.graph.manager.processes.names ↔
      id ∈ s.graph.manager.processes.names ∨ ∃ c, x = .register c ∧ c.id = id := by
  cases hx with
  | @register g w c =>
    show id ∈ (g.manager.processes.insert c.id w.processes.next).names ↔ _
    rw [NameMap.mem_names_insert, or_comm]
    simp [eq_comm]
  | ready | launch | function => simp [ProcessManager.startedUp, Graph.insertFunction]
  | connect | board | component => simp

/-- Only one step makes a manager count as started. -/
theorem Takes.started (hx : x.Takes env s t) :
    t.graph.manager.started = true ↔ s.graph.manager.started = true ∨ x = .ready := by
  cases hx with
  | register | ready | launch | function =>
    simp [ProcessManager.startedUp, Graph.insertFunction]
  | connect | board | component => simp

/-- Only the step of a function adds its name. -/
theorem Takes.mem_functions (hx : x.Takes env s t) {name : String} :
    name ∈ t.graph.functions.names ↔ name ∈ s.graph.functions.names ∨ x = .function name := by
  cases hx with
  | @function g w other =>
    show name ∈ (g.functions.insert other ()).names ↔ _
    rw [NameMap.mem_names_insert, or_comm]
    simp [eq_comm]
  | register | ready | launch => simp
  | connect | board | component => simp

/-- Each process stands under its id. -/
theorem Takes.keyed (hx : x.Takes env s t) (hs : s.graph.manager.Keyed s.world) :
    t.graph.manager.Keyed t.world := by
  have hkept := hs.recalls hx.extends.toRecalls
  cases hx with
  | @register g w c =>
    have hnew : (World.addProcess (.program { config := c }) w).2.processes.get?
        w.processes.next = some (.program { config := c }) := by
      show (w.processes.push _).get? _ = _
      rw [Table.get?_push, if_pos rfl]
    exact hkept.insert hnew
  | ready | launch | function => exact hkept
  | connect | board | component =>
    rw [Graph.manager_insert]
    exact hkept

/-- Processes that are registered are new. -/
theorem Takes.hired (hx : x.Takes env s t) {id : String} {p : Ref .process}
    (hp : t.graph.manager.get? id = some p) :
    s.graph.manager.get? id = some p ∨ s.world.processes.get? p = none := by
  cases hx with
  | @register g w c =>
    rw [ProcessManager.get?, NameMap.get?_insert] at hp
    split at hp
    · cases hp
      exact .inr (Table.get?_next _)
    · exact .inl hp
  | ready | launch | function => exact .inl hp
  | connect | board | component =>
    rw [Graph.manager_insert] at hp
    exact .inl hp

/-- A step that fails leaves the graph as it is. -/
theorem Fails.graph (hx : x.Fails env s e t) : t.graph = s.graph := by
  cases hx <;> rfl

/-- A step that fails takes nothing away from the world. -/
theorem Fails.recalls (hx : x.Fails env s e t) : s.world.Recalls t.world := by
  cases hx with
  | taken => exact (World.extends_addProcess _ _).toRecalls
  | stalled hp hstart =>
    exact ((World.start_launches env.host _).of_error hstart).extends.toRecalls
  | unanswered hmade => exact (connect_asks hmade).1.toRecalls
  | unmadeBoard hmade => exact (construct_asks hmade).1.toRecalls
  | unmade hb hmade => exact (construct_asks hmade).1.toRecalls
  | vague | unknown => exact .refl _

end Step

/-! ## What a step asks for -/

/-- A process that is managed is asked to start, whether it does or not. -/
theorem start_requested {g : Graph} {w : World} (hg : g.manager.Keyed w) (h : Host) {id : String}
    {p : Ref .process} (hp : g.manager.get? id = some p) :
    w.Requested [.start id] (stateAfter (World.start h p w)) := by
  obtain ⟨q, hq, rfl⟩ := hg id p hp
  obtain ⟨q', hq', hid⟩ := (World.start_launches h p w).processes p q hq
  rw [← hid]
  exact World.requested_one (World.start_log hq) (.start hq')

theorem Step.filterMap_request?_one (x : Step) :
    [x].filterMap request? = x.request?.toList := by
  cases hx : x.request? <;> simp [hx]

/-- What is asked for by a step that is taken. -/
theorem Step.Takes.requested (hx : x.Takes env s t) (hs : s.graph.manager.Keyed s.world) :
    s.world.Requested x.request?.toList t.world := by
  cases hx with
  | register | ready | function => exact World.requested_nil rfl
  | launch hp hstart =>
    have hasked := start_requested hs env.host hp
    rwa [hstart] at hasked
  | connect hmade =>
    exact (connect_asks hmade).2.trans (World.extends_addRemote _ _).toRecalls
      (World.requested_nil rfl)
  -- to wrap the driver in a handle asks for nothing more
  | @board g w u c d hmade =>
    obtain ⟨hwires, -, -⟩ := World.wrap_spec d .board u
    exact (construct_asks hmade).2.trans hwires.toRecalls (World.requested_nil hwires.sameLog)
  | @component g w u c b d hb hmade =>
    obtain ⟨hwires, -, -⟩ := World.wrap_spec d b.kind u
    have hasked := (construct_asks hmade).2.trans hwires.toRecalls
      (World.requested_nil hwires.sameLog)
    rw [request?, hb, ← (Component.blueprint_names hb).2]
    exact hasked

/-- A step that fails has asked all the same. -/
theorem Step.Fails.requested (hx : x.Fails env s e t) (hs : s.graph.manager.Keyed s.world) :
    s.world.Requested x.request?.toList t.world := by
  cases hx with
  | taken => exact World.requested_nil rfl
  | stalled hp hstart =>
    have hasked := start_requested hs env.host hp
    rwa [hstart] at hasked
  | unanswered hmade => exact (connect_asks hmade).2
  | unmadeBoard hmade => exact (construct_asks hmade).2
  | unmade hb hmade =>
    rw [request?, hb, ← (Component.blueprint_names hb).2]
    exact (construct_asks hmade).2
  | vague htype hsubtype =>
    rw [request?, Component.blueprint, htype, hsubtype]
    exact World.requested_nil rfl
  | unknown htype =>
    rw [request?, Component.blueprint]
    rcases htype with htype | ⟨name, htype⟩ <;> rw [htype] <;> exact World.requested_nil rfl

end Build

end RobotHost
