import RobotHost.Proofs.Graph.Finding
import RobotHost.Proofs.Graph.Steps

/-!
# What a selection comes to

Selecting makes nothing but new handles, so the world is wired up and no more
(`Graph.selectConfig_selects`). The graph that comes of it has the remotes, functions and processes
that were named and that the graph has which was selected from, and of drivers those that were named
and are found there, each under a new handle (`Graph.select_ok`).

A name is looked for among a graph's own parts first, so what the graph has itself is selected if it
is named (`Graph.Selected.serves`). What lies behind remotes may come besides. A selection fails
only if a process is named twice or a type names no kind of driver (`Graph.exists_select_eq_ok`).
-/

namespace RobotHost

open Build

/-- The world around a site was wired up; processes that may have been selected were not started. -/
structure Selects (s s' : Site) : Prop where
  world : s.graph.manager.started = false → s.world.Wires s'.world
  started : s.graph.manager.started = false → s'.graph.manager.started = false

namespace Selects

theorem refl (s : Site) : Selects s s := ⟨fun _ => .refl _, id⟩

theorem trans {s t u : Site} (h : Selects s t) (h' : Selects t u) : Selects s u where
  world := fun hs => (h.world hs).trans (h'.world (h.started hs))
  started := fun hs => h'.started (h.started hs)

end Selects

namespace Graph

variable {g : Graph} {w : World} {s s' : Site}

/-! ## Single steps -/

/-- A process that is selected is put in under its id, unless one of this id was. -/
theorem selectProcess_eq (h : Host) (g : Graph) (id : String)
    (hs : s.graph.manager.started = false) :
    g.selectProcess h id s =
      match g.manager.get? id with
      | none => .ok () s
      | some p =>
        if s.graph.manager.processes.contains (s.world.processId p) then
          .error (.process (.alreadyExists (s.world.processId p))) s
        else .ok () { s with graph := { s.graph with manager := { s.graph.manager with
          processes := s.graph.manager.processes.insert (s.world.processId p) p } } } := by
  unfold selectProcess
  cases g.manager.get? id with
  | none => rfl
  | some p =>
    show EStateM.bind (addProcess h p false) _ s = _
    unfold EStateM.bind
    -- the manager of a selection is not started, so the process is not either
    rw [addProcess_eq, ProcessManager.add_of_not_started h hs]
    by_cases hc : s.graph.manager.processes.contains (s.world.processId p) = true
    · simp only [if_pos hc]
    · simp only [if_neg hc]
      rfl

/-- A remote robot is selected with the handle that the graph has for it. -/
theorem selectRemote_eq (g : Graph) (name : String) :
    g.selectRemote name s =
      match (g.entries .remote).get? name with
      | none => .ok () s
      | some h =>
        match s.world.remotes.get? h with
        | none => .ok () s
        | some remote =>
          .ok () { s with graph := s.graph.insert .remote remote.config.name h } := by
  rw [selectRemote, show g.entries .remote = g.remotes from rfl]
  cases g.remotes.get? name with
  | none => rfl
  | some h =>
    dsimp only
    rw [addRemote, read_bind]
    cases s.world.remotes.get? h <;> rfl

/-- A driver is selected with a new handle, wherever the graph finds it. -/
theorem selectDriver_eq (g : Graph) (k : DriverKind) (name : String) :
    g.selectDriver k name s =
      match g.find? s.world (.driver k) name with
      | none => .ok () s
      | some h =>
        match World.rewrap k h s.world with
        | (none, w) => .ok () { s with world := w }
        | (some h', w) => .ok () ⟨s.graph.insert (.driver k) name h', w⟩ := by
  rw [selectDriver, read_bind]
  cases g.find? s.world (.driver k) name with
  | none => rfl
  | some h =>
    dsimp only
    rw [onWorld_bind]
    rcases World.rewrap k h s.world with ⟨h' | h', w⟩ <;> rfl

/-- A process is selected without being started. -/
theorem selectProcess_selects (h : Host) (g : Graph) (id : String) :
    Along Selects (g.selectProcess h id) := by
  intro s
  by_cases hs : s.graph.manager.started = false
  · rw [selectProcess_eq h g id hs]
    split
    · exact .refl s
    · split
      · exact .refl s
      · exact ⟨fun _ => .refl _, fun _ => hs⟩
  · exact ⟨fun h => absurd h hs, fun h => absurd h hs⟩

theorem selectRemote_selects (g : Graph) (name : String) : Along Selects (g.selectRemote name) := by
  intro s
  rw [selectRemote_eq]
  split
  · exact .refl s
  · split
    · exact .refl s
    · exact ⟨fun _ => .refl _, fun hs => by rw [← hs]; exact congrArg _ (manager_insert _ _ _ _)⟩

theorem selectDriver_selects (g : Graph) (k : DriverKind) (name : String) :
    Along Selects (g.selectDriver k name) := by
  intro s
  rw [selectDriver_eq]
  split
  · exact .refl s
  · next h _ =>
    have hwires := World.rewrap_wires k h s.world
    split
    · next hrewrap =>
      rw [hrewrap] at hwires
      exact ⟨fun _ => hwires, id⟩
    · next hrewrap =>
      rw [hrewrap] at hwires
      exact ⟨fun _ => hwires, fun hs => by rw [← hs]; exact congrArg _ (manager_insert _ _ _ _)⟩

/-! ## Whole selections -/

/-- Selects what an item is about. -/
def selectItem (g : Graph) : Item → Build Unit
  | .remote c => g.selectRemote c.name
  | .board name _ => g.selectDriver .board name
  | .component c => g.selectComponent c

/-- A selection goes through processes, then items, and then functions. -/
theorem selectConfig_eq (h : Host) (g : Graph) (c : Config) :
    g.selectConfig h c = (do
      each (fun p => g.selectProcess h p.id) c.processes
      each g.selectItem (c.remotes.map .remote ++ c.boards.map (fun b => .board b.name (.ok b)) ++
        c.components.map .component)
      each (fun f => g.selectFunction f.name) c.functions) := by
  simp only [selectConfig, each_append, each_map, bind_assoc]
  rfl

theorem selectItem_selects (g : Graph) (i : Item) : Along Selects (g.selectItem i) := by
  cases i with
  | remote c => exact selectRemote_selects g c.name
  | board name _ => exact selectDriver_selects g .board name
  | component c =>
    show Along Selects (g.selectComponent c)
    unfold selectComponent
    split
    · exact selectDriver_selects g _ c.name
    · exact fun s => .refl s

theorem selectFunction_selects (g : Graph) (name : String) :
    Along Selects (g.selectFunction name) := by
  intro s
  unfold selectFunction
  split
  · exact ⟨fun _ => .refl _, id⟩
  · exact .refl s

/-- A whole selection does no more than wire handles up. -/
theorem selectConfig_selects (h : Host) (g : Graph) (c : Config) :
    Along Selects (g.selectConfig h c) := by
  rw [selectConfig_eq]
  refine (each_along .refl (fun _ _ _ => .trans) (fun p : ProcessConfig =>
    selectProcess_selects h g p.id) _).bind
    (fun _ _ _ => .trans) fun _ => ?_
  refine (each_along .refl (fun _ _ _ => .trans) (selectItem_selects g) _).bind
    (fun _ _ _ => .trans) fun _ => ?_
  exact each_along .refl (fun _ _ _ => .trans) (fun f : FunctionConfig =>
    selectFunction_selects g f.name) _

/-- What was selected of the parts of a graph, once these keys were gone through. -/
structure Selection (g : Graph) (w : World) (m : ProcessManager) (done : List (Kind × String))
    (s : Site) : Prop where
  manager : s.graph.manager = m
  functions : s.graph.functions = .empty
  world : w.Wires s.world
  remotes : ∀ name h, (s.graph.entries .remote).get? name = some h ↔
    (.remote, name) ∈ done ∧ (g.entries .remote).get? name = some h
  drivers : ∀ k name h', (s.graph.entries (.driver k)).get? name = some h' →
    (.driver k, name) ∈ done ∧
      ∃ h, g.find? w (.driver k) name = some h ∧ w.Copies s.world k h h'
  found : ∀ k name h x, (.driver k, name) ∈ done → g.find? w (.driver k) name = some h →
    w.behind? (Kind.slot (.driver k) h) = some x → (.driver k, name) ∈ s.graph.keys

namespace Selection

variable {m : ProcessManager} {done : List (Kind × String)} {name : String}

/-- A remote that the graph does not have is passed over. -/
theorem skipRemote (hs : Selection g w m done s)
    (hnone : (g.entries .remote).get? name = none) :
    Selection g w m (done ++ [(.remote, name)]) s where
  manager := hs.manager
  functions := hs.functions
  world := hs.world
  remotes := by
    intro name' h
    rw [hs.remotes, List.mem_append, List.mem_singleton]
    refine ⟨fun hh => ⟨Or.inl hh.1, hh.2⟩, ?_⟩
    -- the name was not found, so that no handle stands under it
    rintro ⟨hmem | heq, hh⟩
    · exact ⟨hmem, hh⟩
    · cases heq
      rw [hnone] at hh
      cases hh
  drivers := fun k name' h' hh' =>
    (hs.drivers k name' h' hh').imp_left (List.mem_append_left _)
  found := by
    intro k name' h x hmem
    rcases List.mem_append.mp hmem with hmem | hmem
    · exact hs.found k name' h x hmem
    · cases List.mem_singleton.mp hmem

/-- A remote is put in as it is. -/
theorem insertRemote (hs : Selection g w m done s) {h : Kind.remote.Handle}
    (hh : (g.entries .remote).get? name = some h) :
    Selection g w m (done ++ [(.remote, name)])
      { s with graph := s.graph.insert .remote name h } where
  manager := (manager_insert _ _ _ _).trans hs.manager
  functions := (functions_insert _ _ _ _).trans hs.functions
  world := hs.world
  remotes := by
    intro name' h'
    show ((s.graph.insert .remote name h).entries .remote).get? name' = some h' ↔ _
    rw [entries_insert_self, NameMap.get?_insert, List.mem_append, List.mem_singleton]
    by_cases hname : name = name'
    · subst hname
      simp [hh]
    · have hname' : ¬name' = name := fun heq => hname heq.symm
      simpa [hname, hname'] using hs.remotes name' h'
  drivers := by
    intro k name' h' hh'
    have hh' : ((s.graph.insert .remote name h).entries (.driver k)).get? name' = some h' := hh'
    -- a remote robot is none of the drivers, so their entries stay
    rw [entries_insert_of_ne s.graph name h (nofun : Kind.driver k ≠ .remote)] at hh'
    exact (hs.drivers k name' h' hh').imp_left (List.mem_append_left _)
  found := by
    intro k name' h' x hmem hfind hx
    rcases List.mem_append.mp hmem with hmem | hmem
    · exact mem_keys_insert.mpr (Or.inr (hs.found k name' h' x hmem hfind hx))
    · cases List.mem_singleton.mp hmem

/-- A driver is passed over under whose name nothing is found that stands for anything. -/
theorem skipDriver (hs : Selection g w m done s) {k : DriverKind}
    (hnone : ∀ h, g.find? w (.driver k) name = some h →
      w.behind? (Kind.slot (.driver k) h) = none) :
    Selection g w m (done ++ [(.driver k, name)]) s where
  manager := hs.manager
  functions := hs.functions
  world := hs.world
  remotes := by
    intro name' h
    simp [hs.remotes]
  drivers := fun k name' h' hh' =>
    (hs.drivers k name' h' hh').imp_left (List.mem_append_left _)
  found := by
    intro k' name' h x hmem hfind hx
    rcases List.mem_append.mp hmem with hmem | hmem
    · exact hs.found k' name' h x hmem hfind hx
    · cases List.mem_singleton.mp hmem
      rw [hnone h hfind] at hx
      cases hx

/-- A driver is put in under a handle that was made anew from what is found under its name. -/
theorem insertDriver (hs : Selection g w m done s) {w' : World} (hw : s.world.Wires w')
    {k : DriverKind} {h h' : (Kind.driver k).Handle} (hfind : g.find? w (.driver k) name = some h)
    (hcopies : s.world.Copies w' k h h') :
    Selection g w m (done ++ [(.driver k, name)])
      ⟨s.graph.insert (.driver k) name h', w'⟩ where
  manager := (manager_insert _ _ _ _).trans hs.manager
  functions := (functions_insert _ _ _ _).trans hs.functions
  world := hs.world.trans hw
  remotes := by
    intro name' r
    show ((s.graph.insert (.driver k) name h').entries .remote).get? name' = some r ↔ _
    rw [entries_insert_of_ne s.graph name h' (nofun : Kind.remote ≠ .driver k), hs.remotes]
    simp
  drivers := by
    -- what is said of each part, so that it can be said of the new one and the others in turn
    have hall : ∀ k' name' (x : k'.Handle),
        ((s.graph.insert (.driver k) name h').entries k').get? name' = some x →
        ∀ l, (hl : k' = .driver l) → (.driver l, name') ∈ done ++ [(.driver k, name)] ∧
          ∃ y, g.find? w (.driver l) name' = some y ∧ w.Copies w' l y (hl ▸ x) := by
      refine forall_entries_insert ?_ ?_
      · rintro l hl
        cases hl
        exact ⟨List.mem_append_right _ (List.mem_singleton.mpr rfl), h, hfind,
          hcopies.mono hs.world.toRecalls (.refl w')⟩
      · rintro k' name' x - hx l rfl
        obtain ⟨hmem, y, hy, hcopy⟩ := hs.drivers l name' x hx
        exact ⟨List.mem_append_left _ hmem, y, hy, hcopy.mono (.refl w) hw.toRecalls⟩
    exact fun l name' x hx => hall (.driver l) name' x hx l rfl
  found := by
    intro k' name' y x hmem hy hx
    rcases List.mem_append.mp hmem with hmem | hmem
    · exact mem_keys_insert.mpr (Or.inr (hs.found k' name' y x hmem hy hx))
    · exact mem_keys_insert.mpr (Or.inl (List.mem_singleton.mp hmem))

end Selection

section Steps

variable {m : ProcessManager} {done : List (Kind × String)}

/-- One more key of a remote robot is gone through, whether the graph has it or not. -/
theorem selectRemote_ok (hg : g.Intact w) (hs : Selection g w m done s) {name : String}
    (h : g.selectRemote name s = .ok () s') :
    Selection g w m (done ++ [(.remote, name)]) s' := by
  rw [selectRemote_eq] at h
  cases hh : (g.entries .remote).get? name with
  | none =>
    rw [hh] at h
    cases h
    exact hs.skipRemote hh
  | some handle =>
    obtain ⟨x, hx⟩ := hg.known _ _ _ hh
    obtain ⟨remote, hremote, rfl⟩ := World.behind?_remote.mp hx
    -- a remote robot stands under its own name, so this is the name that was looked for
    rw [hh, hs.world.sameRemotes] at h
    simp only [hremote, hg.remoteNamed _ _ _ remote hh hx] at h
    cases h
    exact hs.insertRemote hh

/-- One more key of a driver is gone through, whether it is found or not. -/
theorem selectDriver_ok (hs : Selection g w m done s) {k : DriverKind} {name : String}
    (h : g.selectDriver k name s = .ok () s') :
    Selection g w m (done ++ [(.driver k, name)]) s' := by
  rw [selectDriver_eq, find?_wires hs.world] at h
  cases hfind : g.find? w (.driver k) name with
  | none =>
    rw [hfind] at h
    cases h
    refine hs.skipDriver fun handle hh => ?_
    rw [hfind] at hh
    cases hh
  | some handle =>
    rw [hfind] at h
    -- a handle that is found behind a remote may stand for nothing
    cases hx : s.world.behind? (Kind.slot (.driver k) handle) with
    | none =>
      simp only [World.rewrap_of_empty hx] at h
      cases h
      refine hs.skipDriver fun handle' hh => ?_
      rw [hfind] at hh
      cases hh
      exact hs.world.empty hx
    | some x =>
      obtain ⟨d, rfl⟩ := World.behind?_driver hx
      obtain ⟨handle', hnew, hwires, hcopies⟩ := World.rewrap_spec hx
      rcases hanswer : World.rewrap k handle s.world with ⟨_, w'⟩
      rw [hanswer] at hnew hwires hcopies
      cases hnew
      simp only [hanswer] at h
      cases h
      exact hs.insertDriver hwires hfind hcopies

/-- An item adds its key to those that were gone through, if it has one. -/
theorem selectItem_ok (hg : g.Intact w) (hs : Selection g w m done s)
    {i : Item} (h : g.selectItem i s = .ok () s') :
    Selection g w m (done ++ i.key?.toList) s' := by
  cases i with
  | remote c => exact selectRemote_ok hg hs h
  | board name _ => exact selectDriver_ok hs h
  | component c =>
    have hstep : g.selectComponent c s = .ok () s' := h
    unfold selectComponent at hstep
    cases hk : c.type.driverKind? with
    | none =>
      rw [hk] at hstep
      cases hstep
    | some k =>
      rw [hk] at hstep
      have hkey : (Item.component c).key? = some (.driver k, c.name) := by
        show c.type.driverKind?.map _ = _
        rw [hk, Option.map_some]
      rw [hkey]
      exact selectDriver_ok hs hstep

/-- Only a component is refused whose type names no kind of driver. -/
theorem selectItem_error {i : Item} {e : RobotError} (h : g.selectItem i s = .error e s') :
    ∃ c, i = .component c ∧ c.type.driverKind? = none ∧
      e = .unknownComponentType c.name c.type.text := by
  -- a part that is not there is passed over, so only its type can be an error
  have hdriver : ∀ k name, g.selectDriver k name s ≠ .error e s' := by
    intro k name hdriver
    rw [selectDriver_eq] at hdriver
    split at hdriver
    · cases hdriver
    · split at hdriver <;> cases hdriver
  cases i with
  | remote c =>
    have hstep : g.selectRemote c.name s = .error e s' := h
    rw [selectRemote_eq] at hstep
    split at hstep
    · cases hstep
    · split at hstep <;> cases hstep
  | board name _ => exact absurd h (hdriver .board name)
  | component c =>
    have hstep : g.selectComponent c s = .error e s' := h
    unfold selectComponent at hstep
    cases hk : c.type.driverKind? with
    | some k =>
      rw [hk] at hstep
      exact absurd hstep (hdriver k c.name)
    | none =>
      rw [hk] at hstep
      cases hstep
      exact ⟨c, rfl, hk, rfl⟩

end Steps

/-- What was selected of the processes of a graph, once these ids were gone through. -/
structure Enlisted (g : Graph) (w : World) (done : List String) (s : Site) : Prop where
  site : s = ⟨{ manager := s.graph.manager }, w⟩
  idle : s.graph.manager.started = false
  processes : ∀ id p, s.graph.manager.get? id = some p ↔ id ∈ done ∧ g.manager.get? id = some p

/-- One more process is gone through, whether the graph has it or not. -/
theorem selectProcess_ok {h : Host} (hg : g.manager.Keyed w) {done : List String} {id : String}
    (hs : Enlisted g w done s) (hstep : g.selectProcess h id s = .ok () s') :
    Enlisted g w (done ++ [id]) s' := by
  rw [selectProcess_eq h g id hs.idle] at hstep
  cases hp : g.manager.get? id with
  | none =>
    rw [hp] at hstep
    cases hstep
    refine ⟨hs.site, hs.idle, fun other p => ?_⟩
    rw [hs.processes, List.mem_append, List.mem_singleton]
    constructor
    · exact fun h => ⟨Or.inl h.1, h.2⟩
    · rintro ⟨hmem | rfl, hget⟩
      · exact ⟨hmem, hget⟩
      · rw [hp] at hget
        cases hget
  | some q =>
    have hid : s.world.processId q = id := by
      rw [hs.site]
      exact hg.processId hp
    rw [hp] at hstep
    simp only [hid] at hstep
    split at hstep
    · cases hstep
    · cases hstep
      refine ⟨by rw [hs.site], hs.idle, fun other p => ?_⟩
      show (s.graph.manager.processes.insert id q).get? other = some p ↔ _
      rw [NameMap.get?_insert, List.mem_append, List.mem_singleton]
      by_cases hne : id = other
      · subst hne
        rw [if_pos rfl, hp]
        exact ⟨fun h => ⟨Or.inr rfl, h⟩, fun h => h.2⟩
      · rw [if_neg hne]
        refine (hs.processes other p).trans ⟨fun h => ⟨Or.inl h.1, h.2⟩, ?_⟩
        rintro ⟨hmem | heq, hget⟩
        · exact ⟨hmem, hget⟩
        · exact absurd heq.symm hne

theorem enlisted_nil (g : Graph) (w : World) : Enlisted g w [] ⟨{}, w⟩ :=
  ⟨rfl, rfl, fun id p => by simp [ProcessManager.get?]⟩

theorem enlisted_step {h : Host} (hg : g.manager.Keyed w) (done : List ProcessConfig)
    (p : ProcessConfig) (t u : Site) (ht : Enlisted g w (done.map ProcessConfig.id) t)
    (hstep : g.selectProcess h p.id t = .ok () u) :
    Enlisted g w ((done ++ [p]).map ProcessConfig.id) u := by
  rw [List.map_append]
  exact selectProcess_ok hg ht hstep

/-- Once the processes were selected, no part has been. -/
theorem Enlisted.selection {done : List String} (hs : Enlisted g w done s) :
    Selection g w s.graph.manager [] s := by
  have hnone : ∀ k, s.graph.entries k = .empty := by
    intro k
    rw [hs.site]
    exact (entries_with {} .empty s.graph.manager k).trans (entries_empty k)
  refine ⟨rfl, ?_, ?_, ?_, ?_, ?_⟩
  · rw [hs.site]
  · rw [hs.site]
    exact .refl w
  · intro name h
    simp [hnone]
  · intro k name h hh
    rw [hnone] at hh
    cases hh
  · intro _ _ _ _ hmem
    cases hmem

/-- Functions are selected by name, where the graph has them. -/
theorem selectFunctions_ok {cs : List FunctionConfig} (hs : s.graph.functions = .empty)
    (h : each (fun f => g.selectFunction f.name) cs s = .ok () s') :
    s' = { s with graph := { s.graph with functions := s'.graph.functions } } ∧
      ∀ name, name ∈ s'.graph.functions.names ↔
        name ∈ cs.map FunctionConfig.name ∧ name ∈ g.functions.names := by
  -- what was selected so far is in the graph, and nothing else of the graph was touched
  refine each_ok (P := fun done t =>
    t = { s with graph := { s.graph with functions := t.graph.functions } } ∧
      ∀ name, name ∈ t.graph.functions.names ↔
        name ∈ done.map FunctionConfig.name ∧ name ∈ g.functions.names) ?_ ?_ h
  · rintro done c t u ⟨ht, hnames⟩ hstep
    have hmem : g.functions.contains c.name = true ↔ c.name ∈ g.functions.names :=
      NameMap.contains_iff _
    unfold selectFunction at hstep
    split at hstep
    · next hc =>
      cases hstep
      refine ⟨by rw [ht]; rfl, fun name => ?_⟩
      show name ∈ (t.graph.functions.insert c.name ()).names ↔ _
      rw [NameMap.mem_names_insert, hnames, List.map_append, List.mem_append, List.map_singleton,
        List.mem_singleton]
      constructor
      · rintro (rfl | ⟨hmem', hname⟩)
        · exact ⟨Or.inr rfl, hmem.mp hc⟩
        · exact ⟨Or.inl hmem', hname⟩
      · rintro ⟨hmem' | rfl, hname⟩
        · exact Or.inr ⟨hmem', hname⟩
        · exact Or.inl rfl
    · next hc =>
      cases hstep
      refine ⟨ht, fun name => ?_⟩
      rw [hnames, List.map_append, List.mem_append, List.map_singleton, List.mem_singleton]
      constructor
      · exact fun h => ⟨Or.inl h.1, h.2⟩
      · rintro ⟨hmem' | rfl, hname⟩
        · exact ⟨hmem', hname⟩
        · exact absurd (hmem.mpr hname) hc
  · refine ⟨rfl, fun name => ?_⟩
    rw [hs]
    simp [NameMap.names, NameMap.empty]

/-- What comes of a selection that succeeds. -/
structure Selected (g : Graph) (w : World) (c : Config) (old : Graph) (w' : World) : Prop where
  world : w.Wires w'
  remotes : ∀ name h, (old.entries .remote).get? name = some h ↔
    (.remote, name) ∈ c.keys ∧ (g.entries .remote).get? name = some h
  drivers : ∀ k name h', (old.entries (.driver k)).get? name = some h' →
    (.driver k, name) ∈ c.keys ∧ ∃ h, g.find? w (.driver k) name = some h ∧ w.Copies w' k h h'
  found : ∀ k name h x, (.driver k, name) ∈ c.keys → g.find? w (.driver k) name = some h →
    w.behind? (Kind.slot (.driver k) h) = some x → (.driver k, name) ∈ old.keys
  functions : ∀ name, name ∈ old.functions.names ↔
    name ∈ c.functions.map FunctionConfig.name ∧ name ∈ g.functions.names
  processes : ∀ id p, old.manager.get? id = some p ↔
    id ∈ c.processes.map ProcessConfig.id ∧ g.manager.get? id = some p
  idle : old.manager.started = false

namespace Selected

variable {c : Config} {old : Graph} {w' : World}

/-- Nothing is selected that was not named. -/
theorem named (hs : Selected g w c old w') : ∀ key ∈ old.keys, key ∈ c.keys := by
  rintro ⟨k, name⟩ hkey
  obtain ⟨h, hh⟩ := mem_keys.mp hkey
  match k with
  | .remote => exact ((hs.remotes name h).mp hh).1
  | .driver k => exact (hs.drivers k name h hh).1

/-- Handles are new ones, but for those of remotes. -/
theorem handles (hs : Selected g w c old w') (k : Kind) (name : String) (h : k.Handle)
    (hh : (old.entries k).get? name = some h) :
    w.behind? (k.slot h) = none ∨ (g.entries k).get? name = some h := by
  match k with
  | .remote => exact Or.inr ((hs.remotes name h).mp hh).2
  | .driver k =>
    obtain ⟨-, _, -, hcopies⟩ := hs.drivers k name h hh
    exact Or.inl hcopies.fresh

/-- What a graph has itself and is named is served by what was selected. -/
theorem serves (hs : Selected g w c old w') (k : Kind) (name : String) (x : Backing)
    (hkey : (k, name) ∈ c.keys) (hx : g.backing? w k name = some x) :
    old.backing? w' k name = some x := by
  obtain ⟨h, hh, hbehind⟩ := backing?_eq_some_iff.mp hx
  match k with
  | .remote =>
    exact backing?_eq_some_iff.mpr
      ⟨h, (hs.remotes name h).mpr ⟨hkey, hh⟩, hs.world.behind _ _ hbehind⟩
  | .driver k =>
    obtain ⟨h', hh'⟩ := mem_keys.mp (hs.found k name h x hkey (find?_of_get? hh) hbehind)
    obtain ⟨-, _, hfind, hcopies⟩ := hs.drivers k name h' hh'
    rw [find?_of_get? hh] at hfind
    cases hfind
    exact backing?_eq_some_iff.mpr ⟨h', hh', hcopies.behind x hbehind⟩

end Selected

/-- The order in which items are selected makes no difference to their keys. -/
theorem mem_keys_config {c : Config} {key : Kind × String} :
    key ∈ (c.remotes.map Item.remote ++ c.boards.map (fun b => Item.board b.name (.ok b)) ++
      c.components.map Item.component).filterMap Item.key? ↔ key ∈ c.keys := by
  have hperm := ((Build.providersFirst_perm c.components).map Item.component).append_left
    (c.remotes.map Item.remote ++ c.boards.map fun b => Item.board b.name (.ok b))
  exact (hperm.filterMap Item.key?).mem_iff.symm

/-- A selection that succeeds has selected what the configuration names and the graph finds. -/
theorem select_ok {h : Host} {c : Config} {old : Graph} {w' : World} (hg : g.Intact w)
    (hselect : g.select h c w = .ok old w') : Selected g w c old w' := by
  unfold select at hselect
  cases hconfig : g.selectConfig h c ⟨{}, w⟩ with
  | error e s =>
    rw [hconfig] at hselect
    cases hselect
  | ok _ s =>
    rw [hconfig] at hselect
    cases hselect
    rw [selectConfig_eq] at hconfig
    -- processes, parts and functions in turn; each stage leaves alone what the others select
    obtain ⟨_, t, hps, hconfig⟩ := bind_eq_ok.mp hconfig
    obtain ⟨_, u, hitems, hfs⟩ := bind_eq_ok.mp hconfig
    have ht := each_ok (P := fun done t => Enlisted g w (done.map ProcessConfig.id) t)
      (enlisted_step hg.processNamed) (enlisted_nil g w) hps
    have hu := each_ok (P := fun done u =>
        Selection g w t.graph.manager (done.filterMap Item.key?) u)
      (fun done i u v hu hstep => by
        have hlast : [i].filterMap Item.key? = i.key?.toList := by cases hi : i.key? <;> simp [hi]
        rw [List.filterMap_append, hlast]
        exact selectItem_ok hg hu hstep)
      ht.selection hitems
    obtain ⟨hs, hnames⟩ := selectFunctions_ok hu.functions hfs
    rw [hs]
    refine ⟨hu.world, ?_, ?_, ?_, hnames, ?_, ?_⟩
    · intro name r
      rw [← mem_keys_config]
      exact hu.remotes name r
    · intro k name h' hh'
      exact (hu.drivers k name h' hh').imp_left mem_keys_config.mp
    · intro k name r x hkey
      exact hu.found k name r x (mem_keys_config.mpr hkey)
    · intro id p
      show u.graph.manager.get? id = some p ↔ _
      rw [hu.manager]
      exact ht.processes id p
    · show u.graph.manager.started = false
      rw [hu.manager]
      exact ht.idle

theorem selectProcess_error {h : Host} {id : String} {e : RobotError}
    (hstep : g.selectProcess h id s = .error e s') : ¬e.OfTeardown := by
  unfold selectProcess at hstep
  cases hq : g.manager.get? id with
  | none =>
    rw [hq] at hstep
    cases hstep
  | some q =>
    rw [hq] at hstep
    rcases bind_eq_error.mp hstep with hadd | ⟨_, _, -, hpure⟩
    · rw [addProcess_eq] at hadd
      split at hadd
      · cases hadd
      · cases hadd
        exact not_false
    · cases hpure

/-- No process stands in the way of another if none is named twice. -/
theorem selectProcesses_ne_error {h : Host} (hg : g.manager.Keyed w) {ps : List ProcessConfig}
    (hids : (ps.map ProcessConfig.id).Nodup) (e : RobotError) :
    each (fun p => g.selectProcess h p.id) ps ⟨{}, w⟩ ≠ .error e s' := by
  intro hps
  obtain ⟨done, p, t, hdone, ht, hstep⟩ := each_error
    (P := fun done t => Enlisted g w (done.map ProcessConfig.id) t) (enlisted_step hg)
    (enlisted_nil g w) hps
  have hnew : p.id ∉ done.map ProcessConfig.id := by
    have hnodup := hids.sublist (hdone.sublist.map ProcessConfig.id)
    rw [List.map_append] at hnodup
    exact fun hmem => (List.nodup_append.mp hnodup).2.2 _ hmem _ (List.mem_singleton.mpr rfl) rfl
  rw [selectProcess_eq h g p.id ht.idle] at hstep
  split at hstep
  · cases hstep
  · next q hq =>
    have hid : t.world.processId q = p.id := by
      rw [ht.site]
      exact hg.processId hq
    rw [hid] at hstep
    split at hstep
    -- what was selected before goes by another id
    · next hc =>
      obtain ⟨x, hx⟩ := (NameMap.mem_names_iff _).mp ((NameMap.contains_iff _).mp hc)
      exact hnew ((ht.processes p.id x).mp hx).1
    · cases hstep

theorem selectFunction_ne_error (name : String) (e : RobotError) :
    g.selectFunction name s ≠ .error e s' := by
  unfold selectFunction
  split <;> exact nofun

/-- A selection fails at a process or at a component whose type names no kind of driver. -/
theorem selectConfig_error {h : Host} {c : Config} {e : RobotError}
    (hconfig : g.selectConfig h c s = .error e s') :
    each (fun p => g.selectProcess h p.id) c.processes s = .error e s' ∨
      ∃ x ∈ c.components, x.type.driverKind? = none ∧
        e = .unknownComponentType x.name x.type.text := by
  rw [selectConfig_eq] at hconfig
  rcases bind_eq_error.mp hconfig with hps | ⟨_, t, -, hconfig⟩
  · exact Or.inl hps
  rcases bind_eq_error.mp hconfig with hitems | ⟨_, u, -, hfs⟩
  · obtain ⟨done, i, t, hdone, -, hi⟩ := each_error (P := fun _ _ => True)
      (fun _ _ _ _ _ _ => trivial) trivial hitems
    obtain ⟨x, rfl, htype, he⟩ := selectItem_error hi
    have hmem := hdone.subset (List.mem_append_right done (List.mem_singleton.mpr rfl))
    exact Or.inr ⟨x, by simpa using hmem, htype, he⟩
  · obtain ⟨_, f, t, -, -, hf⟩ := each_error (P := fun _ _ => True) (fun _ _ _ _ _ _ => trivial)
      trivial hfs
    exact absurd hf (selectFunction_ne_error _ _)

/-- A selection that fails has wired up handles at most, and its error is none of closing. -/
theorem select_error {h : Host} {c : Config} {e : RobotError} {w' : World}
    (hselect : g.select h c w = .error e w') : w.Wires w' ∧ ¬e.OfTeardown := by
  unfold select at hselect
  cases hconfig : g.selectConfig h c ⟨{}, w⟩ with
  | ok _ s =>
    rw [hconfig] at hselect
    cases hselect
  | error e s =>
    rw [hconfig] at hselect
    cases hselect
    refine ⟨((selectConfig_selects h g c).of_error hconfig).world rfl, ?_⟩
    rcases selectConfig_error hconfig with hps | ⟨x, -, -, rfl⟩
    · obtain ⟨_, p, t, -, -, hp⟩ := each_error (P := fun _ _ => True)
        (fun _ _ _ _ _ _ => trivial) trivial hps
      exact selectProcess_error hp
    · exact id

/-- A selection succeeds if no process is named twice and all types name kinds of drivers. -/
theorem exists_select_eq_ok (h : Host) {c : Config} (hg : g.manager.Keyed w)
    (hids : (c.processes.map ProcessConfig.id).Nodup)
    (htypes : ∀ x ∈ c.components, x.type.driverKind? ≠ none) :
    ∃ f w', g.select h c w = .ok f w' := by
  unfold select
  cases hconfig : g.selectConfig h c ⟨{}, w⟩ with
  | ok _ s => exact ⟨s.graph, s.world, rfl⟩
  | error e s =>
    rcases selectConfig_error hconfig with hps | ⟨x, hx, htype, -⟩
    · exact absurd hps (selectProcesses_ne_error hg hids e)
    · exact absurd htype (htypes x hx)

end Graph

end RobotHost
