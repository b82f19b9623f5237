import RobotHost.Proofs.Graph.Merging
import RobotHost.Proofs.Graph.Selecting

/-!
# Graphs that share handles

Graphs of one world share handles. A copy of a graph has all handles of it, a merge puts those of one
graph into another, and a remote robot can be put into any number of graphs. Still a handle stands
under the same kind and name wherever it stands: a handle to a driver is made for its place and taken
over only to the same place, and a remote robot stands under the name it has in its settings, which
no exchange changes.

So all graphs that were put together by the operations on graphs (`Assembled`) are intact, and each
is aligned with each (`Assembled.coherent`). There is one lemma for each operation; those that work
on one graph are steps of `Grows`.
-/

namespace RobotHost

/-! ## Worlds that last -/

/-- The name that a remote robot has in its settings. -/
def Backing.remoteName? : Backing → Option String
  | driver _ => none
  | remote r => some r.config.name

/-- What stands behind handles may have been exchanged. But nothing is lost, remote robots keep their
names and processes their ids. -/
structure World.Lasts (w w' : World) : Prop where
  behind : ∀ s x, w.behind? s = some x →
    ∃ y, w'.behind? s = some y ∧ y.remoteName? = x.remoteName?
  processes : ∀ p q, w.processes.get? p = some q →
    ∃ q', w'.processes.get? p = some q' ∧ q'.id = q.id

namespace World

variable {w w' w'' : World}

theorem Lasts.refl (w : World) : w.Lasts w :=
  ⟨fun _ x hx => ⟨x, hx, rfl⟩, fun _ q hq => ⟨q, hq, rfl⟩⟩

theorem Lasts.trans (h : w.Lasts w') (h' : w'.Lasts w'') : w.Lasts w'' where
  behind := by
    intro s x hx
    obtain ⟨y, hy, hname⟩ := h.behind s x hx
    obtain ⟨z, hz, hname'⟩ := h'.behind s y hy
    exact ⟨z, hz, hname'.trans hname⟩
  processes := by
    intro p q hq
    obtain ⟨q', hq', hid⟩ := h.processes p q hq
    obtain ⟨q'', hq'', hid'⟩ := h'.processes p q' hq'
    exact ⟨q'', hq'', hid'.trans hid⟩

theorem Recalls.lasts (h : w.Recalls w') : w.Lasts w' :=
  ⟨fun s x hx => ⟨x, h.behind s x hx, rfl⟩, h.processes⟩

/-- A slot that is empty later was empty before. -/
theorem Lasts.empty (h : w.Lasts w') {s : Slot} (hs : w'.behind? s = none) : w.behind? s = none := by
  cases hx : w.behind? s with
  | none => rfl
  | some x =>
    obtain ⟨y, hy, -⟩ := h.behind s x hx
    rw [hs] at hy
    cases hy

end World

/-! ## Intact and aligned graphs -/

namespace Graph

variable {g other : Graph} {w w' : World}

/-- A graph stays intact even where what stands behind its handles is exchanged. -/
theorem Intact.lasts (hg : g.Intact w) (hw : w.Lasts w') : g.Intact w' where
  known := by
    intro k name h hh
    obtain ⟨x, hx⟩ := hg.known k name h hh
    obtain ⟨y, hy, -⟩ := hw.behind _ x hx
    exact ⟨y, hy⟩
  apart := hg.apart
  remoteNamed := by
    intro k name h remote hh hremote
    obtain ⟨x, hx⟩ := hg.known k name h hh
    obtain ⟨y, hy, hname⟩ := hw.behind _ x hx
    rw [hremote] at hy
    cases hy
    -- a remote robot stands there now, so one of the same name stood there before
    cases x with
    | driver d => cases hname
    | remote r => exact (Option.some.inj hname).trans (hg.remoteNamed k name h r hh hx)
  processNamed := hg.processNamed.mono hw.processes

theorem Aligned.symm (h : g.Aligned other) : other.Aligned g := by
  intro k name x k' name' y hx hy heq
  obtain ⟨hk, hname⟩ := h _ _ _ _ _ _ hy hx heq.symm
  exact ⟨hk.symm, hname.symm⟩

/-- Remote robots are in their own slots. -/
theorem kind_of_slot_eq_remote {k : Kind} {h : k.Handle} {r : Kind.remote.Handle}
    (heq : k.slot h = Kind.remote.slot r) : k = .remote := by
  match k with
  | .remote => rfl
  | .driver .board | .driver .sensor | .driver (.part _) => cases heq

/-- The name of a remote robot is all that its place can be. -/
theorem Intact.remote_aligned (hg : g.Intact w) (hother : other.Intact w) {name name' : String}
    {k : Kind} {h : Kind.remote.Handle} {h' : k.Handle}
    (hh : (g.entries .remote).get? name = some h) (hh' : (other.entries k).get? name' = some h')
    (heq : Kind.remote.slot h = k.slot h') : Kind.remote = k ∧ name = name' := by
  obtain rfl := kind_of_slot_eq_remote heq.symm
  obtain ⟨x, hx⟩ := hg.known _ _ _ hh
  obtain ⟨remote, -, rfl⟩ := World.behind?_remote.mp hx
  refine ⟨rfl, ?_⟩
  rw [← hg.remoteNamed _ _ _ remote hh hx]
  exact hother.remoteNamed _ _ _ remote hh' (heq ▸ hx)

/-- A remote robot that is put in under its name leaves an intact graph intact. -/
theorem Intact.insertRemote (hg : g.Intact w) {h : Ref .remote} {remote : Remote}
    (hremote : w.remotes.get? h = some remote) :
    (g.insert .remote remote.config.name h).Intact w := by
  have hbehind : w.behind? (Kind.remote.slot h) = some (.remote remote) :=
    World.behind?_remote.mpr ⟨remote, hremote, rfl⟩
  -- whatever else has the slot stands under the name of the remote robot as well
  have hsame : ∀ k name (x : k.Handle), (g.entries k).get? name = some x →
      k.slot x = Kind.remote.slot h → k = .remote ∧ name = remote.config.name := by
    intro k name x hx heq
    obtain rfl := kind_of_slot_eq_remote heq
    exact ⟨rfl, (hg.remoteNamed _ _ _ remote hx (heq ▸ hbehind)).symm⟩
  refine ⟨forall_entries_insert ⟨_, hbehind⟩ fun k name x _ hx => hg.known k name x hx, ?_, ?_, ?_⟩
  · intro k₁ name₁ h₁ k₂ name₂ h₂ hh₁
    revert k₁ name₁ h₁
    refine forall_entries_insert ?_ ?_
    · revert k₂ name₂ h₂
      refine forall_entries_insert (fun _ => ⟨rfl, rfl⟩) ?_
      intro k₂ name₂ h₂ _ hh₂ heq
      obtain ⟨hk, hname⟩ := hsame k₂ name₂ h₂ hh₂ heq.symm
      exact ⟨hk.symm, hname.symm⟩
    · intro k₁ name₁ h₁ _ hh₁
      revert k₂ name₂ h₂
      refine forall_entries_insert (fun heq => hsame k₁ name₁ h₁ hh₁ heq) ?_
      exact fun k₂ name₂ h₂ _ hh₂ heq => hg.apart _ _ _ _ _ _ hh₁ hh₂ heq
  · intro k name x r hx
    revert k name x
    refine forall_entries_insert (fun hr => ?_) fun k name x _ hx => hg.remoteNamed k name x r hx
    rw [hbehind] at hr
    cases hr
    rfl
  · rw [manager_insert]
    exact hg.processNamed

end Graph

/-- Graphs that are intact, each of which is aligned with each. -/
structure Coherent (gs : List Graph) (w : World) : Prop where
  intact : ∀ g ∈ gs, g.Intact w
  aligned : ∀ g ∈ gs, ∀ other ∈ gs, g.Aligned other

namespace Coherent

variable {g g' : Graph} {gs gs' : List Graph} {w w' : World}

/-- So do coherent graphs, and they stay aligned, as that is a matter of their handles alone. -/
theorem lasts (h : Coherent gs w) (hw : w.Lasts w') : Coherent gs w' :=
  ⟨fun g hg => (h.intact g hg).lasts hw, h.aligned⟩

theorem subset (h : Coherent gs w) (hsub : gs' ⊆ gs) : Coherent gs' w :=
  ⟨fun g hg => h.intact g (hsub hg),
    fun g hg other hother => h.aligned g (hsub hg) other (hsub hother)⟩

/-- A graph comes beside others that it is aligned with. -/
theorem cons (h : Coherent gs w') (hg : g'.Intact w') (haligned : ∀ other ∈ gs, g'.Aligned other) :
    Coherent (g' :: gs) w' where
  intact := by
    intro f hf
    rcases List.mem_cons.mp hf with rfl | hf
    · exact hg
    · exact h.intact f hf
  aligned := by
    intro f hf other hother
    rcases List.mem_cons.mp hf with rfl | hmem <;>
      rcases List.mem_cons.mp hother with rfl | hmem'
    · exact hg.apart
    · exact haligned other hmem'
    · exact (haligned f hmem).symm
    · exact h.aligned f hmem other hmem'

end Coherent

/-! ## Steps on one graph -/

/-- A graph has grown: each of its handles to a driver is one of before, or new to the world. -/
structure Grows (s s' : Site) : Prop where
  world : s.world.Lasts s'.world
  intact : s.graph.Intact s.world → s'.graph.Intact s'.world
  origin : ∀ k name h, (s'.graph.entries k).get? name = some h →
    (s.graph.entries k).get? name = some h ∨ s.world.behind? (k.slot h) = none ∨ k = .remote

namespace Grows

variable {s t u : Site} {g g' : Graph} {gs : List Graph} {w w' : World}

theorem refl (s : Site) : Grows s s := ⟨.refl _, id, fun _ _ _ h => .inl h⟩

/-- A graph that has grown may grow further: what is new to the later world is new to the first. -/
theorem trans (h : Grows s t) (h' : Grows t u) : Grows s u where
  world := h.world.trans h'.world
  intact := fun hs => h'.intact (h.intact hs)
  origin := by
    intro k name x hx
    rcases h'.origin k name x hx with hx | hnone | hk
    · exact h.origin k name x hx
    · exact .inr (.inl (h.world.empty hnone))
    · exact .inr (.inr hk)

/-- A graph that grows beside others stays aligned with them: its new handles are new to all, and
its remote robots stand under their names. -/
theorem coherent (h : Grows ⟨g, w⟩ ⟨g', w'⟩) (hgs : Coherent (g :: gs) w) :
    Coherent (g' :: gs) w' := by
  have hg := hgs.intact g List.mem_cons_self
  have hothers := hgs.subset (List.subset_cons_self g gs)
  refine (hothers.lasts h.world).cons (h.intact hg) fun other hother => ?_
  intro k name x k' name' y hx hy heq
  rcases h.origin k name x hx with hold | hnew | rfl
  · exact hgs.aligned g List.mem_cons_self other (List.mem_cons_of_mem _ hother)
      _ _ _ _ _ _ hold hy heq
  · obtain ⟨z, hz⟩ := (hothers.intact other hother).known _ _ _ hy
    rw [← heq, hnew] at hz
    cases hz
  · exact (h.intact hg).remote_aligned ((hothers.intact other hother).lasts h.world) hx hy heq

/-- Functions and processes have no part in it. -/
theorem of_with (hw : w.Lasts w') (f : NameSet) {m : ProcessManager}
    (hm : g.manager.Keyed w → m.Keyed w') :
    Grows ⟨g, w⟩ ⟨{ g with functions := f, manager := m }, w'⟩ where
  world := hw
  intact := fun hg => (hg.lasts hw).with f (hm hg.processNamed)
  origin := by
    intro k name x hx
    have hx : (({ g with functions := f, manager := m } : Graph).entries k).get? name = some x := hx
    rw [Graph.entries_with] at hx
    exact .inl hx

/-- The world moves on, and the graph stays as it is. -/
theorem of_world (hw : w.Recalls w') : Grows ⟨g, w⟩ ⟨g, w'⟩ :=
  ⟨hw.lasts, fun hg => hg.recalls hw, fun _ _ _ hx => .inl hx⟩

/-- A handle in a slot that was empty is put in. -/
theorem insert (hw : w.Recalls w') {k : Kind} {name : String} {h : k.Handle} {x : Backing}
    (hempty : w.behind? (k.slot h) = none) (hx : w'.behind? (k.slot h) = some x)
    (hnamed : ∀ remote, x = .remote remote → remote.config.name = name) :
    Grows ⟨g, w⟩ ⟨g.insert k name h, w'⟩ where
  world := hw.lasts
  intact := fun hg => hg.insert hw hempty hx hnamed
  origin := Graph.forall_entries_insert (.inr (.inl hempty)) fun _ _ _ _ hold => .inl hold

/-- A handle to a driver is made and put in. -/
theorem register (k : DriverKind) (name : String) (d : Ref .driver) :
    Along Grows (Build.register k name d) := by
  intro s
  obtain ⟨hwires, hempty, hbehind⟩ := World.wrap_spec d k s.world
  exact .insert hwires.toRecalls hempty hbehind fun _ hremote => by cases hremote

/-- A remote robot is put in under its name, whatever graphs it is in. -/
theorem addRemote (h : Ref .remote) : Along Grows (Build.addRemote h) := by
  intro s
  rw [Build.addRemote, read_bind]
  cases hremote : s.world.remotes.get? h with
  | none => exact .refl s
  | some remote =>
    exact ⟨.refl _, fun hg => hg.insertRemote hremote,
      Graph.forall_entries_insert (.inr (.inr rfl)) fun _ _ _ _ hold => .inl hold⟩

/-- A process of the world is put under management. -/
theorem addProcess (h : Host) {p : Ref .process} (replace : Bool) {q : Process}
    (hp : s.world.processes.get? p = some q) :
    Grows s (stateAfter (Build.addProcess h p replace s)) := by
  rw [Build.addProcess_eq]
  have hlaunches := ProcessManager.add_launches h s.graph.manager p replace
  cases hadd : s.graph.manager.add h p replace s.world with
  | error e w' => exact of_world (hlaunches.of_error hadd).extends.toRecalls
  | ok x w' =>
    obtain ⟨old, m⟩ := x
    have hw := (hlaunches.of_ok hadd).extends.toRecalls
    obtain ⟨-, hm⟩ := ProcessManager.add_ok hadd
    have hid : s.world.processId p = q.id := by rw [World.processId, hp]; rfl
    refine of_with hw.lasts s.graph.functions fun hkeyed => ?_
    rw [hm, hid]
    exact (hkeyed.insert hp).recalls hw

end Grows

/-- Processes add no handles to drivers. -/
theorem Build.Staffed.grows {s s' : Site} (h : Staffed s s') : Grows s s' := by
  obtain ⟨g', w'⟩ := s'
  have hgraph : g' = { s.graph with manager := g'.manager } := h.graph
  have hgrows : Grows s ⟨{ s.graph with manager := g'.manager }, w'⟩ :=
    .of_with h.world.toRecalls.lasts s.graph.functions h.keyed
  rwa [← hgraph] at hgrows

/-- A delivery registers a handle that is new. -/
theorem Delivered.grows {env : Environment} {s s' : Site} {x : Delivery}
    (hx : Delivered env s x s') : Grows s s' := by
  obtain ⟨h, hgraph, hempty, hbehind⟩ := hx.handle
  obtain ⟨g', w'⟩ := s'
  obtain rfl : g' = _ := hgraph
  refine .insert hx.world.toRecalls hempty hbehind fun remote hremote => ?_
  cases x with
  | remote c connection =>
    cases hremote
    rfl
  | driver name b d => cases hremote

theorem Refused.grows {s s' : Site} (h : Refused s s') : Grows s s' := by
  obtain ⟨g', w'⟩ := s'
  obtain rfl : g' = s.graph := h.graph
  exact .of_world h.world.toRecalls

namespace Grows

/-- Whatever an item is and however its build ends, the graph has grown. -/
theorem item (env : Environment) (i : Item) : Along Grows (i.build env) := by
  intro s
  cases hi : i.build env s with
  | ok _ s' =>
    obtain ⟨x, -, hx⟩ := Item.build_ok hi
    exact hx.grows
  | error e s' => exact (Item.build_error hi).1.grows

theorem onGraph_function (name : String) :
    Along Grows (Build.onGraph fun g => g.insertFunction name) :=
  fun s => .of_with (.refl _) (s.graph.functions.insert name ()) id

/-- However far a build comes. -/
theorem staged (env : Environment) (ps : List ProcessConfig) (items : List Item)
    (fs : List FunctionConfig) : Along Grows (Build.staged env ps items fs) := by
  have hprocesses : Along Grows (Build.processes env ps) := fun s =>
    (Build.processes_staffed env ps s).grows
  refine hprocesses.bind (fun _ _ _ => .trans) fun _ => ?_
  refine (Build.each_along .refl (fun _ _ _ => .trans) (item env) items).bind
    (fun _ _ _ => .trans) fun _ => ?_
  exact Build.each_along .refl (fun _ _ _ => .trans)
    (fun f : FunctionConfig => onGraph_function f.name) fs

/-- To take out parts leaves the others as they are. -/
theorem mergeRemove (old : Graph) : Grows ⟨g, w⟩ ⟨g.mergeRemove old, w⟩ where
  world := .refl w
  intact := fun hg => hg.mergeRemove old
  origin := by
    intro k name x hx
    have hx : ((g.mergeRemove old).entries k).get? name = some x := hx
    rw [Graph.get?_mergeRemove] at hx
    split at hx
    · cases hx
    · exact .inl hx

/-! ## Selections -/

/-- What is selected of the drivers gets a new handle, wherever it is found. -/
theorem selectDriver (g : Graph) (k : DriverKind) (name : String) :
    Along Grows (g.selectDriver k name) := by
  intro s
  rw [Graph.selectDriver_eq]
  cases hfind : g.find? s.world (.driver k) name with
  | none => exact .refl s
  | some h =>
    -- a handle that stands for nothing cannot be wrapped again
    cases hx : s.world.behind? (Kind.slot (.driver k) h) with
    | none =>
      simp only [World.rewrap_of_empty hx]
      exact .refl s
    | some x =>
      obtain ⟨d, rfl⟩ := World.behind?_driver hx
      obtain ⟨h', hrewrap, hwires, hcopies⟩ := World.rewrap_spec hx
      rcases hpair : World.rewrap k h s.world with ⟨answer, w'⟩
      rw [hpair] at hrewrap hwires hcopies
      obtain rfl : answer = some h' := hrewrap
      simp only [hpair]
      exact .insert hwires.toRecalls hcopies.fresh (hcopies.behind _ hx) fun _ hr => by cases hr

/-- An item that is selected is registered under a new handle, or is a remote robot. -/
theorem selectItem (g : Graph) (i : Item) : Along Grows (g.selectItem i) := by
  have hremote : ∀ name, Along Grows (g.selectRemote name) := by
    intro name
    unfold Graph.selectRemote
    split
    · exact addRemote _
    · exact along_pure .refl ()
  cases i with
  | remote c => exact hremote c.name
  | board name _ => exact selectDriver g .board name
  | component c =>
    show Along Grows (g.selectComponent c)
    unfold Graph.selectComponent
    split
    · exact selectDriver g _ c.name
    · exact fun s => .refl s

theorem selectFunction (g : Graph) (name : String) : Along Grows (g.selectFunction name) := by
  unfold Graph.selectFunction
  split
  · exact onGraph_function name
  · exact along_pure .refl ()

/-- A process that is selected is one of the world, as long as the world lasts. -/
theorem selectProcess (h : Host) {g : Graph} (hg : g.manager.Keyed w) (id : String)
    (hs : w.Lasts s.world) : Grows s (stateAfter (g.selectProcess h id s)) := by
  unfold Graph.selectProcess
  cases hp : g.manager.get? id with
  | none => exact .refl s
  | some p =>
    obtain ⟨q, hq, -⟩ := hg id p hp
    obtain ⟨q', hq', -⟩ := hs.processes p q hq
    show Grows s (stateAfter ((do let _ ← Build.addProcess h p false : Build Unit) s))
    rw [stateAfter_discard]
    exact addProcess h false hq'

/-- The graph grows by all that is selected, stage by stage. -/
theorem selectConfig (h : Host) {g : Graph} (hg : g.manager.Keyed w) (c : Config)
    (hs : w.Lasts s.world) : Grows s (stateAfter (g.selectConfig h c s)) := by
  -- the processes are selected in the worlds that follow, in which those of the graph still are
  have halong : Along (fun s t : Site => w.Lasts s.world → Grows s t) (g.selectConfig h c) := by
    have hrefl : ∀ s : Site, w.Lasts s.world → Grows s s := fun s _ => .refl s
    have htrans : ∀ s t u : Site, (w.Lasts s.world → Grows s t) → (w.Lasts t.world → Grows t u) →
        w.Lasts s.world → Grows s u := fun s t u hst htu hs =>
      (hst hs).trans (htu (hs.trans (hst hs).world))
    rw [Graph.selectConfig_eq]
    refine (Build.each_along hrefl htrans (fun p : ProcessConfig => fun s hs =>
      selectProcess h hg p.id hs) _).bind htrans fun _ => ?_
    refine (Build.each_along hrefl htrans (fun i => fun s _ => selectItem g i s) _).bind
      htrans fun _ => ?_
    exact Build.each_along hrefl htrans (fun f : FunctionConfig => fun s _ =>
      selectFunction g f.name s) _
  exact halong s hs

end Grows

/-! ## All operations -/

/-- What can be done to a graph under construction, when these graphs are at hand. -/
inductive Construction (env : Environment) (gs : List Graph) (w : World) : Build Unit → Prop
  | config (c : Config) : Construction env gs w (Build.config env c)
  | modified (m : ModifiedConfig) : Construction env gs w (Build.modified env m)
  | register (k : DriverKind) (name : String) (d : Ref .driver) :
    Construction env gs w (Build.register k name d)
  | remote (h : Ref .remote) : Construction env gs w (Build.addRemote h)
  | function (name : String) :
    Construction env gs w (Build.onGraph fun g => g.insertFunction name)
  | process {p : Ref .process} {q : Process} (hp : w.processes.get? p = some q) (replace : Bool) :
    Construction env gs w (do let _ ← Build.addProcess env.host p replace)
  | program (c : ProcessConfig) : Construction env gs w (do let _ ← Build.addProgram env.host c)
  | start : Construction env gs w (Build.startProcesses env.host)
  | select {g : Graph} (hg : g ∈ gs) (c : Config) :
    Construction env gs w (g.selectConfig env.host c)

/-- Whether it succeeds or not, it makes the graph grow. -/
theorem Construction.grows {env : Environment} {g : Graph} {gs : List Graph} {w : World}
    {f : Build Unit} (hf : Construction env gs w f) (hgs : Coherent gs w) :
    Grows ⟨g, w⟩ (stateAfter (f ⟨g, w⟩)) := by
  cases hf with
  | config c =>
    rw [Build.config_eq]
    exact Grows.staged env _ _ _ _
  | modified m =>
    rw [Build.modified_eq]
    exact Grows.staged env _ _ _ _
  | register k name d => exact Grows.register k name d _
  | remote h => exact Grows.addRemote h _
  | function name => exact Grows.onGraph_function name _
  | process hp replace =>
    rw [stateAfter_discard]
    exact Grows.addProcess env.host replace hp
  | program c =>
    rw [stateAfter_discard]
    exact (Build.addProgram_staffed env.host c _).grows
  | start => exact (Build.startProcesses_staffed env.host _).grows
  | select hg c => exact Grows.selectConfig env.host (hgs.intact _ hg).processNamed c (.refl w)

/-- The graphs at hand were put together by the operations on graphs. Between these, anything may
happen to the world as long as it lasts. -/
inductive Assembled (env : Environment) : List Graph → World → Prop
  /-- No graph is at hand, and no handle was made. -/
  | start {w : World} (hempty : ∀ s, w.behind? s = none) : Assembled env [] w
  | new {gs : List Graph} {w : World} (h : Assembled env gs w) : Assembled env ({} :: gs) w
  /-- Graphs are copied and dropped. -/
  | subset {gs gs' : List Graph} {w : World} (h : Assembled env gs w) (hsub : gs' ⊆ gs) :
    Assembled env gs' w
  | elapse {gs : List Graph} {w w' : World} (h : Assembled env gs w) (hw : w.Lasts w') :
    Assembled env gs w'
  | build {g : Graph} {gs : List Graph} {w : World} {f : Build Unit}
    (h : Assembled env (g :: gs) w) (hf : Construction env (g :: gs) w f) :
    Assembled env ((stateAfter (f ⟨g, w⟩)).graph :: gs) (stateAfter (f ⟨g, w⟩)).world
  | mergeAdd {g extra g' : Graph} {gs : List Graph} {w w' : World} {replaced : List (Ref .process)}
    (h : Assembled env (g :: gs) w) (hextra : extra ∈ g :: gs)
    (hmerge : g.mergeAdd env.host extra w = .ok (replaced, g') w') : Assembled env (g' :: gs) w'
  | mergeModify {g next g' : Graph} {gs : List Graph} {boards : NameMap BoardConfigDiff}
    {w w' : World} {replaced : List (Ref .process)} (h : Assembled env (g :: gs) w)
    (hnext : next ∈ g :: gs)
    (hmerge : g.mergeModify env.host next boards w = .ok (replaced, g') w') :
    Assembled env (g' :: gs) w'
  | mergeRemove {g : Graph} {gs : List Graph} {w : World} (h : Assembled env (g :: gs) w)
    (old : Graph) : Assembled env (g.mergeRemove old :: gs) w
  | shutDown {g : Graph} {gs : List Graph} {w : World} (h : Assembled env (g :: gs) w) :
    Assembled env (g.shutDown :: gs) w

/-- What comes behind a handle was behind one of the same kind and name, so a remote robot that is
exchanged keeps its name. -/
theorem Graph.Modified.lasts {h : Host} {g next g' : Graph} {w w' : World}
    {replaced : List (Ref .process)} (hm : Modified h g next w replaced g' w') (hg : g.Intact w)
    (hnext : next.Intact w) : w.Lasts w' where
  behind := by
    intro s x hx
    -- a slot is exchanged for one of the same sort and name, or it is as it was
    by_cases hs : ∃ e ∈ g.exchanges next, e.target = s
    · obtain ⟨⟨k, name, live, new⟩, he, rfl⟩ := hs
      obtain ⟨hlive, hnew⟩ := mem_exchanges.mp he
      obtain ⟨y, hy⟩ := hnext.known _ _ _ hnew
      refine ⟨y, (hm.behind he).trans hy, ?_⟩
      cases k with
      | driver k =>
        obtain ⟨d, rfl⟩ := World.behind?_driver hx
        obtain ⟨d', rfl⟩ := World.behind?_driver hy
        rfl
      | remote =>
        obtain ⟨r, -, rfl⟩ := World.behind?_remote.mp hx
        obtain ⟨r', -, rfl⟩ := World.behind?_remote.mp hy
        exact congrArg some ((hnext.remoteNamed _ _ _ r' hnew hy).trans
          (hg.remoteNamed _ _ _ r hlive hx).symm)
    · exact ⟨x, (hm.others fun e he heq => hs ⟨e, he, heq.symm⟩).trans hx, rfl⟩
  processes := by
    obtain ⟨w₁, w₂, hstart, hexchanged, rfl⟩ := hm.world
    intro p q hq
    obtain ⟨q', hq', hid⟩ := hstart.processes p q hq
    rw [← hexchanged.processes] at hq'
    obtain ⟨q'', hq'', hid'⟩ := (World.retire_quiet h _ w₂).processes p q' hq'
    exact ⟨q'', hq'', hid'.trans hid⟩

namespace Coherent

variable {h : Host} {g : Graph} {gs : List Graph} {w w' : World} {replaced : List (Ref .process)}

/-- Handles of a graph that is added come to stand where they stood in it. -/
theorem mergeAdd {extra g' : Graph} (hgs : Coherent (g :: gs) w) (hextra : extra ∈ g :: gs)
    (hmerge : g.mergeAdd h extra w = .ok (replaced, g') w') : Coherent (g' :: gs) w' := by
  have hadded := Graph.mergeAdd_ok (hgs.intact extra hextra).processNamed hmerge
  have hg := List.mem_cons_self (a := g) (l := gs)
  have hw := hadded.world.extends.toRecalls.lasts
  refine ((hgs.subset (List.subset_cons_self g gs)).lasts hw).cons (hadded.intact
    (hgs.intact g hg) (hgs.intact extra hextra) (hgs.aligned g hg extra hextra)) ?_
  intro other hother k name x k' name' y hx hy heq
  have hmem := List.mem_cons_of_mem g hother
  rcases hadded.get?_cases hx with hx | ⟨-, hx⟩
  · exact hgs.aligned extra hextra other hmem _ _ _ _ _ _ hx hy heq
  · exact hgs.aligned g hg other hmem _ _ _ _ _ _ hx hy heq

/-- A merge exchanges what stands behind handles, but no handle. -/
theorem mergeModify {next g' : Graph} {boards : NameMap BoardConfigDiff}
    (hgs : Coherent (g :: gs) w) (hnext : next ∈ g :: gs)
    (hmerge : g.mergeModify h next boards w = .ok (replaced, g') w') :
    Coherent (g' :: gs) w' := by
  have hg := List.mem_cons_self (a := g) (l := gs)
  have hmodified := Graph.mergeModify_ok (hgs.intact g hg) (hgs.intact next hnext)
    (hgs.aligned g hg next hnext) hmerge
  have hw := hmodified.lasts (hgs.intact g hg) (hgs.intact next hnext)
  refine ((hgs.subset (List.subset_cons_self g gs)).lasts hw).cons
    (hmodified.intact (hgs.intact g hg) (hgs.intact next hnext)) ?_
  intro other hother k name x k' name' y hx
  rw [hmodified.entries] at hx
  exact hgs.aligned g hg other (List.mem_cons_of_mem g hother) _ _ _ _ _ _ hx

end Coherent

/-- However graphs were put together, they are intact and aligned. -/
theorem Assembled.coherent {env : Environment} {gs : List Graph} {w : World}
    (h : Assembled env gs w) : Coherent gs w := by
  induction h with
  | start => exact ⟨by simp, by simp⟩
  | new h ih =>
    refine ih.cons (Graph.intact_empty _) fun other _ k name x k' name' y hx => ?_
    rw [Graph.entries_empty] at hx
    cases hx
  | subset _ hsub ih => exact ih.subset hsub
  | elapse _ hw ih => exact ih.lasts hw
  | build _ hf ih => exact (hf.grows ih).coherent ih
  | mergeAdd _ hextra hmerge ih => exact ih.mergeAdd hextra hmerge
  | mergeModify _ hnext hmerge ih => exact ih.mergeModify hnext hmerge
  | mergeRemove _ old ih => exact (Grows.mergeRemove old).coherent ih
  | @shutDown g _ w _ ih =>
    have hgrows : Grows ⟨g, w⟩ ⟨g.shutDown, w⟩ :=
      .of_with (m := g.manager.shutDown) (.refl w) g.functions id
    exact hgrows.coherent ih

end RobotHost
