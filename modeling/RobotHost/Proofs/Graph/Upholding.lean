import RobotHost.Proofs.Graph.Displacement
import RobotHost.Proofs.Graph.Enduring

/-!
# What sensors can do is upheld

A graph is *apt* if each of its handles of sensors says what the sensor can do that is behind it now
(`Graph.Apt`). All steps on a graph keep this up, whether they succeed or not (`Upholds`,
`Making.upholds`): a sensor is registered for what it can do, and what is found by name is an entry
of some graph, so that a handle made anew from it says the same.

When parts are replaced, a sensor comes behind handles of other graphs too. These graphs stay apt as
only sensors of one capability are exchanged (`Graph.Apt.exchanged`).
-/

namespace RobotHost

/-! ## Apt graphs -/

namespace Graph

variable {f g g' : Graph} {w w' : World}

/-- Each handle of a sensor says what the sensor behind it can do. -/
def Apt (w : World) (g : Graph) : Prop :=
  ∀ k name h, (g.entries k).get? name = some h → w.Apt k h

/-- Handles of sensors stay right about what the sensors can do. -/
theorem Apt.endures (hg : g.Apt w) (hw : w.Endures w') : g.Apt w' :=
  fun k name h hh => (hg k name h hh).mono hw.behind hw.able

theorem Apt.mono (hg : g.Apt w)
    (hsub : ∀ k name h, (g'.entries k).get? name = some h → (g.entries k).get? name = some h) :
    g'.Apt w :=
  fun k name h hh => hg k name h (hsub k name h hh)

theorem apt_empty (w : World) : ({} : Graph).Apt w := by
  intro k name h hh
  rw [entries_empty] at hh
  cases hh

/-- A handle that is right about its sensor may be registered. -/
theorem Apt.insert (hg : g.Apt w) {k : Kind} {name : String} {h : k.Handle} (hh : w.Apt k h) :
    (g.insert k name h).Apt w :=
  forall_entries_insert hh fun k' name' h' _ hh' => hg k' name' h' hh'

theorem Apt.with (hg : g.Apt w) (fs : NameSet) (m : ProcessManager) :
    Apt w { g with functions := fs, manager := m } := by
  intro k name h hh
  rw [entries_with] at hh
  exact hg k name h hh

theorem Apt.mergeRemove (hg : g.Apt w) (old : Graph) : (g.mergeRemove old).Apt w := by
  refine hg.mono fun k name h hh => ?_
  rw [get?_mergeRemove] at hh
  split at hh
  · cases hh
  · exact hh

/-- What is found by name is apt, as it is an entry of the graph itself or of a robot. -/
theorem Apt.find? (hg : g.Apt w) (hrobots : ∀ f ∈ w.robots.rows, f.Apt w) {k : Kind}
    {name : String} {h : k.Handle} (hh : g.find? w k name = some h) : w.Apt k h := by
  rcases Option.or_eq_some_iff.mp hh with hown | ⟨-, hbeyond⟩
  · exact hg k name h hown
  · obtain ⟨remote, -, hremote⟩ := List.exists_of_findSome?_eq_some hbeyond
    obtain ⟨r, f, own, hf, hown⟩ := World.exists_entry_of_findIn? hremote
    exact hrobots f (List.mem_of_getElem? hf) k own h hown

end Graph

/-! ## Steps on one graph -/

/-- The world has endured, and a graph that was apt still is. -/
structure Upholds (s s' : Site) : Prop where
  world : s.world.Endures s'.world
  apt : s.graph.Apt s.world → s'.graph.Apt s'.world

namespace Upholds

variable {env : Environment} {g : Graph} {s t u : Site} {w w' : World}

theorem refl (s : Site) : Upholds s s := ⟨.refl _, id⟩

theorem trans (h : Upholds s t) (h' : Upholds t u) : Upholds s u :=
  ⟨h.world.trans h'.world, fun hs => h'.apt (h.apt hs)⟩

theorem of_with (hw : w.Endures w') (fs : NameSet) (m : ProcessManager) :
    Upholds ⟨g, w⟩ ⟨{ g with functions := fs, manager := m }, w'⟩ :=
  ⟨hw, fun hg => (hg.endures hw).with fs m⟩

theorem of_world (hw : w.Endures w') : Upholds ⟨g, w⟩ ⟨g, w'⟩ := ⟨hw, fun hg => hg.endures hw⟩

/-- To register a handle keeps a graph apt if the handle is right. -/
theorem insert (hw : w.Endures w') {k : Kind} {h : k.Handle} (name : String) (hh : w'.Apt k h) :
    Upholds ⟨g, w⟩ ⟨g.insert k name h, w'⟩ :=
  ⟨hw, fun hg => (hg.endures hw).insert hh⟩

/-- A sensor is registered for what it can do. -/
theorem register {d : Ref .driver} (hd : s.world.Knows d) (k : DriverKind) (name : String) :
    Upholds s (stateAfter (Build.register k name d s)) :=
  .insert (World.wrap_spec d k s.world).1.endures name (World.wrap_apt hd k)

theorem addRemote (h : Ref .remote) : Along Upholds (Build.addRemote h) := by
  intro s
  rw [Build.addRemote, read_bind]
  cases s.world.remotes.get? h with
  | none => exact .refl s
  | some remote => exact .insert (.refl _) remote.config.name trivial

theorem onGraph_function (name : String) :
    Along Upholds (Build.onGraph fun g => g.insertFunction name) :=
  fun s => .of_with (.refl _) (s.graph.functions.insert name ()) s.graph.manager

/-! ## Processes -/

theorem addProcess (h : Host) (p : Ref .process) (replace : Bool) :
    Along Upholds (Build.addProcess h p replace) := by
  intro s
  rw [Build.addProcess_eq]
  have halong := s.graph.manager.add_endures h p replace
  cases hadd : s.graph.manager.add h p replace s.world with
  | ok x w => exact .of_with (halong.of_ok hadd) s.graph.functions x.2
  | error e w => exact .of_world (halong.of_error hadd)

theorem addProgram (h : Host) (c : ProcessConfig) : Along Upholds (Build.addProgram h c) := by
  intro s
  rw [Build.addProgram_eq]
  have halong := s.graph.manager.addProgram_endures h c
  cases hadd : s.graph.manager.addProgram h c s.world with
  | ok x w => exact .of_with (halong.of_ok hadd) s.graph.functions x.2
  | error e w => exact .of_world (halong.of_error hadd)

theorem startProcesses (h : Host) : Along Upholds (Build.startProcesses h) := by
  intro s
  rw [Build.startProcesses_eq]
  have halong := s.graph.manager.startedUp.startAll_endures h
  cases hstart : s.graph.manager.startedUp.startAll h s.world with
  | ok x w => exact .of_with (halong.of_ok hstart) s.graph.functions _
  | error e w => exact .of_with (halong.of_error hstart) s.graph.functions _

/-! ## Configurations -/

/-- The handle of a driver that is built is right, as what it can do is asked of the driver. -/
theorem driver (henv : env.Grounded) (name : String) (b : Blueprint) :
    Along Upholds (Build.driver env name b) := by
  intro s
  have hw := env.construct_endures b s.world
  cases hdriver : Build.driver env name b s with
  | error e s' =>
    obtain ⟨cause, w, hmade, -, rfl⟩ := Build.driver_refused hdriver
    rw [hmade] at hw
    exact .of_world hw
  | ok x s' =>
    obtain ⟨d, t, hd, hregister⟩ := bind_eq_ok.mp hdriver
    rw [Build.construct_eq] at hd
    split at hd
    case h_2 => cases hd
    case h_1 d' w hmade =>
      cases hd
      rw [hmade] at hw
      -- the driver answers as its kind asks, since the environment is grounded
      have hregistered := register (s := ⟨s.graph, w⟩) (henv.construct_knows hmade) b.kind name
      rw [hregister] at hregistered
      exact .trans (.of_world hw) hregistered

theorem remote (env : Environment) (c : RemoteConfig) : Along Upholds (Build.remote env c) := by
  intro s
  rw [Build.remote_eq]
  cases env.connector s.world c.address with
  | error cause => exact .of_world (World.note_endures _ _)
  | ok connection =>
    exact .insert ((World.note_endures _ _).trans (World.addRemote_endures _ _)) c.name trivial

/-- Whatever an item is and however its build ends, an apt graph stays apt. -/
theorem item (henv : env.Grounded) (i : Item) : Along Upholds (i.build env) := by
  cases i with
  | remote c => exact remote env c
  | board name c =>
    cases c with
    | error e => exact .refl
    | ok c => exact driver henv name (.board c)
  | component c =>
    rw [Item.build_component]
    cases c.blueprint with
    | error e => exact .refl
    | ok b => exact driver henv c.name b

/-- However far a build comes. -/
theorem staged (henv : env.Grounded) (ps : List ProcessConfig) (items : List Item)
    (fs : List FunctionConfig) : Along Upholds (Build.staged env ps items fs) := by
  have htrans : ∀ s t u : Site, Upholds s t → Upholds t u → Upholds s u := fun _ _ _ => .trans
  have hadd : ∀ c : ProcessConfig, Along Upholds (do let _ ← Build.addProgram env.host c) :=
    fun c => (addProgram env.host c).bind htrans fun _ => along_pure .refl ()
  have hprocesses : Along Upholds (Build.processes env ps) :=
    (Build.each_along .refl htrans hadd ps).bind htrans fun _ => startProcesses env.host
  refine hprocesses.bind htrans fun _ => ?_
  refine (Build.each_along .refl htrans (item henv) items).bind htrans fun _ => ?_
  exact Build.each_along .refl htrans (fun f : FunctionConfig => onGraph_function f.name) fs

/-! ## Selections -/

/-- A handle that is made anew for a selection says what the one says that was found. -/
theorem selectDriver (hg : g.Apt s.world) (hrobots : ∀ f ∈ s.world.robots.rows, f.Apt s.world)
    (k : DriverKind) (name : String) : Upholds s (stateAfter (g.selectDriver k name s)) := by
  rw [Graph.selectDriver_eq]
  cases hfind : g.find? s.world (.driver k) name with
  | none => exact .refl s
  | some h =>
    cases hx : s.world.behind? (Kind.slot (.driver k) h) with
    | none =>
      simp only [World.rewrap_of_empty hx]
      exact .refl s
    | some x =>
      obtain ⟨d, rfl⟩ := World.behind?_driver hx
      obtain ⟨h', hrewrap, hwires, hcopies⟩ := World.rewrap_spec hx
      rcases hpair : World.rewrap k h s.world with ⟨answer, w'⟩
      rw [hpair] at hrewrap hwires hcopies
      obtain rfl : answer = some h' := hrewrap
      simp only [hpair]
      exact .insert hwires.endures name (hcopies.apt hwires.endures (hg.find? hrobots hfind))

/-- A handle that is selected is wired anew, for what the old one said. -/
theorem selectItem (hg : g.Apt s.world) (hrobots : ∀ f ∈ s.world.robots.rows, f.Apt s.world)
    (i : Item) : Upholds s (stateAfter (g.selectItem i s)) := by
  cases i with
  | remote c =>
    show Upholds s (stateAfter (g.selectRemote c.name s))
    unfold Graph.selectRemote
    cases g.remotes.get? c.name with
    | some h => exact addRemote h s
    | none => exact .refl s
  | board name _ => exact selectDriver hg hrobots .board name
  | component c =>
    show Upholds s (stateAfter (g.selectComponent c s))
    unfold Graph.selectComponent
    cases c.type.driverKind? with
    | some k => exact selectDriver hg hrobots k c.name
    | none => exact .refl s

/-- Each stage of a selection keeps the graph apt. -/
theorem selectConfig (h : Host) (hg : g.Apt w) (hrobots : ∀ f ∈ w.robots.rows, f.Apt w)
    (c : Config) (hs : w.Endures s.world) : Upholds s (stateAfter (g.selectConfig h c s)) := by
  -- parts are found in the worlds that follow, which have the robots of the first
  have halong : Along (fun s t : Site => w.Endures s.world → Upholds s t)
      (g.selectConfig h c) := by
    have hrefl : ∀ s : Site, w.Endures s.world → Upholds s s := fun s _ => .refl s
    have htrans : ∀ s t u : Site, (w.Endures s.world → Upholds s t) →
        (w.Endures t.world → Upholds t u) → w.Endures s.world → Upholds s u :=
      fun s t u hst htu hs => (hst hs).trans (htu (hs.trans (hst hs).world))
    have hitem : ∀ i : Item, Along (fun s t : Site => w.Endures s.world → Upholds s t)
        (g.selectItem i) := by
      intro i s hs
      refine selectItem (hg.endures hs) (fun f hf => ?_) i
      rw [hs.robots] at hf
      exact (hrobots f hf).endures hs
    have hprocess : ∀ p : ProcessConfig, Along Upholds (g.selectProcess h p.id) := by
      intro p
      unfold Graph.selectProcess
      split
      · next q _ =>
        exact (addProcess h q false).bind (fun _ _ _ => .trans) fun _ => along_pure .refl ()
      · exact along_pure .refl ()
    have hfunction : ∀ f : FunctionConfig, Along Upholds (g.selectFunction f.name) := by
      intro f
      unfold Graph.selectFunction
      split
      · exact onGraph_function f.name
      · exact along_pure .refl ()
    rw [Graph.selectConfig_eq]
    refine (Build.each_along hrefl htrans (fun p s _ => hprocess p s) _).bind htrans fun _ => ?_
    refine (Build.each_along hrefl htrans hitem _).bind htrans fun _ => ?_
    exact Build.each_along hrefl htrans (fun f s _ => hfunction f s) _
  exact halong s hs

end Upholds

/-- What can be done to a graph under construction, when these graphs are at hand: a `Construction`
that registers only drivers of the world. -/
inductive Making (env : Environment) (gs : List Graph) (w : World) : Build Unit → Prop
  | config (c : Config) : Making env gs w (Build.config env c)
  | modified (m : ModifiedConfig) : Making env gs w (Build.modified env m)
  | register {d : Ref .driver} (hd : w.Knows d) (k : DriverKind) (name : String) :
    Making env gs w (Build.register k name d)
  | remote (h : Ref .remote) : Making env gs w (Build.addRemote h)
  | function (name : String) : Making env gs w (Build.onGraph fun g => g.insertFunction name)
  | process {p : Ref .process} {q : Process} (hp : w.processes.get? p = some q) (replace : Bool) :
    Making env gs w (do let _ ← Build.addProcess env.host p replace)
  | program (c : ProcessConfig) : Making env gs w (do let _ ← Build.addProgram env.host c)
  | start : Making env gs w (Build.startProcesses env.host)
  | select {g : Graph} (hg : g ∈ gs) (c : Config) : Making env gs w (g.selectConfig env.host c)

namespace Making

variable {env : Environment} {g : Graph} {gs : List Graph} {w : World} {f : Build Unit}

/-- So does all that can be done to a graph under construction. -/
theorem construction (hf : Making env gs w f) : Construction env gs w f := by
  cases hf with
  | config c => exact .config c
  | modified m => exact .modified m
  | register _ k name => exact .register k name _
  | remote h => exact .remote h
  | function name => exact .function name
  | process hp replace => exact .process hp replace
  | program c => exact .program c
  | start => exact .start
  | select hg c => exact .select hg c

/-- Whether it succeeds or not, it leaves apt graphs apt. -/
theorem upholds (hf : Making env gs w f) (henv : env.Grounded) (hgs : ∀ g ∈ gs, g.Apt w)
    (hrobots : ∀ f ∈ w.robots.rows, f.Apt w) : Upholds ⟨g, w⟩ (stateAfter (f ⟨g, w⟩)) := by
  cases hf with
  | config c =>
    rw [Build.config_eq]
    exact Upholds.staged henv _ _ _ _
  | modified m =>
    rw [Build.modified_eq]
    exact Upholds.staged henv _ _ _ _
  | register hd k name => exact Upholds.register hd k name
  | remote h => exact Upholds.addRemote h _
  | function name => exact Upholds.onGraph_function name _
  | process hp replace =>
    rw [stateAfter_discard]
    exact Upholds.addProcess env.host _ replace _
  | program c =>
    rw [stateAfter_discard]
    exact Upholds.addProgram env.host c _
  | start => exact Upholds.startProcesses env.host _
  | select hg c => exact Upholds.selectConfig env.host (hgs _ hg) hrobots c (.refl w)

end Making

/-! ## Merges -/

namespace Graph

variable {f g g' extra next : Graph} {h : Host} {w w' : World} {replaced : List (Ref .process)}

theorem mergeAdd_endures (h : Host) (g extra : Graph) : Along World.Endures (g.mergeAdd h extra) :=
  (g.manager.addAll_endures h extra.manager).bind (fun _ _ _ => .trans)
    fun _ => along_pure .refl _

/-- What is put together from two apt graphs is apt. -/
theorem Apt.added (hg : g.Apt w) (hextra : extra.Apt w) (h : Added g extra w replaced g' w') :
    g'.Apt w := by
  intro k name x hx
  rcases h.get?_cases hx with hx | ⟨-, hx⟩
  · exact hextra k name x hx
  · exact hg k name x hx

/-- Drivers are only closed when parts are replaced, and robots are left alone. -/
theorem mergeModify_able {boards : NameMap BoardConfigDiff} (hg : g.Intact w)
    (hnext : next.Intact w) (haligned : g.Aligned next)
    (hmerge : g.mergeModify h next boards w = .ok (replaced, g') w') :
    w.Able w' ∧ w'.robots = w.robots := by
  obtain ⟨hmismatch, m, u, hadd, rfl, rfl⟩ := mergeModify_eq_ok.mp hmerge
  have hstart := (g.manager.addAll_endures h next.manager).of_ok hadd
  obtain ⟨-, hexchanged⟩ := commitEach_swaps boards hg hnext haligned hmismatch
    ((ProcessManager.addAll_launches h g.manager next.manager).of_ok hadd)
  have hretired := World.retire_endures h (Swap.commitEach boards (g.swaps w next) u).1
    (Swap.commitEach boards (g.swaps w next) u).2
  refine ⟨(hstart.able.trans (.of_drivers hexchanged.drivers)).trans hretired.able, ?_⟩
  exact hretired.robots.trans (hexchanged.robots.trans hstart.robots)

theorem mergeModify_error_endures {boards : NameMap BoardConfigDiff} {e : RobotError}
    (hmerge : g.mergeModify h next boards w = .error e w') : w.Endures w' := by
  rcases mergeModify_eq_error.mp hmerge with ⟨-, rfl⟩ | ⟨-, e', -, hadd⟩
  · exact .refl _
  · exact (g.manager.addAll_endures h next.manager).of_error hadd

/-- When parts are replaced in one graph, all graphs that share its handles stay apt: a sensor comes
only behind handles of its own capability. -/
theorem Apt.exchanged (hf : f.Apt w) (hg : g.Apt w) (hnext : next.Apt w) (haligned : g.Aligned f)
    (hfits : ∀ x ∈ g.exchanges next, x.Fits) (hm : Modified h g next w replaced g' w')
    (hable : w.Able w') : f.Apt w' := by
  intro k name x hx
  match k with
  | .remote | .driver .board | .driver (.part _) => exact trivial
  | .driver .sensor =>
    obtain ⟨d, driver, hd, hdriver, hcapability⟩ := hf _ _ _ hx
    by_cases hs : ∃ e ∈ g.exchanges next, e.target = .proxy x.proxy
    · obtain ⟨⟨k, name', live, new⟩, he, htarget⟩ := hs
      obtain ⟨hlive, hnew⟩ := mem_exchanges.mp he
      obtain ⟨rfl, rfl⟩ := haligned _ _ _ _ _ _ hlive hx htarget
      -- both handles said the same of the sensor before, and so does that of the new one
      obtain ⟨d', driver', hd', hdriver', hcapability'⟩ := hg _ _ _ hlive
      have hsame : live.proxy = x.proxy := Slot.proxy.inj htarget
      rw [hsame, hd] at hd'
      cases hd'
      rw [hdriver] at hdriver'
      cases hdriver'
      obtain ⟨e, sensor, he', hsensor, hnewCapability⟩ := hnext _ _ _ hnew
      obtain ⟨sensor', hsensor', hkept⟩ := hable e sensor hsensor
      refine ⟨e, sensor', ?_, hsensor', ?_⟩
      · rw [← htarget, hm.behind he]
        exact he'
      · calc sensor'.capability
          _ = new.capability := hkept.trans hnewCapability
          _ = live.capability := (hfits _ he).symm
          _ = x.capability := hcapability'.symm.trans hcapability
    · obtain ⟨driver', hdriver', hkept⟩ := hable d driver hdriver
      refine ⟨d, driver', ?_, hdriver', hkept.trans hcapability⟩
      rw [hm.others fun e he heq => hs ⟨e, he, heq.symm⟩, hd]

end Graph

end RobotHost
