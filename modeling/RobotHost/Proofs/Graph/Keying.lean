import RobotHost.Proofs.Graph.Upholding

/-!
# Graphs stay well keyed

Graphs share handles, so what one of them exchanges is exchanged for all. Still, wherever graphs have
come by the operations on graphs and managers (`Reached`), a handle to a remote robot stands under
the name that the robot has in its settings now, a process under its own id and no handle under two
keys, and the handle of a sensor says just what the sensor can do that is behind it now
(`Reached.wellKeyed`).

The invariant is `Sound`: the graphs are coherent and each is apt. The robots that answer calls have
graphs as well, and parts are selected from these too, so it is about all of them.
-/

namespace RobotHost

/-! ## Sound graphs -/

/-- What stands in place of something after a step: the answer of the step, or the thing itself if
the step fails. -/
def resultOr {ε σ α β : Type} (x : β) : EStateM.Result ε σ (α × β) → β
  | .ok (_, y) _ => y
  | .error _ _ => x

/-- Coherent graphs, each of which is apt. -/
structure Sound (gs : List Graph) (w : World) : Prop extends Coherent gs w where
  apt : ∀ g ∈ gs, g.Apt w

namespace Sound

variable {g g' : Graph} {gs gs' : List Graph} {h : Host} {w w' : World}

theorem subset (hgs : Sound gs w) (hsub : gs' ⊆ gs) : Sound gs' w :=
  ⟨hgs.toCoherent.subset hsub, fun g hg => hgs.apt g (hsub hg)⟩

/-- Graphs stay sound in a world that endures. -/
theorem endures (hgs : Sound gs w) (hw : w.Endures w') : Sound gs w' :=
  ⟨hgs.lasts hw.toRecalls.lasts, fun g hg => (hgs.apt g hg).endures hw⟩

/-- Which robots answer calls makes no difference. -/
theorem withRobots (hgs : Sound gs w) (robots : Table .robot Graph) :
    Sound gs { w with robots := robots } where
  toCoherent := hgs.lasts ⟨fun s x hx => ⟨x, by cases s <;> exact hx, rfl⟩,
    fun _ q hq => ⟨q, hq, rfl⟩⟩
  apt := fun g hg k name x hx => (hgs.apt g hg k name x hx).mono
    (fun s y hy => by cases s <;> exact hy) (.of_drivers rfl)

/-- A graph that grows and is upheld may stand in for what it was. -/
theorem grow (hgs : Sound (g :: gs ++ w.robots.rows) w) (hgrows : Grows ⟨g, w⟩ ⟨g', w'⟩)
    (hupholds : Upholds ⟨g, w⟩ ⟨g', w'⟩) : Sound (g' :: gs ++ w'.robots.rows) w' := by
  obtain ⟨hg, hothers⟩ := List.forall_mem_cons.mp hgs.apt
  rw [hupholds.world.robots]
  refine ⟨hgrows.coherent hgs.toCoherent, List.forall_mem_cons.mpr ⟨hupholds.apt hg, ?_⟩⟩
  exact fun f hf => (hothers f hf).endures hupholds.world

/-- So may one whose manager was worked on. -/
theorem manage {m : ProcessManager} (hgs : Sound (g :: gs ++ w.robots.rows) w)
    (hw : w.Endures w') (hm : g.manager.Keyed w → m.Keyed w') :
    Sound ({ g with manager := m } :: gs ++ w'.robots.rows) w' :=
  hgs.grow (.of_with hw.toRecalls.lasts g.functions hm) (.of_with hw g.functions m)

theorem cons_empty (hgs : Sound gs w) : Sound ({} :: gs) w := by
  refine ⟨hgs.cons (Graph.intact_empty w) fun other _ k name x _ _ _ hx => ?_,
    List.forall_mem_cons.mpr ⟨Graph.apt_empty w, hgs.apt⟩⟩
  rw [Graph.entries_empty] at hx
  cases hx

/-- All graphs stay sound when one is added to another, or fails to be. -/
theorem mergeAdd {extra : Graph} (hgs : Sound (g :: gs) w) (hextra : extra ∈ g :: gs) :
    Sound (resultOr g (g.mergeAdd h extra w) :: gs) (stateAfter (g.mergeAdd h extra w)) := by
  have hw := Graph.mergeAdd_endures h g extra w
  cases hmerge : g.mergeAdd h extra w with
  | error e w' =>
    rw [hmerge] at hw
    exact hgs.endures hw
  | ok x w' =>
    obtain ⟨replaced, g'⟩ := x
    rw [hmerge] at hw
    have hadded := Graph.mergeAdd_ok (hgs.intact extra hextra).processNamed hmerge
    have hgraphs := (hgs.endures hw).apt
    refine ⟨hgs.toCoherent.mergeAdd hextra hmerge, List.forall_mem_cons.mpr ⟨?_, ?_⟩⟩
    · exact ((hgs.apt g List.mem_cons_self).added (hgs.apt extra hextra) hadded).endures hw
    · exact fun f hf => hgraphs f (List.mem_cons_of_mem g hf)

/-- And so they do when parts of one are put behind the handles of another. -/
theorem mergeModify {next : Graph} (hgs : Sound (g :: gs) w) (h : Host)
    (boards : NameMap BoardConfigDiff) (hnext : next ∈ g :: gs) :
    Sound (resultOr g (g.mergeModify h next boards w) :: gs)
        (stateAfter (g.mergeModify h next boards w)) ∧
      (stateAfter (g.mergeModify h next boards w)).robots = w.robots := by
  have hg := List.mem_cons_self (a := g) (l := gs)
  cases hmerge : g.mergeModify h next boards w with
  | error e w' =>
    have hw := Graph.mergeModify_error_endures hmerge
    exact ⟨hgs.endures hw, hw.robots⟩
  | ok x w' =>
    obtain ⟨replaced, g'⟩ := x
    have haligned := hgs.aligned g hg next hnext
    obtain ⟨hable, hrobots⟩ :=
      Graph.mergeModify_able (hgs.intact g hg) (hgs.intact next hnext) haligned hmerge
    have hmodified :=
      Graph.mergeModify_ok (hgs.intact g hg) (hgs.intact next hnext) haligned hmerge
    have hmismatch := (Graph.mergeModify_eq_ok.mp hmerge).1
    -- the other graphs have handles in common with this one, so the exchange is one for them too
    have hapt : ∀ f ∈ g :: gs, f.Apt w' := fun f hf =>
      (hgs.apt f hf).exchanged (hgs.apt g hg) (hgs.apt next hnext) (hgs.aligned g hg f hf)
        (fun _ => Graph.fits_of_sensorMismatch? hmismatch) hmodified hable
    refine ⟨⟨hgs.toCoherent.mergeModify hnext hmerge, List.forall_mem_cons.mpr ⟨?_, ?_⟩⟩, hrobots⟩
    · refine (hapt g hg).mono fun k name x hx => ?_
      rwa [resultOr, hmodified.entries] at hx
    · exact fun f hf => hapt f (List.mem_cons_of_mem g hf)

end Sound

/-! ## Operations on managers -/

namespace ProcessManager

/-- What can be done with a manager when these managers are at hand, whether it succeeds or not. -/
inductive Operation (h : Host) (ms : List ProcessManager) (m : ProcessManager) (w : World) :
    ProcessManager → World → Prop
  | add {p : Ref .process} {q : Process} (hp : w.processes.get? p = some q) (replace : Bool) :
    Operation h ms m w (resultOr m (m.add h p replace w)) (stateAfter (m.add h p replace w))
  | program (c : ProcessConfig) :
    Operation h ms m w (resultOr m (m.addProgram h c w)) (stateAfter (m.addProgram h c w))
  | addAll {other : ProcessManager} (hother : other ∈ ms) :
    Operation h ms m w (resultOr m (m.addAll h other w)) (stateAfter (m.addAll h other w))
  | remove (id : String) : Operation h ms m w (m.remove id) w
  | removeAll (other : ProcessManager) : Operation h ms m w (m.removeAll other) w
  | start : Operation h ms m w m.startedUp (stateAfter (m.startedUp.startAll h w))
  | stop : Operation h ms m w m.shutDown (m.stopAll h w).2

variable {h : Host} {ms : List ProcessManager} {m m' : ProcessManager} {w w' : World}

/-- Whatever is done with a manager, the world endures it. -/
theorem Operation.endures (hm : Operation h ms m w m' w') : w.Endures w' := by
  cases hm with
  | add hp replace => exact m.add_endures h _ replace w
  | program c => exact m.addProgram_endures h c w
  | addAll hother => exact m.addAll_endures h _ w
  | remove id => exact .refl w
  | removeAll other => exact .refl w
  | start => exact m.startedUp.startAll_endures h w
  | stop => exact World.stopEach_endures h _ w

/-- A program that is added stands under its id. -/
theorem Keyed.addProgram {c : ProcessConfig} {p : Ref .process} (hm : m.Keyed w)
    (hadd : m.addProgram h c w = .ok (p, m') w') : m'.Keyed w' := by
  rw [addProgram_eq] at hadd
  split at hadd
  · next hok =>
    cases hadd
    have hnew : (World.addProcess (.program { config := c }) w).2.processes.get? w.processes.next =
        some (.program { config := c }) := by
      show (w.processes.push _).get? _ = _
      rw [Table.get?_push, if_pos rfl]
    exact (hm.recalls (World.addProcess_endures _ w).toRecalls).add hnew hok
  · cases hadd

/-- Whatever is done with a manager, its processes stand under their own ids. -/
theorem Operation.keyed (hop : Operation h ms m w m' w') (hm : m.Keyed w)
    (hms : ∀ other ∈ ms, other.Keyed w) : m'.Keyed w' := by
  -- where the operation fails the manager is as it was
  have hkept := hm.recalls hop.endures.toRecalls
  cases hop with
  | @add p q hp replace =>
    cases hadd : m.add h p replace w with
    | ok x u => exact hm.add hp hadd
    | error e u => rwa [hadd] at hkept
  | program c =>
    cases hadd : m.addProgram h c w with
    | ok x u => exact hm.addProgram hadd
    | error e u => rwa [hadd] at hkept
  | @addAll other hother =>
    cases hadd : m.addAll h other w with
    | ok x u => exact hm.addAll (hms other hother) hadd
    | error e u => rwa [hadd] at hkept
  | remove id => exact hm.remove id
  | removeAll other => exact hm.removeAll other
  | start => exact hkept
  | stop => exact hkept

end ProcessManager

theorem Graph.adopt_endures (h : Host) (g : Graph) (ps : List (Ref .process)) (w : World) :
    w.Endures (g.adopt h ps w).2.2 := by
  induction ps generalizing g w with
  | nil => exact .refl w
  | cons p rest ih =>
    have hw := g.manager.add_endures h p false w
    rw [adopt]
    cases hadd : g.manager.add h p false w with
    | ok x u =>
      rw [hadd] at hw
      exact World.Endures.trans hw (ih _ u)
    | error e u =>
      rw [hadd] at hw
      cases e <;> exact hw

/-! ## All operations -/

/-- What the operations on graphs and managers lead to, whether they succeed or not: these graphs are
at hand in this world. Between the operations, anything may happen that the world endures, but no
handle is exchanged but by them. -/
inductive Reached (env : Environment) : List Graph → World → Prop
  /-- No graph is at hand, no handle was made, and no robot answers calls. -/
  | start {w : World} (hempty : ∀ s, w.behind? s = none) (hrobots : w.robots = {}) :
    Reached env [] w
  | new {gs : List Graph} {w : World} (h : Reached env gs w) : Reached env ({} :: gs) w
  /-- Graphs are copied and dropped. -/
  | subset {gs gs' : List Graph} {w : World} (h : Reached env gs w) (hsub : gs' ⊆ gs) :
    Reached env gs' w
  | elapse {gs : List Graph} {w w' : World} (h : Reached env gs w) (hw : w.Endures w') :
    Reached env gs w'
  /-- A driver answers a call. -/
  | call {gs : List Graph} {w : World} {d : Ref .driver} {driver driver' : Driver} {c : Call}
    {r : Reply} (h : Reached env gs w) (hd : w.drivers.get? d = some driver)
    (hanswer : driver.answer c = .ok (r, driver')) :
    Reached env gs { w with drivers := w.drivers.set d driver' }
  /-- One more robot answers calls. -/
  | serve {g : Graph} {gs : List Graph} {w : World} (h : Reached env gs w) (hg : g ∈ gs) :
    Reached env gs (World.addRobot g w).2
  /-- A robot that answers calls gets another graph. -/
  | move {g : Graph} {gs : List Graph} {w : World} (h : Reached env gs w) (hg : g ∈ gs)
    (r : Ref .robot) : Reached env gs { w with robots := w.robots.set r g }
  | build {g : Graph} {gs : List Graph} {w : World} {f : Build Unit}
    (h : Reached env (g :: gs) w) (hf : Making env (g :: gs) w f) :
    Reached env ((stateAfter (f ⟨g, w⟩)).graph :: gs) (stateAfter (f ⟨g, w⟩)).world
  | manage {g : Graph} {gs : List Graph} {w w' : World} {m : ProcessManager}
    (h : Reached env (g :: gs) w)
    (hm : g.manager.Operation env.host ((g :: gs).map Graph.manager) w m w') :
    Reached env ({ g with manager := m } :: gs) w'
  /-- Processes of the world are handed over. -/
  | adopt {g : Graph} {gs : List Graph} {w : World} {ps : List (Ref .process)}
    (h : Reached env (g :: gs) w) (hps : ∀ p ∈ ps, ∃ q, w.processes.get? p = some q) :
    Reached env ((g.adopt env.host ps w).2.1 :: gs) (g.adopt env.host ps w).2.2
  | mergeAdd {g extra : Graph} {gs : List Graph} {w : World} (h : Reached env (g :: gs) w)
    (hextra : extra ∈ g :: gs) :
    Reached env (resultOr g (g.mergeAdd env.host extra w) :: gs)
      (stateAfter (g.mergeAdd env.host extra w))
  | mergeModify {g next : Graph} {gs : List Graph} {w : World} (h : Reached env (g :: gs) w)
    (hnext : next ∈ g :: gs) (boards : NameMap BoardConfigDiff) :
    Reached env (resultOr g (g.mergeModify env.host next boards w) :: gs)
      (stateAfter (g.mergeModify env.host next boards w))
  | mergeRemove {g : Graph} {gs : List Graph} {w : World} (h : Reached env (g :: gs) w)
    (old : Graph) : Reached env (g.mergeRemove old :: gs) w
  | close {g : Graph} {gs : List Graph} {w : World} (h : Reached env (g :: gs) w) :
    Reached env (g.shutDown :: gs) (g.close env.host w).2

/-- Graphs are sound wherever the operations lead, those of the robots that answer calls included. -/
theorem Reached.sound {env : Environment} {gs : List Graph} {w : World} (h : Reached env gs w)
    (henv : env.Grounded) : Sound (gs ++ w.robots.rows) w := by
  induction h with
  | start hempty hrobots =>
    rw [hrobots]
    exact ⟨⟨by simp, by simp⟩, by simp⟩
  | new _ ih => exact ih.cons_empty
  | subset _ hsub ih => exact ih.subset (List.append_subset.mpr
      ⟨List.Subset.trans hsub (List.subset_append_left _ _), List.subset_append_right _ _⟩)
  | elapse _ hw ih =>
    rw [hw.robots]
    exact ih.endures hw
  | call _ hd hanswer ih => exact ih.endures (World.answer_endures hd hanswer)
  -- robots get graphs that are at hand, and those are sound already
  | @serve g gs w _ hg ih =>
    refine (ih.withRobots (w.robots.push g)).subset fun f hf => ?_
    rcases List.mem_append.mp hf with hf | hf
    · exact List.mem_append_left _ hf
    · rcases List.mem_append.mp hf with hf | hf
      · exact List.mem_append_right _ hf
      · exact List.mem_append_left _ (List.mem_singleton.mp hf ▸ hg)
  | @move g gs w _ hg r ih =>
    refine (ih.withRobots (w.robots.set r g)).subset fun f hf => ?_
    rcases List.mem_append.mp hf with hf | hf
    · exact List.mem_append_left _ hf
    · rcases Table.mem_rows_set hf with hf | rfl
      · exact List.mem_append_right _ hf
      · exact List.mem_append_left _ hg
  | @build g gs w f _ hf ih =>
    have hgs := ih.subset (List.subset_append_left _ w.robots.rows)
    -- what is built may be selected from the graphs at hand, which may find parts behind their
    -- remote robots, so that the robots that answer calls are to be sound as well
    refine ih.grow (hf.construction.grows hgs.toCoherent) (hf.upholds henv hgs.apt fun f hf => ?_)
    exact ih.apt f (List.mem_append_right _ hf)
  | @manage g gs w w' m _ hm ih =>
    refine ih.manage hm.endures fun hg => hm.keyed hg fun other hother => ?_
    obtain ⟨f, hf, rfl⟩ := List.mem_map.mp hother
    exact (ih.intact f (List.mem_append_left _ hf)).processNamed
  | @adopt g gs w ps _ hps ih =>
    have hadopted : Graph.Adopted g ps w (g.adopt env.host ps w).1 (g.adopt env.host ps w).2.1
        (g.adopt env.host ps w).2.2 := Graph.adopt_adopted (h := env.host) rfl
    have hsound := ih.manage (g.adopt_endures env.host ps w) fun hg => hadopted.keyed hg hps
    rwa [← hadopted.graph] at hsound
  | @mergeAdd g extra gs w _ hextra ih =>
    rw [(Graph.mergeAdd_endures env.host g extra w).robots]
    exact ih.mergeAdd (List.mem_append_left _ hextra)
  | mergeModify _ hnext boards ih =>
    obtain ⟨hsound, hrobots⟩ := ih.mergeModify env.host boards (List.mem_append_left _ hnext)
    rw [hrobots]
    exact hsound
  | mergeRemove _ old ih =>
    exact ih.grow (.mergeRemove old) ⟨.refl _, fun hg => hg.mergeRemove old⟩
  | @close g gs w _ ih =>
    have hw := g.close_endures env.host w
    exact ih.manage hw fun hg => hg.recalls hw.toRecalls

/-! ## Keys -/

/-- What stands under which key in some graphs is what the keys say. -/
structure WellKeyed (gs : List Graph) (w : World) : Prop where
  /-- Remote robots stand under the names that they have in their settings. -/
  remotes : ∀ g ∈ gs, ∀ name h, g.remotes.get? name = some h →
    ∃ remote, w.remotes.get? h = some remote ∧ remote.config.name = name
  /-- Processes stand under their ids. -/
  processes : ∀ g ∈ gs, ∀ id p, g.manager.get? id = some p →
    ∃ q, w.processes.get? p = some q ∧ q.id = id
  /-- Handles in one slot stand under one key, also those of different graphs. -/
  once : ∀ g ∈ gs, ∀ other ∈ gs, ∀ k name h k' name' h', (g.entries k).get? name = some h →
    (other.entries k').get? name' = some h' → k.slot h = k'.slot h' → k = k' ∧ name = name'
  /-- A sensor has the richest capability that the driver behind its handle offers. -/
  sensors : ∀ g ∈ gs, ∀ name h, g.sensors.get? name = some h →
    ∃ d driver, w.actual? (.driver .sensor) h = some d ∧ w.drivers.get? d = some driver ∧
      [Capability.relativeCompass, .compass, .sensor].find? driver.offers = some h.capability

/-- Sound graphs hold their processes, remote robots and sensors under the right keys. -/
theorem Sound.keyed {gs : List Graph} {w : World} (h : Sound gs w) : WellKeyed gs w where
  remotes := by
    intro g hg name r hr
    obtain ⟨x, hx⟩ := (h.intact g hg).known .remote name r hr
    obtain ⟨remote, hremote, rfl⟩ := World.behind?_remote.mp hx
    exact ⟨remote, hremote, (h.intact g hg).remoteNamed .remote name r remote hr hx⟩
  processes := fun g hg => (h.intact g hg).processNamed
  once := h.aligned
  sensors := by
    intro g hg name s hs
    obtain ⟨d, driver, hbehind, hd, hcapability⟩ := h.apt g hg (.driver .sensor) name s hs
    exact ⟨d, driver, World.actual?_eq_some_iff.mpr hbehind, hd, by
      rw [driver.find?_offers, hcapability]⟩

/-- Wherever the operations on graphs lead, the graphs at hand and those of all robots that answer
calls are well keyed, and so are the handles that they share. -/
theorem Reached.wellKeyed {env : Environment} {gs : List Graph} {w : World}
    (h : Reached env gs w) (henv : env.Grounded) : WellKeyed (gs ++ w.robots.rows) w :=
  (h.sound henv).keyed

namespace Sample

/-- Simulated drivers are made anew each time. -/
theorem grounded : Graph.Sample.environment.Grounded :=
  fun _ b d hmade => absurd hmade (Simulated.make_ne_existing b d)

/-- A remote robot at an address. -/
def base (address : String) : Remote := ⟨{ name := "base", address := address }, .robot ⟨0⟩⟩

def compasses : World where
  drivers := ⟨[{ name := "old", device := .compass {} }, { name := "new", device := .compass {} }]⟩

/-- Two compasses, and the same remote robot at two addresses. -/
def surroundings : World :=
  (World.addRemote (base "base:2") (World.addRemote (base "base:1") compasses).2).2

/-- A graph with the first compass, and with the remote robot at its first address. -/
def running : Site :=
  stateAfter (Build.addRemote ⟨0⟩
    (stateAfter (Build.register .sensor "north" ⟨0⟩ ⟨{}, surroundings⟩)))

/-- Another graph, with the second compass and the second address under the same names. -/
def next : Site :=
  stateAfter (Build.addRemote ⟨1⟩
    (stateAfter (Build.register .sensor "north" ⟨1⟩ ⟨{}, running.world⟩)))

/-- The second graph takes the place of the first behind the handles of the first. -/
def modified : EStateM.Result RobotError World (List (Ref .process) × Graph) :=
  running.graph.mergeModify Graph.Sample.environment.host next.graph .empty next.world

theorem reached : Reached Graph.Sample.environment
    [resultOr running.graph modified, next.graph] (stateAfter modified) := by
  have hstart : Reached Graph.Sample.environment [] compasses :=
    .start (fun s => by cases s <;> rfl) rfl
  have hsurroundings : Reached Graph.Sample.environment [] surroundings :=
    (hstart.elapse (World.addRemote_endures _ _)).elapse (World.addRemote_endures _ _)
  have hrunning : Reached Graph.Sample.environment [running.graph] running.world :=
    .build (.build (.new hsurroundings) (.register ⟨_, rfl⟩ .sensor "north")) (.remote ⟨0⟩)
  have hnext : Reached Graph.Sample.environment [next.graph, running.graph] next.world :=
    .build (.build (.new hrunning) (.register ⟨_, rfl⟩ .sensor "north")) (.remote ⟨1⟩)
  have hboth : [running.graph, next.graph] ⊆ [next.graph, running.graph] := by simp
  exact (hnext.subset hboth).mergeModify (List.mem_cons_of_mem _ List.mem_cons_self) .empty

end Sample

/-- The second compass has come behind the handle of the first, and the remote robot has moved to its
second address. -/
theorem Reached.wellKeyed_sample :
    WellKeyed [resultOr Sample.running.graph Sample.modified, Sample.next.graph]
        (stateAfter Sample.modified) ∧
      (stateAfter Sample.modified).behind? (.proxy ⟨0⟩) = some (.driver ⟨1⟩) ∧
      (stateAfter Sample.modified).remotes.get? ⟨0⟩ = some (Sample.base "base:2") :=
  ⟨Sample.reached.wellKeyed Sample.grounded, rfl, rfl⟩

end RobotHost
