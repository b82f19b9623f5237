import RobotHost.Proofs.Robot.Finishing
import RobotHost.Simulated.Factory

/-!
# Reconfiguring is all or nothing

Whatever the factory, the connector and the host do, a reconfiguration either fails and leaves the
robot as it was, or installs the graph that the diff leads to
(`LocalRobot.reconfigure_all_or_nothing`). Errors tell the two apart: only once the new graph is
installed can there be one about closing or about handing processes over.

The graph of a robot is intact from its start on, through all reconfigurations
(`Reachable.intact`). The draft that is prepared shares its handles with the running graph, so what
keeps the running graph safe is that nothing is exchanged before the last step that can fail.
-/

namespace RobotHost

/-! ## The merged graph -/

/-- What a graph is merged into, and what stands behind its handles then. -/
structure Graph.Merges (g added modified removed : Graph) (w : World) (g' : Graph) (w' : World) :
    Prop where
  entries : ∀ k name, (g'.entries k).get? name =
    if name ∈ (removed.entries k).names then none
    else ((added.entries k).get? name).or ((g.entries k).get? name)
  functions : g'.functions = ((g.functions.override added.functions).override
    modified.functions).eraseAll removed.functions.names
  processes : g'.manager.processes = ((g.manager.processes.override
    added.manager.processes).override modified.manager.processes).eraseAll
      removed.manager.processes.names
  exchanged : ∀ k name h h', (g'.entries k).get? name = some h →
    (modified.entries k).get? name = some h' → w'.behind? (k.slot h) = w.behind? (k.slot h')
  kept : ∀ k name h, (g'.entries k).get? name = some h → (modified.entries k).get? name = none →
    w'.behind? (k.slot h) = w.behind? (k.slot h)

/-! ## A robot for example -/

namespace Sample

/-- A host on which all goes well. -/
def host : Host := ⟨fun _ _ => .exited 0, fun _ _ => none, fun _ _ => none⟩

/-- Simulated drivers, and a new connection for each that asks for one. -/
def environment : Environment where
  factory _ b := Simulated.make b
  connector w address :=
    if .connection (.robot ⟨w.log.length⟩) ∈ w.delivered then .error ("no answer from " ++ address)
    else .ok (.robot ⟨w.log.length⟩)
  host := host

def config : Config where
  remotes := [{ name := "far", address := "far:80" }]
  components := [{ name := "eye", type := .camera }, { name := "hand", type := .gripper }]

/-- One part more, others in place of two, and one less. -/
def diff : Diff where
  added := { components := [{ name := "arm", type := .arm }] }
  modified :=
    { remotes := [{ name := "far", address := "far:81" }]
      components := [{ name := "hand", type := .gripper, model := "fake" }] }
  removed := { components := [{ name := "eye", type := .camera }] }

/-- What the diff leads to. -/
def nextConfig : Config where
  remotes := [{ name := "far", address := "far:81" }]
  components := [{ name := "arm", type := .arm },
    { name := "hand", type := .gripper, model := "fake" }]

/-- The robot when it has started, and the world around it. -/
def started : LocalRobot × World :=
  match LocalRobot.start environment config {} with
  | .ok r w => (r, w)
  | .error _ w => (⟨{}, {}⟩, w)

theorem start_eq : LocalRobot.start environment config {} = .ok started.1 started.2 := by
  -- what is evaluated is that the robot starts, not the world around it
  have hok : (match LocalRobot.start environment config {} with
    | .ok _ _ => true
    | .error _ _ => false) = true := by decide +kernel
  unfold started
  cases h : LocalRobot.start environment config {} with
  | ok r w => rfl
  | error e w =>
    rw [h] at hok
    cases hok

/-- A robot that starts and what then holds of it can be found by evaluating no more than that. -/
theorem exists_start (env : Environment) (c : Config) (w : World)
    {P : LocalRobot → World → Bool}
    (h : (match LocalRobot.start env c w with
      | .ok r w' => P r w'
      | .error _ _ => false) = true) :
    ∃ r w', LocalRobot.start env c w = .ok r w' ∧ P r w' = true := by
  cases hstart : LocalRobot.start env c w with
  | ok r w' =>
    rw [hstart] at h
    exact ⟨r, w', rfl, h⟩
  | error e w' =>
    rw [hstart] at h
    cases h

/-- What comes of the diff. -/
def reconfigured : Except RobotError Unit × LocalRobot × World :=
  started.1.reconfigure environment nextConfig diff started.2

theorem reconfigured_eq : started.1.reconfigure environment nextConfig diff started.2 =
    (.ok (), reconfigured.2.1, reconfigured.2.2) := by
  have hok : reconfigured.1.isOk = true := by decide +kernel
  show reconfigured = _
  generalize reconfigured = x at hok ⊢
  obtain ⟨_ | ⟨⟩, r, w⟩ := x
  · cases hok
  · rfl

end Sample

namespace LocalRobot

namespace Preparation

variable {env : Environment} {r : LocalRobot} {diff : Diff} {w w' : World} {draft : Draft}
  (p : Preparation env r diff w draft w')

include p

/-- What is added exchanges nothing while it is built. -/
theorem extends_added : w.Extends p.added.world := p.hadded.progress.built.world

theorem extends_modified : w.Extends p.modified.world :=
  p.extends_added.trans p.hmodified.progress.built.world

/-- Selecting and adding parts exchanges nothing. -/
theorem extends_joined : p.modified.world.Extends p.joined :=
  p.hselected.world.toExtends.trans p.hmerged.world.extends

/-- The graph with the added parts is intact when the exchange begins. -/
theorem intact_merged (hr : r.graph.Intact w) : p.merged.Intact p.joined := by
  have hadded := p.hadded.progress.built
  have hmodified := p.hmodified.progress.built.world.toRecalls
  have hselected := p.hselected.world.toRecalls
  exact p.hmerged.intact ((hr.recalls p.extends_modified.toRecalls).recalls hselected)
    ((hadded.intact.recalls hmodified).recalls hselected)
    (apart_of_built hr (.refl w) hadded).aligned

theorem intact_modified : p.modified.graph.Intact p.joined :=
  p.hmodified.progress.built.intact.recalls p.extends_joined.toRecalls

/-- The draft is intact, as parts are exchanged behind handles that it has. -/
theorem intact (hr : r.graph.Intact w) : draft.graph.Intact w' := by
  rw [p.graph]
  exact (p.hexchanged.intact (p.intact_merged hr) p.intact_modified).mergeRemove draft.removed

/-- The running processes go by their ids still. -/
theorem keyed (hr : r.graph.Intact w) : r.graph.manager.Keyed w' :=
  p.hexchanged.keyed
    (hr.processNamed.recalls (p.extends_modified.trans p.extends_joined).toRecalls)

/-- The draft has the entries that were added over those of the running graph. -/
theorem get?_graph (k : Kind) (name : String) : (draft.graph.entries k).get? name =
    if name ∈ (draft.removed.entries k).names then none
    else ((p.added.graph.entries k).get? name).or ((r.graph.entries k).get? name) := by
  rw [p.graph, Graph.get?_mergeRemove, p.hexchanged.entries, p.hmerged.get?]

/-- What the draft has was there when the exchange began. -/
theorem get?_merged {k : Kind} {name : String} {h : k.Handle}
    (hh : (draft.graph.entries k).get? name = some h) :
    (p.merged.entries k).get? name = some h := by
  rw [p.get?_graph] at hh
  rw [p.hmerged.get?]
  split at hh
  · cases hh
  · exact hh

/-- The draft is the running graph with all that a diff adds, modifies and removes. -/
theorem merges (hr : r.graph.Intact w) :
    r.graph.Merges p.added.graph p.modified.graph draft.removed p.modified.world draft.graph
      w' := by
  -- what is modified is merged over what is added, and that over what ran
  have hfunctions : p.exchanged.functions = (r.graph.functions.override
      p.added.graph.functions).override p.modified.graph.functions := by
    rw [p.hexchanged.functions, p.hmerged.functions]
  have hmanager : p.exchanged.manager.processes = (r.graph.manager.processes.override
      p.added.graph.manager.processes).override p.modified.graph.manager.processes := by
    rw [p.hexchanged.manager, p.hmerged.manager]
  refine ⟨p.get?_graph, ?_, ?_, ?_, ?_⟩
  · rw [p.graph, ← hfunctions]
    rfl
  · rw [p.graph, ← hmanager]
    rfl
  · intro k name h h' hh hh'
    have hx : (⟨k, name, h, h'⟩ : Exchange) ∈ p.merged.exchanges p.modified.graph :=
      Graph.mem_exchanges.mpr ⟨p.get?_merged hh, hh'⟩
    -- what was built for the diff is still there when it is exchanged
    obtain ⟨x, hbehind⟩ := p.hmodified.progress.built.intact.known k name h' hh'
    have hbefore := p.hexchanged.behind hx
    rw [show (Exchange.mk k name h h').source = k.slot h' from rfl,
      p.extends_joined.behind _ _ hbehind] at hbefore
    rw [hbehind]
    exact hbefore
  · intro k name h hh hnone
    -- no other key of the merged graph has the slot
    have hother : ∀ x ∈ p.merged.exchanges p.modified.graph, k.slot h ≠ x.target := by
      intro x hx heq
      obtain ⟨hlive, hnext⟩ := Graph.mem_exchanges.mp hx
      obtain ⟨rfl, rfl⟩ := (p.intact_merged hr).apart _ _ _ _ _ _ (p.get?_merged hh) hlive heq
      rw [hnone] at hnext
      cases hnext
    -- it stood for something before the merge, which only the exchanges could have changed
    obtain ⟨x, hx⟩ : ∃ x, p.modified.world.behind? (k.slot h) = some x := by
      rcases p.hmerged.get?_cases (p.get?_merged hh) with hadded | ⟨-, hlive⟩
      · exact (p.hadded.progress.built.intact.recalls
          p.hmodified.progress.built.world.toRecalls).known k name h hadded
      · exact (hr.recalls p.extends_modified.toRecalls).known k name h hlive
    rw [p.hexchanged.others hother, p.extends_joined.behind _ _ hx, hx]

end Preparation

/-! ## The three ways that a reconfiguration goes -/

/-- An empty diff changes the configuration alone, a preparation that fails changes nothing, and
else the draft is installed. -/
theorem reconfigure_cases {env : Environment} {r r' : LocalRobot} {c : Config} {diff : Diff}
    {w w' : World} {outcome : Except RobotError Unit}
    (h : r.reconfigure env c diff w = (outcome, r', w')) :
    (diff.isEmpty = true ∧ outcome = .ok () ∧ r' = { r with config := c } ∧ w' = w) ∨
    (diff.isEmpty = false ∧
      ∃ e, r.prepare env diff w = .error e w' ∧ outcome = .error e ∧ r' = r) ∨
    (diff.isEmpty = false ∧ ∃ draft u, r.prepare env diff w = .ok draft u ∧
      r' = ⟨draft.graph, c⟩ ∧ draft.finish env.host u = (outcome, w')) := by
  unfold reconfigure at h
  by_cases hdiff : diff.isEmpty = true
  · rw [if_pos hdiff] at h
    cases h
    exact Or.inl ⟨hdiff, rfl, rfl, rfl⟩
  · rw [if_neg hdiff] at h
    have hdiff : diff.isEmpty = false := Bool.eq_false_iff.mpr hdiff
    cases hprepare : r.prepare env diff w with
    | error e u =>
      rw [hprepare] at h
      cases h
      exact Or.inr (Or.inl ⟨hdiff, e, rfl, rfl, rfl⟩)
    | ok draft u =>
      rw [hprepare] at h
      cases h
      exact Or.inr (Or.inr ⟨hdiff, draft, u, rfl, rfl, rfl⟩)

/-! ## Reachable robots -/

/-- The robots that there can be, each with the world around it. Meanwhile others may do anything
that leaves the parts of the robot alone. -/
inductive Reachable (env : Environment) : LocalRobot → World → Prop
  | start {c : Config} {r : LocalRobot} {w w' : World} (h : start env c w = .ok r w') :
    Reachable env r w'
  | reconfigure {r r' : LocalRobot} {c : Config} {diff : Diff} {w w' : World}
    {outcome : Except RobotError Unit} (hr : Reachable env r w)
    (h : r.reconfigure env c diff w = (outcome, r', w')) : Reachable env r' w'
  | elapse {r : LocalRobot} {w w' : World} (hr : Reachable env r w) (h : r.graph.Spared w w') :
    Reachable env r w'

/-- A robot that starts was built from nothing. -/
theorem start_ok {env : Environment} {c : Config} {r : LocalRobot} {w w' : World}
    (h : start env c w = .ok r w') : r.config = c ∧ ∃ xs,
      Build.Complete env w c.processes c.items c.functions xs ⟨r.graph, w'⟩ := by
  unfold start at h
  cases hbuild : Build.config env c ⟨{}, w⟩ with
  | error e s =>
    rw [hbuild] at h
    cases h
  | ok _ s =>
    rw [hbuild] at h
    cases h
    exact ⟨rfl, Build.staged_ok (Build.config_eq c ▸ hbuild)⟩

/-- A start that fails leaves a graph that was begun, and closes it. -/
theorem start_error {env : Environment} {c : Config} {e : RobotError} {w w' : World}
    (h : start env c w = .error e w') : ∃ done xs s, done <+: c.items ∧
      List.Forall₂ Item.Delivers done xs ∧ Progress env w xs s ∧
      w' = (World.discard env.host [s.graph] s.world).2 := by
  unfold start at h
  cases hbuild : Build.config env c ⟨{}, w⟩ with
  | ok _ s =>
    rw [hbuild] at h
    cases h
  | error e' s =>
    rw [hbuild] at h
    cases h
    obtain ⟨-, done, xs, hdone, hxs, hs⟩ := Build.staged_error (Build.config_eq c ▸ hbuild)
    exact ⟨done, xs, s, hdone, hxs, hs, rfl⟩

/-- A step of a robot keeps its graph intact. -/
theorem intact_reconfigure {env : Environment} {r r' : LocalRobot} {c : Config} {diff : Diff}
    {w w' : World} {outcome : Except RobotError Unit} (hr : r.graph.Intact w)
    (h : r.reconfigure env c diff w = (outcome, r', w')) : r'.graph.Intact w' := by
  rcases reconfigure_cases h with ⟨-, -, rfl, rfl⟩ | ⟨-, e, hprepare, -, rfl⟩ |
    ⟨-, draft, u, hprepare, rfl, hfinish⟩
  · exact hr
  -- what was built is closed again, and the graph is left as it was
  · obtain ⟨-, gs, v, habandoned, rfl⟩ := prepare_error hr hprepare
    have hextends := habandoned.extends.trans (World.discard_quiet env.host gs v).extends
    exact hr.recalls hextends.toRecalls
  · obtain ⟨p⟩ := prepare_ok hr hprepare
    have hquiet := Draft.finish_quiet env.host p.hselected.idle u
    rw [hfinish] at hquiet
    exact (p.intact hr).recalls hquiet.extends.toRecalls

/-- The graph of a robot that can be reached is intact, by induction on how it was. -/
theorem Reachable.intact {env : Environment} {r : LocalRobot} {w : World}
    (h : Reachable env r w) : r.graph.Intact w := by
  induction h with
  | start h =>
    obtain ⟨-, xs, hcomplete⟩ := start_ok h
    exact hcomplete.progress.built.intact
  | reconfigure _ h ih => exact intact_reconfigure ih h
  | elapse _ h ih => exact ih.spared h

/-! ## All or nothing -/

/-- How a reconfiguration goes that installs the new graph. -/
def Installs (outcome : Except RobotError Unit) : Prop := ∀ e, outcome = .error e → e.OfTeardown

theorem installs_ok : Installs (.ok ()) := by
  intro e he
  cases he

/-- Where a reconfiguration has led when the new graph is installed. -/
structure Installed (env : Environment) (r : LocalRobot) (c : Config) (diff : Diff) (w : World)
    (r' : LocalRobot) (w' : World) : Prop where
  config : r'.config = c
  idle : diff.isEmpty = true → r'.graph = r.graph ∧ w' = w
  merged : diff.isEmpty = false → ∃ added modified removed u,
    Build.config env diff.added ⟨{}, w⟩ = .ok () added ∧
    Build.modified env diff.modified ⟨{}, added.world⟩ = .ok () modified ∧
    r.graph.select env.host diff.removed modified.world = .ok removed u ∧
    r.graph.Merges added.graph modified.graph removed modified.world r'.graph w'

/-- A reconfiguration either fails and leaves the robot as it was, down to what stands behind its
handles, or installs the new graph. Errors about closing and about processes that meet another of
their id come only with the new graph, and no other errors do. -/
theorem reconfigure_all_or_nothing {env : Environment} {r r' : LocalRobot} {c : Config}
    {diff : Diff} {w w' : World} {outcome : Except RobotError Unit} (hr : Reachable env r w)
    (h : r.reconfigure env c diff w = (outcome, r', w')) :
    (∃ e, outcome = .error e ∧ ¬e.OfTeardown ∧ r' = r ∧ w.Extends w' ∧
      ∀ k name, r.graph.backing? w' k name = r.graph.backing? w k name) ∨
    (Installs outcome ∧ Installed env r c diff w r' w') := by
  have hintact := hr.intact
  -- the diff is empty, or the preparation ends in an error, or the draft is finished
  rcases reconfigure_cases h with ⟨hdiff, rfl, rfl, rfl⟩ | ⟨-, e, hprepare, rfl, rfl⟩ |
    ⟨hdiff, draft, u, hprepare, rfl, hfinish⟩
  · refine Or.inr ⟨installs_ok, rfl, fun _ => ⟨rfl, rfl⟩, fun hfalse => ?_⟩
    rw [hdiff] at hfalse
    cases hfalse
  · obtain ⟨he, gs, v, habandoned, rfl⟩ := prepare_error hintact hprepare
    have hextends := habandoned.extends.trans (World.discard_quiet env.host gs v).extends
    exact Or.inl ⟨e, rfl, he, rfl, hextends, hintact.backing?_recalls hextends.toRecalls⟩
  · obtain ⟨p⟩ := prepare_ok hintact hprepare
    -- nothing moves behind handles once the merge is done, whatever fails to close
    have hquiet := Draft.finish_quiet env.host p.hselected.idle u
    obtain ⟨-, herror⟩ := Draft.finish_spec env.host p.hselected.idle u
    rw [hfinish] at hquiet herror
    have hmerges := p.merges hintact
    refine Or.inr ⟨herror, rfl, fun htrue => ?_, fun _ => ⟨p.added, p.modified, draft.removed,
      p.selected, p.buildAdded, p.buildModified, p.select, hmerges.entries, hmerges.functions,
      hmerges.processes, fun k name x y hx hy => ?_, fun k name x hx hnone => ?_⟩⟩
    · rw [hdiff] at htrue
      cases htrue
    · rw [hquiet.behind?_eq, hmerges.exchanged k name x y hx hy]
    · rw [hquiet.behind?_eq, hmerges.kept k name x hx hnone]

theorem reconfigure_all_or_nothing_sample :
    Reachable Sample.environment Sample.started.1 Sample.started.2 ∧
      Installed Sample.environment Sample.started.1 Sample.nextConfig Sample.diff Sample.started.2
        Sample.reconfigured.2.1 Sample.reconfigured.2.2 := by
  have hreachable : Reachable Sample.environment Sample.started.1 Sample.started.2 :=
    .start Sample.start_eq
  refine ⟨hreachable, ?_⟩
  rcases reconfigure_all_or_nothing hreachable Sample.reconfigured_eq with ⟨e, herror, -⟩ |
    ⟨-, hinstalled⟩
  · cases herror
  · exact hinstalled

end LocalRobot

end RobotHost
