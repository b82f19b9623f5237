import RobotHost.Proofs.Robot.Matching

/-!
# Parts that are removed and added at once

A diff may remove a part that runs and add one of the same kind and name, which is the only way to
exchange a sensor for one of another capability. Additions are merged before removals, and removals
go by name. So what was added goes with what was removed: once the new graph is installed the robot
serves nothing under the name, whatever its configuration declares
(`LocalRobot.readded_is_lost`). A process that was added over one that is removed meets it when that
one is handed over, and runs on without being managed.
-/

namespace RobotHost

namespace Graph

/-- A hand-over fails if one of the processes meets another of its id. -/
theorem adopt_taken (h : Host) {g : Graph} (hidle : g.manager.started = false)
    {ps : List (Ref .process)} {w : World} {p : Ref .process} (hp : p ∈ ps)
    (htaken : w.processId p ∈ g.manager.processes.names) :
    ∃ id m, g.adopt h ps w =
      (.error (.unexpectedProcessReplacement id), { g with manager := m }, w) := by
  induction ps generalizing g with
  | nil => cases hp
  | cons q rest ih =>
    have hadd := ProcessManager.add_of_not_started h hidle q w
    by_cases hc : g.manager.processes.contains (w.processId q) = true
    · rw [if_pos hc] at hadd
      exact ⟨w.processId q, g.manager, by simp only [adopt, hadd]⟩
    · rw [if_neg hc] at hadd
      -- the id of the first is free, so it is another that meets one of its id
      have hrest : p ∈ rest := by
        rcases List.mem_cons.mp hp with rfl | hrest
        · exact absurd ((NameMap.contains_iff _).mpr htaken) hc
        · exact hrest
      obtain ⟨id, m, hadopt⟩ := ih (g := { g with manager :=
        { g.manager with processes := g.manager.processes.insert (w.processId q) q } }) hidle hrest
        ((NameMap.mem_names_insert _).mpr (Or.inr htaken))
      exact ⟨id, m, by simp only [adopt, hadd, hadopt]⟩

end Graph

/-- If a process that added ones took the place of is itself removed, the hand-over fails. -/
theorem Draft.finish_of_taken (h : Host) {d : Draft} (hidle : d.removed.manager.started = false)
    {w : World} {p : Ref .process} (hp : p ∈ d.replacedByAdded)
    (htaken : w.processId p ∈ d.removed.manager.processes.names) :
    ∃ id, (d.finish h w).1 = .error (.unexpectedProcessReplacement id) := by
  obtain ⟨id, m, hadopt⟩ := d.removed.adopt_taken h hidle hp htaken
  refine ⟨id, ?_⟩
  rw [finish_eq, handOver, hadopt]
  rfl

namespace LocalRobot

namespace Preparation

variable {env : Environment} {r : LocalRobot} {diff : Diff} {w w' : World} {draft : Draft}
  (p : Preparation env r diff w draft w')

include p

/-- A part that runs and is removed is gone, whatever is added. -/
theorem not_mem_keys_graph (hr : r.graph.Intact w) {key : Kind × String}
    (hlive : key ∈ r.graph.keys) (hremoved : key ∈ diff.removed.keys) :
    key ∉ draft.graph.keys := by
  rw [p.graph, Graph.mem_keys_mergeRemove]
  exact fun hmem => hmem.2 ((p.mem_keys_removed hr hlive).mpr hremoved)

/-- So is a function. -/
theorem not_mem_functions_graph (hr : r.graph.Intact w) {name : String}
    (hlive : name ∈ r.graph.functions.names) (hremoved : name ∈ diff.removed.functionNames) :
    name ∉ draft.graph.functions.names := by
  rw [(p.merges hr).functions, mem_names_merged]
  exact fun hmem => hmem.2 ((p.hselected.functions name).mpr ⟨hremoved, hlive⟩)

/-- So is a process. -/
theorem not_mem_processes_graph (hr : r.graph.Intact w) {id : String}
    (hlive : id ∈ r.graph.manager.processes.names) (hremoved : id ∈ diff.removed.processIds) :
    id ∉ draft.graph.manager.processes.names := by
  rw [(p.merges hr).processes, mem_names_merged]
  exact fun hmem => hmem.2 (p.mem_processes_removed.mpr ⟨hremoved, hlive⟩)

/-- A process that runs, is removed and gives way to an added one is handed over to where it is
already. -/
theorem finish_of_readded (hr : r.graph.Intact w) {id : String}
    (hlive : id ∈ r.graph.manager.processes.names) (hremoved : id ∈ diff.removed.processIds)
    (hadded : id ∈ diff.added.processIds) :
    ∃ other, (draft.finish env.host w').1 = .error (.unexpectedProcessReplacement other) := by
  obtain ⟨q, hq⟩ := (NameMap.mem_names_iff _).mp hlive
  have hgiven : q ∈ draft.replacedByAdded := by
    obtain ⟨q', hq'⟩ := (NameMap.mem_names_iff _).mp ((p.hadded.processes id).mpr hadded)
    rw [p.hmerged.replaced]
    exact List.mem_filterMap.mpr ⟨(id, q'), (NameMap.get?_eq_some_iff _).mp hq', hq⟩
  refine Draft.finish_of_taken env.host p.hselected.idle hgiven ?_
  rw [(p.keyed hr).processId hq]
  exact p.mem_processes_removed.mpr ⟨hremoved, hlive⟩

end Preparation

/-- What runs and is both removed and added is gone once the new graph is installed, so that a
configuration that declares it is not matched. With a process among them the hand-over is reported
to have failed. -/
theorem readded_is_lost {env : Environment} {r r' : LocalRobot} {c : Config} {diff : Diff}
    {w w' : World} {outcome : Except RobotError Unit} (hr : Reachable env r w)
    (h : r.reconfigure env c diff w = (outcome, r', w')) (hinstalls : Installs outcome) :
    (∀ key ∈ r.graph.keys, key ∈ diff.removed.keys → key ∈ diff.added.keys →
      key ∉ r'.graph.keys ∧ (key ∈ c.keys → ¬r'.Matches)) ∧
    (∀ name ∈ r.graph.functions.names, name ∈ diff.removed.functionNames →
      name ∈ diff.added.functionNames →
        name ∉ r'.graph.functions.names ∧ (name ∈ c.functionNames → ¬r'.Matches)) ∧
    (∀ id ∈ r.graph.manager.processes.names, id ∈ diff.removed.processIds →
      id ∈ diff.added.processIds →
        id ∉ r'.graph.manager.processes.names ∧ (id ∈ c.processIds → ¬r'.Matches) ∧
          ∃ other, outcome = .error (.unexpectedProcessReplacement other)) := by
  rcases reconfigure_cases h with ⟨hdiff, -⟩ | ⟨-, e, hprepare, rfl, -⟩ |
    ⟨-, draft, u, hprepare, rfl, hfinish⟩
  -- an empty diff adds nothing
  · unfold Diff.isEmpty at hdiff
    simp only [Bool.and_eq_true] at hdiff
    obtain ⟨hitems, hfunctions, hprocesses⟩ := Config.eq_nil_of_isEmpty hdiff.1.1
    simp [Config.keys, Config.functionNames, Config.processIds, hitems, hfunctions, hprocesses]
  · exact absurd (hinstalls e rfl) (prepare_error hr.intact hprepare).1
  · obtain ⟨p⟩ := prepare_ok hr.intact hprepare
    refine ⟨fun key hlive hremoved _ => ?_, fun name hlive hremoved _ => ?_,
      fun id hlive hremoved hadded => ?_⟩
    · have hgone := p.not_mem_keys_graph hr.intact hlive hremoved
      exact ⟨hgone, fun hkey hmatches => hgone ((hmatches.parts key).mpr hkey)⟩
    · have hgone := p.not_mem_functions_graph hr.intact hlive hremoved
      exact ⟨hgone, fun hname hmatches => hgone ((hmatches.functions name).mpr hname)⟩
    · have hgone := p.not_mem_processes_graph hr.intact hlive hremoved
      have hfailed := p.finish_of_readded hr.intact hlive hremoved hadded
      rw [hfinish] at hfailed
      exact ⟨hgone, fun hid hmatches => hgone ((hmatches.processes id).mpr hid), hfailed⟩

end LocalRobot

/-! ## A sensor that is exchanged -/

namespace Sample

/-- A robot with one sensor. -/
def sensing (subtype : String) : Config where
  components := [{ name := "head", type := .sensor, subtype := subtype }]

/-- A compass in place of a sensor of no capability of its own. -/
def turning : Diff where
  added := sensing "compass"
  removed := sensing "imu"

theorem turned : ∃ r w r' w', LocalRobot.start environment (sensing "imu") {} = .ok r w ∧
    r.reconfigure environment (sensing "compass") turning w = (.ok (), r', w') ∧
    (.driver .sensor, "head") ∈ r.graph.keys ∧ (.driver .sensor, "head") ∉ r'.graph.keys ∧
    w'.log = [.constructed .sensor "head" (some ⟨0⟩), .constructed .sensor "head" (some ⟨1⟩),
      .closed ⟨0⟩] := by
  obtain ⟨r, w, hstart, hrun⟩ := exists_start environment (sensing "imu") {}
    (P := fun r w =>
      let x := r.reconfigure environment (sensing "compass") turning w
      x.1.isOk && decide ((.driver .sensor, "head") ∈ r.graph.keys ∧
        (.driver .sensor, "head") ∉ x.2.1.graph.keys ∧
        x.2.2.log = [.constructed .sensor "head" (some ⟨0⟩),
          .constructed .sensor "head" (some ⟨1⟩), .closed ⟨0⟩])) (by decide +kernel)
  rcases hmove : r.reconfigure environment (sensing "compass") turning w with ⟨_ | ⟨⟩, r', w'⟩
  · simp [hmove, Except.isOk, Except.toBool] at hrun
  · simp only [hmove, Bool.and_eq_true, decide_eq_true_eq] at hrun
    exact ⟨r, w, r', w', hstart, hmove, hrun.2⟩

end Sample

namespace LocalRobot

theorem readded_is_lost_sample : ∃ r w r' w', Reachable Sample.environment r w ∧
    r.reconfigure Sample.environment (Sample.sensing "compass") Sample.turning w =
      (.ok (), r', w') ∧
    (.driver .sensor, "head") ∈ r.graph.keys ∧ (.driver .sensor, "head") ∉ r'.graph.keys ∧
    ¬r'.Matches := by
  obtain ⟨r, w, r', w', hstart, hmove, hlive, -, -⟩ := Sample.turned
  obtain ⟨hgone, hmatches⟩ := (readded_is_lost (.start hstart) hmove installs_ok).1
    (.driver .sensor, "head") hlive (by decide) (by decide)
  exact ⟨r, w, r', w', .start hstart, hmove, hlive, hgone, hmatches (by decide)⟩

/-- A robot is to get a compass in place of a sensor, and is left with neither. The compass was made
and is never closed. -/
theorem readded_sensor_not_served : ∃ r w r' w', Reachable Sample.environment r w ∧
    r.reconfigure Sample.environment (Sample.sensing "compass") Sample.turning w =
      (.ok (), r', w') ∧
    (.driver .sensor, "head") ∈ r.graph.keys ∧
    (.driver .sensor, "head") ∈ Sample.turning.removed.keys ∧
    (.driver .sensor, "head") ∈ Sample.turning.added.keys ∧
    r'.graph.backing? w' (.driver .sensor) "head" = none ∧
    .driver ⟨1⟩ ∈ w'.delivered ∧ .driver ⟨1⟩ ∉ w'.closings := by
  obtain ⟨r, w, r', w', hstart, hmove, hlive, hgone, hlog⟩ := Sample.turned
  refine ⟨r, w, r', w', .start hstart, hmove, hlive, by decide, by decide, ?_, ?_, ?_⟩
  · cases hb : r'.graph.backing? w' (.driver .sensor) "head" with
    | none => rfl
    | some b =>
      obtain ⟨x, hx, -⟩ := Graph.backing?_eq_some_iff.mp hb
      exact absurd (Graph.mem_keys.mpr ⟨x, hx⟩) hgone
  · rw [World.delivered, hlog]
    decide
  · rw [World.closings, hlog]
    decide

end LocalRobot

end RobotHost
