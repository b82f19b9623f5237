import RobotHost.Proofs.Robot.Handles

/-!
# Robots match their configurations

A robot *matches* its configuration if its own parts, functions and processes are those that the
configuration declares. It does so when it starts, and a reconfiguration keeps it up if the diff
says what the two configurations differ in (`LocalRobot.matches_throughout`).

Under such a diff no process that is handed over meets another of its id, so that a failure to close
is all that can be reported once the new graph is installed.
-/

namespace RobotHost

/-! ## Names and their changes -/

/-- How the names of a section change: added ones are new, modified and removed ones are old, and no
name changes twice. -/
structure Change {α : Type} (old added modified removed new : List α) : Prop where
  added_modified : ∀ x ∈ added, x ∉ modified
  added_removed : ∀ x ∈ added, x ∉ removed
  modified_removed : ∀ x ∈ modified, x ∉ removed
  added_new : ∀ x ∈ added, x ∉ old
  modified_old : ∀ x ∈ modified, x ∈ old
  removed_old : ∀ x ∈ removed, x ∈ old
  new_iff : ∀ x, x ∈ new ↔ (x ∈ old ∧ x ∉ removed) ∨ x ∈ added

/-- A change can be checked name by name. -/
theorem Change.of_all {α : Type} {old added modified removed new : List α}
    (hapart : (∀ x ∈ added, x ∉ modified) ∧ (∀ x ∈ added, x ∉ removed) ∧ ∀ x ∈ modified, x ∉ removed)
    (hold : (∀ x ∈ added, x ∉ old) ∧ (∀ x ∈ modified, x ∈ old) ∧ ∀ x ∈ removed, x ∈ old)
    (hnew : (∀ x ∈ new, x ∈ old ∧ x ∉ removed ∨ x ∈ added) ∧ (∀ x ∈ added, x ∈ new) ∧
      ∀ x ∈ old, x ∈ removed ∨ x ∈ new) : Change old added modified removed new := by
  obtain ⟨ham, har, hmr⟩ := hapart
  obtain ⟨hao, hmo, hro⟩ := hold
  obtain ⟨hfrom, hadded, hkept⟩ := hnew
  refine ⟨ham, har, hmr, hao, hmo, hro, fun x => ⟨hfrom x, ?_⟩⟩
  rintro (⟨hx, hstays⟩ | hx)
  · exact (hkept x hx).resolve_left hstays
  · exact hadded x hx

/-- If nothing is added or removed, nothing changes. -/
theorem Change.same {α : Type} {old added modified removed new : List α}
    (h : Change old added modified removed new) (hadded : added = []) (hremoved : removed = [])
    (x : α) : x ∈ new ↔ x ∈ old := by
  rw [h.new_iff, hadded, hremoved]
  simp

/-- What was merged of the names of a section is what the new configuration declares, if what is
removed is all that was live of what the diff removes. -/
theorem Change.merged {α : Type} {old added modified removed new : List α}
    (h : Change old added modified removed new) {live : α → Prop} (hlive : ∀ x, live x ↔ x ∈ old)
    (x : α) : ((live x ∨ x ∈ added) ∨ x ∈ modified) ∧ ¬(x ∈ removed ∧ live x) ↔ x ∈ new := by
  rw [h.new_iff, hlive]
  constructor
  · rintro ⟨(hold | hadded) | hmodified, hnot⟩
    · exact Or.inl ⟨hold, fun hremoved => hnot ⟨hremoved, hold⟩⟩
    · exact Or.inr hadded
    · exact Or.inl ⟨h.modified_old x hmodified, h.modified_removed x hmodified⟩
  · rintro (⟨hold, hnot⟩ | hadded)
    · exact ⟨Or.inl (Or.inl hold), fun hremoved => hnot hremoved.1⟩
    · exact ⟨Or.inl (Or.inr hadded), fun hremoved => h.added_removed x hadded hremoved.1⟩

def Config.functionNames (c : Config) : List String := c.functions.map FunctionConfig.name

def Config.processIds (c : Config) : List String := c.processes.map ProcessConfig.id

def ModifiedConfig.functionNames (m : ModifiedConfig) : List String :=
  m.functions.map FunctionConfig.name

def ModifiedConfig.processIds (m : ModifiedConfig) : List String := m.processes.map ProcessConfig.id

/-- A diff says what two configurations differ in, section by section. -/
structure Diff.Leads (d : Diff) (c c' : Config) : Prop where
  parts : Change c.keys d.added.keys d.modified.keys d.removed.keys c'.keys
  functions : Change c.functionNames d.added.functionNames d.modified.functionNames
    d.removed.functionNames c'.functionNames
  processes : Change c.processIds d.added.processIds d.modified.processIds
    d.removed.processIds c'.processIds

/-- A graph has what a configuration declares, and nothing else. -/
structure Graph.Matches (g : Graph) (c : Config) : Prop where
  parts : ∀ key, key ∈ g.keys ↔ key ∈ c.keys
  functions : ∀ name, name ∈ g.functions.names ↔ name ∈ c.functionNames
  processes : ∀ id, id ∈ g.manager.processes.names ↔ id ∈ c.processIds

namespace LocalRobot

/-- A robot has what its configuration declares, and nothing else. -/
def Matches (r : LocalRobot) : Prop := r.graph.Matches r.config

/-! ## The start -/

/-- A robot that starts has just what its configuration declares. -/
theorem matches_start {env : Environment} {c : Config} {r : LocalRobot} {w w' : World}
    (h : start env c w = .ok r w') : r.Matches := by
  obtain ⟨hconfig, xs, hcomplete⟩ := start_ok h
  refine ⟨fun key => ?_, fun name => ?_, fun id => ?_⟩
  · rw [hconfig, Config.keys, hcomplete.keys]
    exact hcomplete.progress.built.mem_keys_iff
  · rw [hconfig]
    exact hcomplete.functions name
  · rw [hconfig]
    exact hcomplete.processes id

/-! ## Installed graphs -/

/-- Names that were written over others and partly erased. -/
theorem mem_names_merged {α : Type} (m n o : NameMap α) (names : List String)
    {name : String} : name ∈ (((m.override n).override o).eraseAll names).names ↔
      ((name ∈ m.names ∨ name ∈ n.names) ∨ name ∈ o.names) ∧ name ∉ names := by
  rw [NameMap.mem_names_eraseAll, NameMap.mem_names_override, NameMap.mem_names_override]

namespace Preparation

variable {env : Environment} {r : LocalRobot} {diff : Diff} {w w' : World} {draft : Draft}
  (p : Preparation env r diff w draft w')

include p

/-- Of the processes to remove just those are selected that run. -/
theorem mem_processes_removed {id : String} : id ∈ draft.removed.manager.processes.names ↔
    id ∈ diff.removed.processIds ∧ id ∈ r.graph.manager.processes.names := by
  rw [NameMap.mem_names_iff, NameMap.mem_names_iff]
  constructor
  · rintro ⟨q, hq⟩
    obtain ⟨hid, hget⟩ := (p.hselected.processes id q).mp hq
    exact ⟨hid, q, hget⟩
  · rintro ⟨hid, q, hget⟩
    exact ⟨q, (p.hselected.processes id q).mpr ⟨hid, hget⟩⟩

/-- If a diff says what the new configuration differs in, the draft matches the new one. -/
theorem matches_graph (hr : r.graph.Intact w) {c : Config} (hmatches : r.Matches)
    (hleads : diff.Leads r.config c) : draft.graph.Matches c := by
  have hmerges := p.merges hr
  refine ⟨fun key => ?_, fun name => ?_, fun id => ?_⟩
  · rw [p.mem_keys_graph hr hleads.parts.added_removed, hleads.parts.new_iff, hmatches.parts]
  · rw [hmerges.functions, mem_names_merged, p.hselected.functions, p.hadded.functions,
      p.hmodified.functions]
    exact hleads.functions.merged hmatches.functions name
  · rw [hmerges.processes, mem_names_merged, p.mem_processes_removed, p.hadded.processes,
      p.hmodified.processes]
    exact hleads.processes.merged hmatches.processes id

/-- If no process is both added and modified, the merge finds the running processes under the ids
that are modified. -/
theorem replacedByModified_eq
    (hapart : ∀ id ∈ diff.added.processIds, id ∉ diff.modified.processIds) :
    draft.replacedByModified =
      p.modified.graph.manager.processes.names.filterMap r.graph.manager.get? := by
  rw [p.hexchanged.replaced, NameMap.names, List.filterMap_map]
  refine List.filterMap_congr fun e he => ?_
  have hmodified : e.1 ∈ diff.modified.processIds :=
    (p.hmodified.processes e.1).mp (List.mem_map_of_mem he)
  have hnone : p.added.graph.manager.processes.get? e.1 = none :=
    (NameMap.get?_eq_none_iff _).mpr fun hadded =>
      hapart e.1 ((p.hadded.processes e.1).mp hadded) hmodified
  rw [p.hmerged.manager, ProcessManager.get?, NameMap.get?_override, hnone, Option.none_or]
  rfl

/-- If no process is mentioned twice, all are handed over that give way, and then the running
processes which the diff mentions are managed together. -/
theorem handOver_ok (hr : r.graph.Intact w)
    (hmodified : ∀ id ∈ diff.added.processIds, id ∉ diff.modified.processIds)
    (hadded : ∀ id ∈ diff.added.processIds, id ∉ diff.removed.processIds)
    (hremoved : ∀ id ∈ diff.modified.processIds, id ∉ diff.removed.processIds) :
    ∃ m, draft.handOver env.host w' = (.ok (), { draft.removed with manager := m }, w') ∧
      ∀ id q, m.get? id = some q ↔ r.graph.manager.get? id = some q ∧
        (id ∈ diff.added.processIds ∨ id ∈ diff.modified.processIds ∨
          id ∈ diff.removed.processIds) := by
  have hkeyed := p.keyed hr
  -- what gives way stands under the id of what takes its place
  have hgiven : draft.replacedByAdded ++ draft.replacedByModified =
      (p.added.graph.manager.processes.names ++
        p.modified.graph.manager.processes.names).filterMap r.graph.manager.get? := by
    rw [List.filterMap_append, p.replacedByModified_eq hmodified, p.hmerged.replaced, NameMap.names,
      NameMap.names, List.filterMap_map, List.filterMap_map]
    rfl
  have hmem : ∀ q, q ∈ draft.replacedByAdded ++ draft.replacedByModified ↔
      ∃ id, (id ∈ diff.added.processIds ∨ id ∈ diff.modified.processIds) ∧
        r.graph.manager.get? id = some q := by
    intro q
    rw [hgiven, List.mem_filterMap]
    simp only [List.mem_append, p.hadded.processes, p.hmodified.processes]
    rfl
  have hdistinct :
      ((draft.replacedByAdded ++ draft.replacedByModified).map w'.processId).Nodup := by
    rw [hgiven, hkeyed.map_processId]
    refine List.Nodup.filter _ (List.nodup_append.mpr ⟨NameMap.nodup_names _,
      NameMap.nodup_names _, ?_⟩)
    rintro id hid _ hid' rfl
    exact hmodified id ((p.hadded.processes id).mp hid) ((p.hmodified.processes id).mp hid')
  obtain ⟨m, hover, hget⟩ := Draft.handOver_ok env.host p.hselected.idle hdistinct (by
    intro q hq htaken
    obtain ⟨id, hid, hlive⟩ := (hmem q).mp hq
    rw [hkeyed.processId hlive] at htaken
    have hgone := (p.mem_processes_removed.mp htaken).1
    exact hid.elim (fun hid => hadded id hid hgone) fun hid => hremoved id hid hgone)
  refine ⟨m, hover, fun id q => ?_⟩
  rw [hget, hmem, p.hselected.processes]
  constructor
  · rintro (⟨hid, hlive⟩ | ⟨⟨id', hid', hlive⟩, rfl⟩)
    · exact ⟨hlive, Or.inr (Or.inr hid)⟩
    · rw [hkeyed.processId hlive]
      exact ⟨hlive, hid'.imp_right Or.inl⟩
  · rintro ⟨hlive, hid | hid | hid⟩
    · exact Or.inr ⟨⟨id, Or.inl hid, hlive⟩, hkeyed.processId hlive⟩
    · exact Or.inr ⟨⟨id, Or.inr hid, hlive⟩, hkeyed.processId hlive⟩
    · exact Or.inl ⟨hid, hlive⟩

end Preparation

/-- An empty diff leads only to configurations that declare the same. -/
theorem matches_of_isEmpty {r : LocalRobot} {c : Config} {diff : Diff} (hdiff : diff.isEmpty = true)
    (hmatches : r.Matches) (hleads : diff.Leads r.config c) : r.graph.Matches c := by
  unfold Diff.isEmpty at hdiff
  simp only [Bool.and_eq_true] at hdiff
  obtain ⟨hitems, hfunctions, hprocesses⟩ := Config.eq_nil_of_isEmpty hdiff.1.1
  obtain ⟨hitems', hfunctions', hprocesses'⟩ := Config.eq_nil_of_isEmpty hdiff.2
  refine ⟨fun key => ?_, fun name => ?_, fun id => ?_⟩
  · rw [hmatches.parts, hleads.parts.same (by rw [Config.keys, hitems]; rfl)
      (by rw [Config.keys, hitems']; rfl)]
  · rw [hmatches.functions, hleads.functions.same (by rw [Config.functionNames, hfunctions]; rfl)
      (by rw [Config.functionNames, hfunctions']; rfl)]
  · rw [hmatches.processes, hleads.processes.same (by rw [Config.processIds, hprocesses]; rfl)
      (by rw [Config.processIds, hprocesses']; rfl)]

/-! ## Reconfigurations -/

/-- A robot that matches its configuration matches the new one if it is installed, and else is the
robot of before. -/
theorem matches_reconfigure {env : Environment} {r r' : LocalRobot} {c : Config} {diff : Diff}
    {w w' : World} {outcome : Except RobotError Unit} (hr : r.graph.Intact w)
    (hmatches : r.Matches) (hleads : diff.Leads r.config c)
    (h : r.reconfigure env c diff w = (outcome, r', w')) :
    (outcome = .ok () ∨ ∃ failures, outcome = .error (.close failures)) ∧
        r'.graph.Matches c ∧ r'.config = c ∨
      (∃ e, outcome = .error e ∧ ¬e.OfTeardown) ∧ r' = r := by
  rcases reconfigure_cases h with ⟨hdiff, rfl, rfl, rfl⟩ | ⟨-, e, hprepare, rfl, rfl⟩ |
    ⟨-, draft, u, hprepare, rfl, hfinish⟩
  · exact Or.inl ⟨Or.inl rfl, matches_of_isEmpty (r := r) hdiff hmatches hleads, rfl⟩
  · exact Or.inr ⟨⟨e, rfl, (prepare_error hr hprepare).1⟩, rfl⟩
  · obtain ⟨p⟩ := prepare_ok hr hprepare
    -- the hand-over goes well, so an error can only come from closing
    obtain ⟨m, hover, -⟩ := p.handOver_ok hr hleads.processes.added_modified
      hleads.processes.added_removed hleads.processes.modified_removed
    obtain ⟨-, herror⟩ := Draft.finish_of_ok hover
    rw [hfinish] at herror
    refine Or.inl ⟨?_, p.matches_graph hr hmatches hleads, rfl⟩
    cases outcome with
    | ok _ => exact Or.inl rfl
    | error e => exact Or.inr ⟨_, congrArg _ (herror e rfl)⟩

/-- Runs in which every diff says what the new configuration differs in. -/
inductive Follows (env : Environment) : LocalRobot → World → Prop
  | start {c : Config} {r : LocalRobot} {w w' : World} (h : start env c w = .ok r w') :
    Follows env r w'
  | reconfigure {r r' : LocalRobot} {c : Config} {diff : Diff} {w w' : World}
    {outcome : Except RobotError Unit} (hr : Follows env r w) (hleads : diff.Leads r.config c)
    (h : r.reconfigure env c diff w = (outcome, r', w')) : Follows env r' w'
  | elapse {r : LocalRobot} {w w' : World} (hr : Follows env r w) (h : r.graph.Spared w w') :
    Follows env r w'

theorem Follows.reachable {env : Environment} {r : LocalRobot} {w : World}
    (h : Follows env r w) : Reachable env r w := by
  induction h with
  | start h => exact .start h
  | reconfigure _ _ h ih => exact ih.reconfigure h
  | elapse _ h ih => exact ih.elapse h

/-- By induction on the run: an installed step matches anew, and any other leaves the robot as it
was. -/
theorem Follows.matches {env : Environment} {r : LocalRobot} {w : World}
    (h : Follows env r w) : r.Matches := by
  induction h with
  | start h => exact matches_start h
  | reconfigure hr hleads h ih =>
    rcases matches_reconfigure hr.reachable.intact ih hleads h with ⟨-, hgraph, hconfig⟩ | ⟨-, rfl⟩
    · rw [Matches, hconfig]
      exact hgraph
    · exact ih
  | elapse _ _ ih => exact ih

/-- A robot that starts matches its configuration. If a diff says what a new configuration differs
in, the robot matches the new one once it is installed, whether or not all that is removed closes
well, and else still the old one. So it does after any number of such steps. -/
theorem matches_throughout (env : Environment) :
    (∀ c r w w', start env c w = .ok r w' → r.config = c ∧ r.Matches) ∧
    (∀ r w c diff outcome r' w', Reachable env r w → r.Matches → diff.Leads r.config c →
      r.reconfigure env c diff w = (outcome, r', w') →
      ((outcome = .ok () ∨ ∃ failures, outcome = .error (.close failures)) →
        r'.config = c ∧ r'.Matches) ∧
      ((∃ e, outcome = .error e ∧ ∀ failures, e ≠ .close failures) →
        r'.config = r.config ∧ r'.Matches)) ∧
    ∀ r w, Follows env r w → r.Matches := by
  refine ⟨fun c r w w' h => ⟨(start_ok h).1, matches_start h⟩, ?_, fun r w h => h.matches⟩
  intro r w c diff outcome r' w' hr hmatches hleads h
  rcases matches_reconfigure hr.intact hmatches hleads h with
    ⟨houtcome, hgraph, hconfig⟩ | ⟨⟨e, rfl, he⟩, rfl⟩
  · refine ⟨fun _ => ⟨hconfig, by rw [Matches, hconfig]; exact hgraph⟩, ?_⟩
    rintro ⟨e, rfl, he⟩
    rcases houtcome with hok | ⟨failures, hclose⟩
    · cases hok
    · cases hclose
      exact absurd rfl (he failures)
  · refine ⟨?_, fun _ => ⟨rfl, hmatches⟩⟩
    rintro (hok | ⟨failures, hclose⟩)
    · cases hok
    · cases hclose
      exact absurd trivial he

end LocalRobot

theorem Sample.diff_leads : Sample.diff.Leads Sample.config Sample.nextConfig where
  parts := .of_all (by decide +kernel) (by decide +kernel) (by decide +kernel)
  functions := .of_all (by decide +kernel) (by decide +kernel) (by decide +kernel)
  processes := .of_all (by decide +kernel) (by decide +kernel) (by decide +kernel)

/-- The robot for example matches its configuration when it has started, and the next one when the
diff has been carried out. -/
theorem LocalRobot.matches_throughout_sample :
    (Sample.started.1.config = Sample.config ∧ Sample.started.1.Matches) ∧
      Sample.diff.Leads Sample.started.1.config Sample.nextConfig ∧
      (Sample.reconfigured.2.1.config = Sample.nextConfig ∧ Sample.reconfigured.2.1.Matches) ∧
      Follows Sample.environment Sample.reconfigured.2.1 Sample.reconfigured.2.2 ∧
      Sample.reconfigured.2.1.graph.Matches Sample.nextConfig := by
  obtain ⟨hstart, hstep, hrun⟩ := matches_throughout Sample.environment
  have hstarted := hstart _ _ _ _ Sample.start_eq
  have hleads : Sample.diff.Leads Sample.started.1.config Sample.nextConfig :=
    hstarted.1 ▸ Sample.diff_leads
  have hmoved := (hstep _ _ _ _ _ _ _ (.start Sample.start_eq) hstarted.2 hleads
    Sample.reconfigured_eq).1 (.inl rfl)
  have hfollows : Follows Sample.environment Sample.reconfigured.2.1 Sample.reconfigured.2.2 :=
    .reconfigure (.start Sample.start_eq) hleads Sample.reconfigured_eq
  refine ⟨hstarted, hleads, hmoved, hfollows, ?_⟩
  rw [← hmoved.1]
  exact hrun _ _ hfollows

end RobotHost
