import RobotHost.Proofs.Graph.Stepping

/-!
# Builds as runs

A configuration lists the steps of its build (`Config.steps`): all processes are registered, in the
given order, and then started, by ascending id; remotes are connected, boards are made, then
providers, then the other components, each in the given order; at last the functions are named.

Steps are taken in turn up to the first that fails (`Build.Run`), and a build is just such a run
(`Build.config_run`). By induction on it, it is known at any point what was asked for and what the
graph holds (`Build.Made`): under each key stands what came of the last step for it. So
`Build.config_runs` says what a build does, whether it succeeds or where it fails.
-/

namespace RobotHost

/-- The ids of processes, in ascending order. -/
def ProcessConfig.ids (cs : List ProcessConfig) : List String :=
  (NameMap.ofList (cs.map fun c => (c.id, ()))).names

/-- The steps of a configuration's build. -/
def Config.steps (c : Config) : List Build.Step :=
  c.processes.map .register ++ [.ready] ++ (ProcessConfig.ids c.processes).map .launch ++
    c.remotes.map .connect ++ c.boards.map .board ++
    (c.components.filter (·.type = .provider)).map .component ++
    (c.components.filter (·.type ≠ .provider)).map .component ++
    c.functions.map fun f => .function f.name

namespace Build

variable {env : Environment} {s t u : Site} {x : Step} {xs ys : List Step} {e : RobotError}
  {r : EStateM.Result RobotError Site Unit}

/-! ## Runs -/

/-- What steps come to: they are taken in turn, up to the first that fails. -/
inductive Run (env : Environment) : Site → List Step → EStateM.Result RobotError Site Unit → Prop
  | done (s : Site) : Run env s [] (.ok () s)
  | fails {s t : Site} {x : Step} {rest : List Step} {e : RobotError}
    (hx : x.Fails env s e t) : Run env s (x :: rest) (.error e t)
  | takes {s t : Site} {x : Step} {rest : List Step} {r : EStateM.Result RobotError Site Unit}
    (hx : x.Takes env s t) (hrest : Run env t rest r) : Run env s (x :: rest) r

/-- A run is determined: it is the steps, done one after the other. -/
theorem Run.eq (h : Run env s xs r) : r = each (Step.attempt env) xs s := by
  induction h with
  | done s => rfl
  | fails hx => exact (bind_eq_error.mpr (.inl hx.attempt_eq)).symm
  | @takes s t x rest r hx _ ih =>
    show r = EStateM.bind (x.attempt env) (fun _ => each (Step.attempt env) rest) s
    rw [EStateM.bind, hx.attempt_eq]
    exact ih

/-- A step that is due is a run on its own, however it ends. -/
theorem Step.Due.run (hx : x.Due s) : Run env s [x] (x.attempt env s) := by
  rcases hx.decided env with ⟨t, h⟩ | ⟨e, t, h⟩
  · rw [h.attempt_eq]
    exact .takes h (.done t)
  · rw [h.attempt_eq]
    exact .fails h

/-- Steps that are done one after the other are two runs in one. -/
theorem Run.bind {f g : Build Unit} (hf : Run env s xs (f s))
    (hg : ∀ t, f s = .ok () t → Run env t ys (g t)) : Run env s (xs ++ ys) ((do f; g) s) := by
  show Run env s (xs ++ ys) (EStateM.bind f (fun _ => g) s)
  unfold EStateM.bind
  generalize f s = r at hf hg
  induction hf with
  | done s => exact hg s rfl
  | fails hx => exact .fails hx
  | takes hx _ ih => exact .takes hx (ih hg)

/-- Where a run ends early, a step failed after others that were taken. -/
theorem Run.of_error (h : Run env s xs (.error e u)) : ∃ done x rest t,
    xs = done ++ x :: rest ∧ Run env s done (.ok () t) ∧ x.Fails env t e u := by
  generalize hr : (EStateM.Result.error e u : EStateM.Result RobotError Site Unit) = r at h
  induction h with
  | done s => cases hr
  | @fails s t x rest e hx =>
    cases hr
    exact ⟨[], x, rest, s, rfl, .done s, hx⟩
  | @takes s t x rest r hx _ ih =>
    obtain ⟨done, y, rest, v, rfl, hdone, hy⟩ := ih hr
    exact ⟨x :: done, y, rest, v, rfl, .takes hx hdone, hy⟩

/-- A run that went well goes on with a step that does. -/
theorem Run.concat (h : Run env s xs (.ok () t)) (hx : x.Takes env t u) :
    Run env s (xs ++ [x]) (.ok () u) := by
  generalize hr : (EStateM.Result.ok () t : EStateM.Result RobotError Site Unit) = r at h
  induction h with
  | done s =>
    cases hr
    exact .takes hx (.done u)
  | fails hy => cases hr
  | takes hy _ ih => exact .takes hy (ih hr)

/-- What every step keeps up holds once all are taken. -/
theorem Run.holds {P : List Step → Site → Prop} (hs : P [] s)
    (hstep : ∀ done x t u, P done t → x.Takes env t u → P (done ++ [x]) u)
    (h : Run env s xs (.ok () t)) : P xs t := by
  generalize hr : (EStateM.Result.ok () t : EStateM.Result RobotError Site Unit) = r at h
  induction h generalizing P with
  | done s =>
    cases hr
    exact hs
  | fails hx => cases hr
  | @takes s v x rest r hx _ ih =>
    -- the induction is on what is to be done, so what is done moves into the property
    exact ih (P := fun done => P (x :: done)) (hstep [] x s v hs hx)
      (fun done => hstep (x :: done)) hr

/-! ## Builds are runs -/

/-- To do something for each element is a run of these steps, if they are always due. -/
theorem each_run {α : Type} {f : α → Step} {step : α → Build Unit}
    (hstep : ∀ x s, Run env s [f x] (step x s)) (xs : List α) (s : Site) :
    Run env s (xs.map f) (each step xs s) := by
  induction xs generalizing s with
  | nil => exact .done s
  | cons x rest ih => exact (hstep x s).bind fun t _ => ih t

/-- Before a manager has started, processes that are added are just registered. -/
theorem registers_run (cs : List ProcessConfig) (hs : s.graph.manager.started = false) :
    Run env s (cs.map .register)
      (each (fun c => do let _ ← addProgram env.host c) cs s) := by
  induction cs generalizing s with
  | nil => exact .done s
  | cons c rest ih =>
    have hfirst : Run env s [.register c] ((do let _ ← addProgram env.host c : Build Unit) s) :=
      Step.Due.run (x := .register c) hs
    refine hfirst.bind fun t ht => ih ?_
    -- a manager that takes a process is not started by it
    rw [addProgram_of_not_started env.host c s hs] at ht
    split at ht
    · cases ht
    · cases ht
      exact hs

/-- Processes are launched by their ids, as they stand in the manager. -/
theorem launches_run {g : Graph} {w : World} {entries : List (String × Ref .process)}
    (hentries : ∀ e ∈ entries, g.manager.get? e.1 = some e.2) :
    Run env ⟨g, w⟩ (entries.map fun e => .launch e.1)
      (onProcesses (World.startEach env.host (entries.map Prod.snd)) ⟨g, w⟩) := by
  induction entries generalizing w with
  | nil => exact .done _
  | cons e rest ih =>
    have hp := hentries e List.mem_cons_self
    have hcons : World.startEach env.host (e.2 :: rest.map Prod.snd) w =
        EStateM.bind (World.start env.host e.2)
          (fun _ => World.startEach env.host (rest.map Prod.snd)) w := rfl
    rw [List.map_cons, List.map_cons, onProcesses, hcons, EStateM.bind]
    cases hstart : World.start env.host e.2 w with
    | ok _ u => exact .takes (.launch hp hstart) (ih fun e' he' => hentries e' (.tail _ he'))
    | error e u => exact .fails (.stalled hp hstart)

/-- A manager that has taken all these processes has their ids, in ascending order. -/
theorem names_eq_ids {m : NameMap (Ref .process)} {cs : List ProcessConfig}
    (hm : ∀ id, id ∈ m.names ↔ id ∈ cs.map ProcessConfig.id) : m.names = ProcessConfig.ids cs := by
  have hnames : (m.map fun _ => ()).names = m.names := by
    simp [NameMap.names, NameMap.map, Entries.map]
  have hset : m.map (fun _ => ()) = NameMap.ofList (cs.map fun c => (c.id, ())) := by
    refine NameMap.ext_of_mem_names fun id => ?_
    rw [hnames, hm, NameMap.mem_names_ofList, List.map_map]
    rfl
  rw [ProcessConfig.ids, ← hset, hnames]

/-- Processes are registered in their order, and then launched by ascending id. -/
theorem processes_run (env : Environment) (cs : List ProcessConfig) (w : World) :
    Run env ⟨{}, w⟩ (cs.map .register ++ .ready :: (ProcessConfig.ids cs).map .launch)
      (processes env cs ⟨{}, w⟩) := by
  refine (registers_run cs rfl).bind fun t ht => ?_
  have hids : t.graph.manager.processes.names = ProcessConfig.ids cs := by
    refine names_eq_ids fun id => ?_
    rw [addPrograms_ok ht]
    exact or_iff_right List.not_mem_nil
  refine .takes .ready ?_
  rw [← hids, NameMap.names, List.map_map]
  exact launches_run fun e he => (NameMap.get?_eq_some_iff _).mpr he

/-- A build is the run of its steps. -/
theorem config_run (env : Environment) (c : Config) (w : World) :
    Run env ⟨{}, w⟩ c.steps (config env c ⟨{}, w⟩) := by
  have hremote : ∀ (r : RemoteConfig) s, Run env s [.connect r] (remote env r s) := fun _ _ =>
    Step.Due.run (x := .connect _) trivial
  have hboard : ∀ (b : BoardConfig) s, Run env s [.board b] (board env b.name b s) := fun _ _ =>
    Step.Due.run (x := .board _) trivial
  have hcomponent : ∀ (x : Component) s, Run env s [.component x] (component env x.name x s) :=
    fun _ _ => Step.Due.run (x := .component _) trivial
  have hfunction : ∀ (f : FunctionConfig) s,
      Run env s [.function f.name] (onGraph (fun g => g.insertFunction f.name) s) := fun _ _ =>
    Step.Due.run (x := .function _) trivial
  -- the steps in the order in which the stages of the build come
  have hsteps : c.steps =
      (c.processes.map .register ++ .ready :: (ProcessConfig.ids c.processes).map .launch) ++
        (c.remotes.map .connect ++ (c.boards.map .board ++
          ((providersFirst c.components).map .component ++
            c.functions.map fun f => .function f.name))) := by
    simp [Config.steps, providersFirst]
  rw [hsteps]
  refine (processes_run env c.processes w).bind fun _ _ => ?_
  refine (each_run hremote c.remotes _).bind fun _ _ => ?_
  refine (each_run hboard c.boards _).bind fun _ _ => ?_
  refine (each_run hcomponent (providersFirst c.components) _).bind fun _ _ => ?_
  exact each_run hfunction c.functions _

/-! ## What a run leaves -/

/-- Under a key stands what came of the last step for it, or nothing if there was none. -/
inductive Stands (env : Environment) (w : World) (done : List Step) (t : Site) (k : Kind)
    (name : String) : Prop
  | nothing (hnone : (t.graph.entries k).get? name = none)
    (hsteps : ∀ x ∈ done, x.key? ≠ some (k, name))
  | last {before after : List Step} {x : Step} {s s' : Site} {d : Delivery} {h : k.Handle}
    (hsplit : done = before ++ x :: after) (hkey : x.key? = some (k, name))
    (hlast : ∀ y ∈ after, y.key? ≠ some (k, name)) (hbefore : Run env ⟨{}, w⟩ before (.ok () s))
    (hx : x.Takes env s s') (hd : Delivered env s d s') (hdkey : d.key = (k, name))
    (hmade : (s'.graph.entries k).get? name = some h)
    (hkept : (t.graph.entries k).get? name = some h)
    (hbehind : t.world.behind? (k.slot h) = some d.backing)

/-- What holds once these steps were taken, from an empty graph on. -/
structure Made (env : Environment) (w : World) (done : List Step) (t : Site) : Prop where
  run : Run env ⟨{}, w⟩ done (.ok () t)
  world : w.Extends t.world
  /-- Just these requests were made, in this order. -/
  requested : w.Requested (done.filterMap Step.request?) t.world
  parts : ∀ k name, Stands env w done t k name
  processes : ∀ id, id ∈ t.graph.manager.processes.names ↔ ∃ c, .register c ∈ done ∧ c.id = id
  keyed : t.graph.manager.Keyed t.world
  hired : ∀ id p, t.graph.manager.get? id = some p → w.processes.get? p = none
  started : t.graph.manager.started = true ↔ .ready ∈ done
  functions : ∀ name, name ∈ t.graph.functions.names ↔ .function name ∈ done

/-- A step for the key puts something new there; others leave it alone. -/
theorem Stands.step {w : World} {done : List Step} {k : Kind} {name : String}
    (ht : Stands env w done t k name) (hrun : Run env ⟨{}, w⟩ done (.ok () t))
    (hx : x.Takes env t u) : Stands env w (done ++ [x]) u k name := by
  by_cases hkey : x.key? = some (k, name)
  · obtain ⟨d, hd, hdkey⟩ := hx.delivered hkey
    obtain ⟨h, hgraph, -, hbehind⟩ := hd.handle
    cases hdkey
    have hmade : (u.graph.entries d.kind).get? d.name = some h := by
      rw [hgraph, Graph.entries_insert_self, NameMap.get?_insert_self]
    exact .last rfl hkey (by simp) hrun hx hd rfl hmade hmade hbehind
  · have hsame := hx.get?_of_ne hkey
    cases ht with
    | nothing hnone hsteps =>
      refine .nothing (hsame.trans hnone) fun y hy => ?_
      rcases List.mem_append.mp hy with hy | hy
      · exact hsteps y hy
      · rw [List.mem_singleton.mp hy]
        exact hkey
    | @last before after y s s' d h hsplit hykey hlast hbefore hy hd hdkey hmade hkept hbehind =>
      have hsplit' : done ++ [x] = before ++ y :: (after ++ [x]) := by rw [hsplit]; simp
      refine .last hsplit' hykey (fun z hz => ?_) hbefore hy hd hdkey hmade (hsame.trans hkept)
        (hx.extends.behind _ _ hbehind)
      rcases List.mem_append.mp hz with hz | hz
      · exact hlast z hz
      · rw [List.mem_singleton.mp hz]
        exact hkey

theorem made_nil (env : Environment) (w : World) : Made env w [] ⟨{}, w⟩ where
  run := .done _
  world := .refl w
  requested := World.requested_nil rfl
  parts := fun k name => .nothing (by rw [Graph.entries_empty]; rfl) (by simp)
  processes := by simp [NameMap.names, NameMap.empty]
  keyed := ProcessManager.keyed_empty w
  hired := by
    intro id p hp
    cases hp
  started := by simp
  functions := by simp [NameMap.names, NameMap.empty]

/-- One step more is taken. -/
theorem Made.step {w : World} {done : List Step} (ht : Made env w done t)
    (hx : x.Takes env t u) : Made env w (done ++ [x]) u where
  run := ht.run.concat hx
  world := ht.world.trans hx.extends
  -- requests come step by step, and a step asks for one thing at most
  requested := by
    rw [List.filterMap_append, Step.filterMap_request?_one]
    exact ht.requested.trans hx.extends.toRecalls (hx.requested ht.keyed)
  parts := fun k name => (ht.parts k name).step ht.run hx
  processes := by
    intro id
    rw [hx.mem_processes, ht.processes]
    simp only [List.mem_append, List.mem_singleton, or_and_right, exists_or, eq_comm]
  keyed := hx.keyed ht.keyed
  hired := by
    intro id p hp
    rcases hx.hired hp with hold | hnew
    · exact ht.hired id p hold
    · exact ht.world.toRecalls.noProcess hnew
  started := by
    rw [hx.started, ht.started]
    simp only [List.mem_append, List.mem_singleton, eq_comm]
  functions := by
    intro name
    rw [hx.mem_functions, ht.functions]
    simp only [List.mem_append, List.mem_singleton, eq_comm]

/-- What holds of a run from an empty graph, by induction on its steps. -/
theorem Run.made {w : World} {done : List Step} (h : Run env ⟨{}, w⟩ done (.ok () t)) :
    Made env w done t :=
  h.holds (made_nil env w) fun _ _ _ _ ht hx => ht.step hx

/-- A build of an empty graph is the run of the steps of its configuration. If it succeeds, all were
taken. If it fails, the first few were, and the error is that of the step after these, which leaves
the graph as it is; no later step was tried. -/
theorem config_runs (env : Environment) (c : Config) (w : World) :
    (∀ r, Run env ⟨{}, w⟩ c.steps r ↔ config env c ⟨{}, w⟩ = r) ∧
    (∀ s, config env c ⟨{}, w⟩ = .ok () s → Made env w c.steps s) ∧
    ∀ e s, config env c ⟨{}, w⟩ = .error e s → ∃ done x rest t,
      c.steps = done ++ x :: rest ∧ Made env w done t ∧ x.Fails env t e s ∧ s.graph = t.graph ∧
        w.Requested ((done ++ [x]).filterMap Step.request?) s.world := by
  have hrun := config_run env c w
  refine ⟨fun r => ?_, fun s hs => ?_, fun e s hs => ?_⟩
  · constructor
    · intro h
      rw [h.eq, hrun.eq]
    · rintro rfl
      exact hrun
  · rw [hs] at hrun
    exact hrun.made
  · rw [hs] at hrun
    obtain ⟨done, x, rest, t, hsplit, hdone, hx⟩ := hrun.of_error
    have hmade := hdone.made
    refine ⟨done, x, rest, t, hsplit, hmade, hx, hx.graph, ?_⟩
    rw [List.filterMap_append, Step.filterMap_request?_one]
    exact hmade.requested.trans hx.recalls (hx.requested hmade.keyed)

namespace Sample

/-- An environment that makes anything but arms. -/
def armless : Environment where
  factory _ b :=
    if b.kind = .part .arm then .error "no arms"
    else .ok (.fresh { name := b.name, device := .provider })
  connector _ _ := .error "no answer"
  host := ⟨fun _ _ => .exited 0, fun _ _ => none, fun _ _ => none⟩

def workshop : Config where
  boards := [{ name := "bench" }]
  components :=
    [{ name := "hand", type := .arm }, { name := "guide", type := .provider },
      { name := "eye", type := .camera }]

end Sample

/-- The provider comes before the arm, although it is declared after it. -/
example : Sample.workshop.steps.filterMap Step.key? =
    [(.driver .board, "bench"), (.driver (.part .provider), "guide"),
      (.driver (.part .arm), "hand"), (.driver (.part .camera), "eye")] := rfl

/-- The arm cannot be made. By then the graph has the board and the provider. -/
theorem config_runs_sample : ∃ s,
    config Sample.armless Sample.workshop ⟨{}, {}⟩ =
      .error (.construct (.part .arm) "hand" "no arms") s ∧
    s.graph.keys = [(.driver .board, "bench"), (.driver (.part .provider), "guide")] ∧
    ∃ done x rest t, Sample.workshop.steps = done ++ x :: rest ∧
      Made Sample.armless {} done t ∧ s.graph = t.graph := by
  obtain ⟨-, -, herror⟩ := config_runs Sample.armless Sample.workshop {}
  have hfails : ∃ s, config Sample.armless Sample.workshop ⟨{}, {}⟩ =
      .error (.construct (.part .arm) "hand" "no arms") s ∧
        s.graph.keys = [(.driver .board, "bench"), (.driver (.part .provider), "guide")] :=
    ⟨_, rfl, rfl⟩
  obtain ⟨s, hs, hkeys⟩ := hfails
  obtain ⟨done, x, rest, t, hsplit, hmade, -, hgraph, -⟩ := herror _ s hs
  exact ⟨s, hs, hkeys, done, x, rest, t, hsplit, hmade, hgraph⟩

end Build

end RobotHost
