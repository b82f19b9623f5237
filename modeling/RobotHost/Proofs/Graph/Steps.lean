import RobotHost.Proofs.Graph.Delivery

/-!
# Steps of a build

A build does one step for each element of a list, up to the first that fails. What every step keeps
up holds wherever the build ends (`Build.each_ok`, `Build.each_error`).

Before any part is delivered the processes are put under management and started. This changes
nothing but the manager of the graph, keeps every process under its own id, and puts none under
management that was there before (`Build.processes_staffed`).
-/

namespace RobotHost

namespace Build

/-! ## Lists of steps -/

section Each

variable {α β : Type} {step : α → Build Unit} {s s' : Site}

theorem each_append (xs ys : List α) :
    each step (xs ++ ys) = (do each step xs; each step ys) := by
  induction xs with
  | nil => simp [each]
  | cons x rest ih => simp [each, ih]

theorem each_map (f : β → α) (xs : List β) :
    each step (xs.map f) = each (fun x => step (f x)) xs := by
  induction xs with
  | nil => rfl
  | cons x rest ih => simp only [List.map_cons, each, ih]

/-- What every step keeps up, holds once all are done. -/
theorem each_ok {P : List α → Site → Prop}
    (hstep : ∀ done x s s', P done s → step x s = .ok () s' → P (done ++ [x]) s') {xs : List α}
    (hs : P [] s) (h : each step xs s = .ok () s') : P xs s' := by
  induction xs generalizing P s with
  | nil =>
    obtain ⟨-, rfl⟩ := pure_eq_ok.mp h
    exact hs
  | cons x rest ih =>
    obtain ⟨_, t, hx, hrest⟩ := bind_eq_ok.mp h
    -- the induction is on what is to be done, so what is done moves into the property
    exact ih (P := fun done => P (x :: done)) (fun done => hstep (x :: done))
      (hstep [] x s t hs hx) hrest

/-- If the steps end before all are done, one of them failed, after others that did not. -/
theorem each_error {P : List α → Site → Prop}
    (hstep : ∀ done x s s', P done s → step x s = .ok () s' → P (done ++ [x]) s') {xs : List α}
    {e : RobotError} (hs : P [] s) (h : each step xs s = .error e s') :
    ∃ done x t, done ++ [x] <+: xs ∧ P done t ∧ step x t = .error e s' := by
  induction xs generalizing P s with
  | nil => cases h
  | cons x rest ih =>
    rcases bind_eq_error.mp h with hx | ⟨_, t, hx, hrest⟩
    · exact ⟨[], x, s, List.prefix_append [x] rest, hs, hx⟩
    · obtain ⟨done, y, u, hdone, hu, hy⟩ := ih (P := fun done => P (x :: done))
        (fun done => hstep (x :: done)) (hstep [] x s t hs hx) hrest
      exact ⟨x :: done, y, u, List.cons_prefix_cons.mpr ⟨rfl, hdone⟩, hu, hy⟩

/-- If each step leads along a relation, so do all of them in turn, whether they succeed or not. -/
theorem each_along {R : Site → Site → Prop} (hrefl : ∀ s, R s s)
    (htrans : ∀ s t u, R s t → R t u → R s u) (hstep : ∀ x, Along R (step x)) (xs : List α) :
    Along R (each step xs) := by
  induction xs with
  | nil => exact along_pure hrefl ()
  | cons x rest ih => exact (hstep x).bind htrans fun _ => ih

end Each

/-! ## Processes -/

/-- Processes were put under management and started; nothing else was done. -/
structure Staffed (s s' : Site) : Prop where
  graph : s'.graph = { s.graph with manager := s'.graph.manager }
  world : s.world.Extends s'.world
  log : World.Logs Event.OfStart s.world s'.world
  keyed : s.graph.manager.Keyed s.world → s'.graph.manager.Keyed s'.world
  hired : ∀ id p, s'.graph.manager.get? id = some p →
    s.graph.manager.get? id = some p ∨ s.world.processes.get? p = none

theorem Staffed.refl (s : Site) : Staffed s s :=
  ⟨rfl, .refl _, .refl _ _, id, fun _ _ hp => Or.inl hp⟩

theorem Staffed.trans {s t u : Site} (h : Staffed s t) (h' : Staffed t u) : Staffed s u where
  graph := by rw [h'.graph, h.graph]
  world := h.world.trans h'.world
  log := h.log.trans h'.log
  keyed := fun hs => h'.keyed (h.keyed hs)
  hired := by
    intro id p hp
    rcases h'.hired id p hp with hp | hnone
    · exact h.hired id p hp
    · exact Or.inr (h.world.noProcess hnone)

/-- A step that leaves the graph's processes as they are, or puts in one under its id. -/
theorem staffed_of_launches {s : Site} {w w' : World} {m : ProcessManager} (hw : s.world.Extends w)
    (hlog : w.log = s.world.log) (hstart : w.Launches w')
    (hm : s.graph.manager.Keyed w → m.Keyed w')
    (hnew : ∀ id p, m.get? id = some p →
      s.graph.manager.get? id = some p ∨ s.world.processes.get? p = none) :
    Staffed s ⟨{ s.graph with manager := m }, w'⟩ where
  graph := rfl
  world := hw.trans hstart.extends
  log := (World.Logs.of_log_eq hlog).trans hstart.ofStart
  keyed := fun hs => hm (hs.recalls hw.toRecalls)
  hired := hnew

theorem addProcess_eq (h : Host) (p : Ref .process) (replace : Bool) (s : Site) :
    addProcess h p replace s =
      match s.graph.manager.add h p replace s.world with
      | .ok (old, m) w => .ok old ⟨{ s.graph with manager := m }, w⟩
      | .error e w => .error (.process e) { s with world := w } := by
  show EStateM.bind (onProcesses (s.graph.manager.add h p replace)) _ s = _
  unfold EStateM.bind onProcesses
  cases s.graph.manager.add h p replace s.world <;> rfl

theorem addProgram_eq (h : Host) (c : ProcessConfig) (s : Site) :
    addProgram h c s =
      match s.graph.manager.addProgram h c s.world with
      | .ok (p, m) w => .ok p ⟨{ s.graph with manager := m }, w⟩
      | .error e w => .error (.process e) { s with world := w } := by
  show EStateM.bind (onProcesses (s.graph.manager.addProgram h c)) _ s = _
  unfold EStateM.bind onProcesses
  cases s.graph.manager.addProgram h c s.world <;> rfl

/-- To add a program does nothing but put it under management. -/
theorem addProgram_staffed (h : Host) (c : ProcessConfig) : Along Staffed (addProgram h c) := by
  intro s
  rw [addProgram_eq, ProcessManager.addProgram_eq]
  have hw := World.extends_addProcess s.world (.program { config := c })
  -- the process is in the world, under its id, before it is put under management
  have hnew : (World.addProcess (.program { config := c }) s.world).2.processes.get?
      s.world.processes.next = some (.program { config := c }) := by
    show (s.world.processes.push _).get? _ = _
    rw [Table.get?_push, if_pos rfl]
  cases hadd : s.graph.manager.add h s.world.processes.next false
      (World.addProcess (.program { config := c }) s.world).2 with
  | error e w =>
    have hstart := (ProcessManager.add_launches h s.graph.manager _ false).of_error hadd
    exact staffed_of_launches hw rfl hstart (fun hm => hm.recalls hstart.extends.toRecalls)
      fun _ _ hp => Or.inl hp
  | ok x w =>
    obtain ⟨old, m⟩ := x
    have hstart := (ProcessManager.add_launches h s.graph.manager _ false).of_ok hadd
    obtain ⟨-, hm'⟩ := ProcessManager.add_ok hadd
    refine staffed_of_launches hw rfl hstart (fun hm => ?_) fun id p hp => ?_
    · rw [hm', World.processId, hnew]
      exact (hm.insert hnew).recalls hstart.extends.toRecalls
    · rw [hm', ProcessManager.get?, NameMap.get?_insert] at hp
      split at hp
      · cases hp
        exact Or.inr (Table.get?_next _)
      · exact Or.inl hp

/-- A program that is put under management stands under its id. -/
theorem addProgram_ok {h : Host} {c : ProcessConfig} {p : Ref .process} {s s' : Site}
    (hadd : addProgram h c s = .ok p s') :
    s'.graph.manager.processes = s.graph.manager.processes.insert c.id p := by
  rw [addProgram_eq, ProcessManager.addProgram_eq] at hadd
  split at hadd
  · next hok =>
    split at hok
    · next hok' =>
      cases hok
      cases hadd
      obtain ⟨-, rfl⟩ := ProcessManager.add_ok hok'
      -- the id of the process is read off the row that was just written
      have hid : (World.addProcess (.program { config := c }) s.world).2.processId
          s.world.processes.next = c.id := by
        show ((((s.world.processes.push _).get? s.world.processes.next).map Process.id).getD "") = _
        rw [Table.get?_push, if_pos rfl]
        rfl
      show s.graph.manager.processes.insert _ _ = _
      rw [hid]
    · cases hok
  · cases hadd

theorem startProcesses_eq (h : Host) (s : Site) :
    startProcesses h s =
      match s.graph.manager.startedUp.startAll h s.world with
      | .ok () w => .ok () ⟨{ s.graph with manager := s.graph.manager.startedUp }, w⟩
      | .error e w =>
        .error (.process e) ⟨{ s.graph with manager := s.graph.manager.startedUp }, w⟩ := by
  show onProcesses (s.graph.manager.startedUp.startAll h)
    ⟨{ s.graph with manager := s.graph.manager.startedUp }, s.world⟩ = _
  unfold onProcesses
  cases s.graph.manager.startedUp.startAll h s.world <;> rfl

theorem startProcesses_staffed (h : Host) : Along Staffed (startProcesses h) := by
  intro s
  rw [startProcesses_eq]
  have halong : Along World.Launches (s.graph.manager.startedUp.startAll h) :=
    World.startEach_launches h _
  -- the manager counts as started even if one of its processes fails to
  have hstaffed : ∀ w, s.world.Launches w →
      Staffed s ⟨{ s.graph with manager := s.graph.manager.startedUp }, w⟩ := fun w hstart =>
    staffed_of_launches (.refl _) rfl hstart (fun hm => hm.recalls hstart.extends.toRecalls)
      fun _ _ hp => Or.inl hp
  cases hstart : s.graph.manager.startedUp.startAll h s.world with
  | ok _ w => exact hstaffed w (halong.of_ok hstart)
  | error e w => exact hstaffed w (halong.of_error hstart)

theorem processes_staffed (env : Environment) (cs : List ProcessConfig) :
    Along Staffed (processes env cs) := by
  have hadd : ∀ c : ProcessConfig, Along Staffed (do let _ ← addProgram env.host c) := fun c =>
    (addProgram_staffed env.host c).bind (fun _ _ _ => .trans) fun _ => along_pure .refl ()
  exact (each_along .refl (fun _ _ _ => .trans) hadd cs).bind (fun _ _ _ => .trans) fun _ =>
    startProcesses_staffed env.host

/-- Programs that are all put under management stand under their ids, beside what was there. -/
theorem addPrograms_ok {h : Host} {cs : List ProcessConfig} {s s' : Site}
    (hadd : each (fun c => do let _ ← addProgram h c) cs s = .ok () s') {id : String} :
    id ∈ s'.graph.manager.processes.names ↔
      id ∈ s.graph.manager.processes.names ∨ id ∈ cs.map ProcessConfig.id := by
  refine each_ok (P := fun done t => id ∈ t.graph.manager.processes.names ↔
    id ∈ s.graph.manager.processes.names ∨ id ∈ done.map ProcessConfig.id) ?_ (by simp) hadd
  intro done c u v hu hstep
  obtain ⟨p, v', hp, hv⟩ := bind_eq_ok.mp hstep
  obtain ⟨-, rfl⟩ := pure_eq_ok.mp hv
  rw [addProgram_ok hp, NameMap.mem_names_insert, hu, List.map_append, List.mem_append,
    List.map_singleton, List.mem_singleton, or_comm, or_assoc]

/-- Once all programs run, the manager has them and what it had before. -/
theorem processes_ok {env : Environment} {cs : List ProcessConfig} {s s' : Site}
    (h : processes env cs s = .ok () s') (id : String) :
    id ∈ s'.graph.manager.processes.names ↔
      id ∈ s.graph.manager.processes.names ∨ id ∈ cs.map ProcessConfig.id := by
  obtain ⟨_, t, hadd, hstart⟩ := bind_eq_ok.mp h
  -- to start processes takes none out and puts none in
  have hprocesses : s'.graph.manager.processes = t.graph.manager.processes := by
    rw [startProcesses_eq] at hstart
    split at hstart
    · cases hstart
      rfl
    · cases hstart
  rw [hprocesses]
  exact addPrograms_ok hadd

/-- An error of processes is none of closing. -/
theorem processes_error {env : Environment} {cs : List ProcessConfig} {s s' : Site} {e : RobotError}
    (h : processes env cs s = .error e s') : ¬e.OfTeardown := by
  rcases bind_eq_error.mp h with hadd | ⟨_, t, -, hstart⟩
  · obtain ⟨_, c, u, -, -, hc⟩ := each_error (P := fun _ _ => True)
      (fun _ _ _ _ _ _ => trivial) trivial hadd
    rcases bind_eq_error.mp hc with hc | ⟨p, u', -, hpure⟩
    · rw [addProgram_eq] at hc
      split at hc
      · cases hc
      · cases hc
        exact id
    · cases hpure
  · rw [startProcesses_eq] at hstart
    split at hstart
    · cases hstart
    · cases hstart
      exact id

end Build

end RobotHost
