import RobotHost.Proofs.Graph.Closing

/-!
# What closing leads to

To close a connection is to close all that the robot at its other end holds, and so on along the
connections it holds in turn. `World.Disposes` follows them: it says what may be closed or stopped
when a resource is closed, `Graph.Disposes` says it of a graph.

Whatever the log tells of closing a resource or a graph is of this sort (`World.closed_disposes`,
`Graph.close_disposes`). Nothing of what a graph holds itself is left out (`Graph.close_notes`), and
its own processes come first, each once (`Graph.close_stoppings`).
-/

namespace RobotHost

namespace World

/-! ## Along connections -/

/-- What may be closed or stopped when a resource is closed. -/
inductive Disposes (w : World) : Resource → Event → Prop
  | driver (d : Ref .driver) : Disposes w (.driver d) (.closed d)
  | connection (c : Connection) : Disposes w (.connection c) (.hungUp c)
  | remote {r : Ref .remote} {remote : Remote} {e : Event} (hr : w.remotes.get? r = some remote)
    (h : Disposes w (.connection remote.connection) e) : Disposes w (.connection (.remote r)) e
  | part {r : Ref .robot} {g : Graph} {x : Resource} {e : Event} (hr : w.robots.get? r = some g)
    (hx : x ∈ g.resources w) (h : Disposes w x e) : Disposes w (.connection (.robot r)) e
  | process {r : Ref .robot} {g : Graph} {p : Ref .process} (hr : w.robots.get? r = some g)
    (hp : p ∈ g.manager.processes.values) : Disposes w (.connection (.robot r)) (.stopped p)

end World

/-- What may be closed or stopped when a graph is closed. -/
def Graph.Disposes (g : Graph) (w : World) (e : Event) : Prop :=
  (∃ p ∈ g.manager.processes.values, e = .stopped p) ∨ ∃ x ∈ g.resources w, w.Disposes x e

namespace World

variable {w w' w'' : World} {x : Resource} {e : Event}

/-- To hang up on a robot may close whatever closing its graph may. -/
theorem Disposes.robot {r : Ref .robot} {g : Graph} (hr : w.robots.get? r = some g)
    (h : g.Disposes w e) : w.Disposes (.connection (.robot r)) e := by
  rcases h with ⟨p, hp, rfl⟩ | ⟨x, hx, h⟩
  · exact .process hr hp
  · exact .part hr hx h

theorem Disposes.congr (hremotes : w'.remotes = w.remotes) (hrobots : w'.robots = w.robots)
    (hbehind : ∀ s, w'.behind? s = w.behind? s) (h : w.Disposes x e) : w'.Disposes x e := by
  induction h with
  | driver d => exact .driver d
  | connection c => exact .connection c
  | remote hr _ ih => exact .remote (hremotes ▸ hr) ih
  | @part r g x e hr hx _ ih =>
    have hx' : x ∈ g.resources w' := by
      rw [g.resources_congr hbehind]
      exact hx
    exact .part (hrobots ▸ hr) hx' ih
  | process hr hp => exact .process (hrobots ▸ hr) hp

/-- What closing leads to stays the same while things are closed. -/
theorem Quiet.disposes_iff (h : w.Quiet w') : w'.Disposes x e ↔ w.Disposes x e :=
  ⟨Disposes.congr h.remotes.symm h.robots.symm fun s => (h.behind?_eq s).symm,
    Disposes.congr h.remotes h.robots h.behind?_eq⟩

/-- To close a driver leads nowhere else. -/
theorem Disposes.of_driver {d : Ref .driver} (h : w.Disposes (.driver d) e) : e = .closed d := by
  cases h
  rfl

/-- A process is stopped only by way of a connection. -/
theorem Disposes.of_stopped {p : Ref .process} (h : w.Disposes x (.stopped p)) :
    ∃ c, x = .connection c := by
  cases x with
  | driver d => cases h.of_driver
  | connection c => exact ⟨c, rfl⟩

/-! ## What the log tells at most -/

/-- A process that is stopped is logged, if there is one. -/
theorem stop_log (h : Host) (p : Ref .process) (w : World) :
    (stop h p w).2.log =
      w.log ++ ([p].filter fun q => (w.processes.get? q).isSome).map .stopped := by
  unfold stop
  cases hq : w.processes.get? p with
  | none => simp [hq]
  | some q => simp [hq]

theorem stop_known (h : Host) (p q : Ref .process) (w : World) :
    ((stop h p w).2.processes.get? q).isSome = (w.processes.get? q).isSome := by
  unfold stop
  cases w.processes.get? p with
  | none => rfl
  | some process =>
    show ((w.processes.set p _).get? q).isSome = _
    rw [Table.get?_set]
    split <;> simp

/-- Those of the processes are stopped that are there, in turn. -/
theorem stopEach_log (h : Host) (ps : List (Ref .process)) (w : World) :
    (stopEach h ps w).2.log =
      w.log ++ (ps.filter fun p => (w.processes.get? p).isSome).map .stopped := by
  induction ps generalizing w with
  | nil => exact (List.append_nil _).symm
  | cons p rest ih =>
    have hworld : (stopEach h (p :: rest) w).2 = (stopEach h rest (stop h p w).2).2 := by
      rw [stopEach, run_bind]
      cases (stop h p w).1 <;> rfl
    rw [hworld, ih, stop_log, List.append_assoc, ← List.map_append]
    simp only [stop_known]
    rw [← List.filter_append]
    rfl

variable {hangUp : Connection → StateM World (List CloseFailure)}

/-- Closing a resource logs only what it may close. -/
theorem closed_logs (hhang : ∀ c (w : World), Logs (w.Disposes (.connection c)) w (hangUp c w).2)
    (w : World) (x : Resource) : Logs (w.Disposes x) w (w.closed hangUp x) := by
  cases x with
  | driver d => exact ⟨[.closed d], rfl, by simpa using Disposes.driver d⟩
  | connection c => exact hhang c w

theorem foldl_closed_logs (hquiet : ∀ c (w : World), w.Quiet (hangUp c w).2)
    (hhang : ∀ c (w : World), Logs (w.Disposes (.connection c)) w (hangUp c w).2)
    (xs : List Resource) (w : World) :
    Logs (fun e => ∃ x ∈ xs, w.Disposes x e) w (xs.foldl (closed hangUp) w) := by
  induction xs generalizing w with
  | nil => exact .refl _ w
  | cons x rest ih =>
    have hfirst := closed_logs hhang w x
    have hsame := closed_quiet hquiet w x
    -- what the others lead to is not changed by the first
    refine (hfirst.mono fun e he => ⟨x, List.mem_cons_self, he⟩).trans ((ih _).mono ?_)
    rintro e ⟨y, hy, he⟩
    exact ⟨y, List.mem_cons_of_mem _ hy, hsame.disposes_iff.mp he⟩

/-- Closing a graph logs only what may be closed with it. -/
theorem closeVia_logs (hquiet : ∀ c (w : World), w.Quiet (hangUp c w).2)
    (hhang : ∀ c (w : World), Logs (w.Disposes (.connection c)) w (hangUp c w).2) (h : Host)
    (g : Graph) (w : World) : Logs (g.Disposes w) w (g.closeVia h hangUp w).2 := by
  have hidle := g.stopped_idle h w
  rw [Graph.closeVia_snd hquiet]
  refine Logs.trans ⟨_, stopEach_log h _ w, fun e he => ?_⟩
    ((foldl_closed_logs hquiet hhang _ _).mono ?_)
  · obtain ⟨p, hp, rfl⟩ := List.mem_map.mp he
    exact Or.inl ⟨p, (List.mem_filter.mp hp).1, rfl⟩
  · rintro e ⟨x, hx, he⟩
    exact Or.inr ⟨x, hx, hidle.disposes_iff.mp he⟩

/-- Hanging up logs only what may be closed at the other end, by induction on the depth. -/
theorem hangUpIn_disposes (h : Host) (depth : Nat) (c : Connection) (w : World) :
    Logs (w.Disposes (.connection c)) w (hangUpIn h depth c w).2 := by
  induction depth generalizing c w with
  | zero => exact .refl _ w
  | succ depth ih =>
    -- what follows is noted in a world that differs in its log only
    have hquiet : w.Quiet (note (.hungUp c) w).2 := note_quiet rfl w
    have hnote : Logs (w.Disposes (.connection c)) w (note (.hungUp c) w).2 :=
      ⟨[.hungUp c], rfl, by simpa using Disposes.connection c⟩
    cases c with
    | robot r =>
      rw [hangUpIn_robot]
      split
      · exact hnote
      · next g hg =>
        refine hnote.trans ((closeVia_logs (hangUpIn_quiet h depth) ih h g _).mono fun e he => ?_)
        exact hquiet.disposes_iff.mp (.robot (by rw [hquiet.robots, hg]) he)
    | remote r =>
      rw [hangUpIn_remote]
      split
      · exact hnote
      · next remote hremote =>
        refine hnote.trans ((ih _ _).mono fun e he => ?_)
        exact .remote hremote (hquiet.disposes_iff.mp he)

/-- To close a resource does no more than what it leads to. -/
theorem closed_disposes (h : Host) (depth : Nat) (w : World) (x : Resource) :
    Logs (w.Disposes x) w (w.closed (hangUpIn h depth) x) :=
  closed_logs (hangUpIn_disposes h depth) w x

theorem retire_disposes (h : Host) (xs : List Resource) (w : World) :
    Logs (fun e => ∃ x ∈ xs, w.Disposes x e) w (retire h xs w).2 := by
  induction xs generalizing w with
  | nil => exact .refl _ w
  | cons x rest ih =>
    have hstep : (retire h (x :: rest) w).2 =
        (retire h rest (w.closed (hangUpIn h w.depth) x)).2 := by
      cases x <;> rfl
    have hfirst := closed_disposes h w.depth w x
    have hsame := closed_quiet (hangUpIn_quiet h w.depth) w x
    rw [hstep]
    refine (hfirst.mono fun e he => ⟨x, List.mem_cons_self, he⟩).trans ((ih _).mono ?_)
    rintro e ⟨y, hy, he⟩
    exact ⟨y, List.mem_cons_of_mem _ hy, hsame.disposes_iff.mp he⟩

/-! ## What the log tells at least -/

/-- From one world to the next all of these events were logged, and maybe others. -/
def Notes (events : List Event) (w w' : World) : Prop :=
  ∃ es, w'.log = w.log ++ es ∧ ∀ e ∈ events, e ∈ es

variable {es fs : List Event}

theorem notes_nil (h : w.log <+: w'.log) : Notes [] w w' := by
  obtain ⟨es, hes⟩ := h
  exact ⟨es, hes.symm, by simp⟩

/-- What is logged in two stages is logged in their order. -/
theorem Notes.trans (h : Notes es w w') (h' : Notes fs w' w'') : Notes (es ++ fs) w w'' := by
  obtain ⟨es', hlog, hes⟩ := h
  obtain ⟨fs', hlog', hfs⟩ := h'
  refine ⟨es' ++ fs', by rw [hlog', hlog, List.append_assoc], fun e he => ?_⟩
  rcases List.mem_append.mp he with he | he
  · exact List.mem_append_left _ (hes e he)
  · exact List.mem_append_right _ (hfs e he)

end World

/-- How the log tells that a resource is closed. -/
def Resource.closing : Resource → Event
  | driver d => .closed d
  | connection c => .hungUp c

@[simp]
theorem Resource.closes?_closing (x : Resource) : x.closing.closes? = some x := by
  cases x <;> rfl

namespace World

/-- A connection is closed at least itself, unless it is not followed at all. -/
theorem closed_notes (h : Host) (depth : Nat) (w : World) (x : Resource) :
    Notes [x.closing] w (w.closed (hangUpIn h (depth + 1)) x) := by
  cases x with
  | driver d => exact ⟨[.closed d], rfl, fun _ he => he⟩
  | connection c =>
    have hfirst : Notes [.hungUp c] w (note (.hungUp c) w).2 := ⟨[.hungUp c], rfl, fun _ he => he⟩
    have hrest : (note (.hungUp c) w).2.log <+: (hangUpIn h (depth + 1) c w).2.log := by
      cases c with
      | robot r =>
        rw [hangUpIn_robot]
        split
        · exact List.prefix_refl _
        · exact (Graph.closeVia_quiet (hangUpIn_quiet h depth) h _ _).logs.log
      | remote r =>
        rw [hangUpIn_remote]
        split
        · exact List.prefix_refl _
        · exact (hangUpIn_quiet h depth _ _).logs.log
    exact hfirst.trans (notes_nil hrest)

/-- Resources that are closed are logged in their order, among what else is closed with them. -/
theorem foldl_closed_notes (h : Host) (depth : Nat) (xs : List Resource) (w : World) :
    Notes (xs.map Resource.closing) w (xs.foldl (closed (hangUpIn h (depth + 1))) w) := by
  induction xs generalizing w with
  | nil => exact notes_nil (List.prefix_refl _)
  | cons x rest ih => exact (closed_notes h depth w x).trans (ih _)

end World

/-! ## Graphs -/

namespace Graph

/-- To close a graph does no more than what its processes and parts lead to. -/
theorem close_disposes (h : Host) (g : Graph) (w : World) :
    World.Logs (g.Disposes w) w (g.close h w).2 :=
  World.closeVia_logs (World.hangUpIn_quiet h w.depth) (World.hangUpIn_disposes h w.depth) h g w

/-- The processes of a graph whose manager is keyed are all there, so that all are stopped. -/
theorem stopped_log (h : Host) {g : Graph} {w : World} (hg : g.manager.Keyed w) :
    (g.stopped h w).log = w.log ++ g.manager.processes.values.map .stopped := by
  have hall : g.manager.processes.values.filter (fun p => (w.processes.get? p).isSome) =
      g.manager.processes.values :=
    List.filter_eq_self.mpr fun p hp => Option.isSome_iff_exists.mpr (hg.known hp)
  rw [stopped, ProcessManager.stopAll, World.stopEach_log, hall]

/-- To close a graph stops all its processes and closes all its parts. -/
theorem close_notes (h : Host) {g : Graph} {w : World} (hg : g.manager.Keyed w) :
    World.Notes (g.manager.processes.values.map .stopped ++
      (g.resources w).map Resource.closing) w (g.close h w).2 := by
  have hstopped : World.Notes (g.manager.processes.values.map .stopped) w (g.stopped h w) :=
    ⟨_, stopped_log h hg, fun _ he => he⟩
  rw [close_snd]
  exact hstopped.trans (World.foldl_closed_notes h (w.remotes.size + w.robots.size) _ _)

/-- The processes of a graph are stopped in turn, and then what its connections lead to. -/
theorem close_stoppings (h : Host) {g : Graph} {w : World} (hg : g.manager.Keyed w) :
    ∃ qs, (g.close h w).2.stoppings = w.stoppings ++ g.manager.processes.values ++ qs ∧
      ∀ q ∈ qs, ∃ x ∈ g.resources w, w.Disposes x (.stopped q) := by
  obtain ⟨qs, hqs, hdisposes⟩ := (World.foldl_closed_logs (World.hangUpIn_quiet h w.depth)
    (World.hangUpIn_disposes h w.depth) (g.resources w) (g.stopped h w)).exists_stoppings
  have hown : (g.manager.processes.values.map Event.stopped).filterMap Event.stops? =
      g.manager.processes.values := by
    rw [List.filterMap_map]
    exact List.filterMap_some
  refine ⟨qs, ?_, fun q hq => ?_⟩
  · rw [close_snd, hqs, World.stoppings_append (stopped_log h hg), hown]
  · obtain ⟨x, hx, hstopped⟩ := hdisposes q hq
    exact ⟨x, hx, (g.stopped_idle h w).disposes_iff.mp hstopped⟩

end Graph

end RobotHost
