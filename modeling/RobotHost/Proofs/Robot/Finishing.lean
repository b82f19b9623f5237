import RobotHost.Proofs.Robot.Preparing

/-!
# What finishing comes to

The processes that others took the place of are handed over to the graph of the removed parts, and
that graph is closed. Its manager was never started, so nothing is started by the hand-over: it can
only fail on an id that is taken (`Graph.adopt_spec`). Either way all removed parts are closed
(`Draft.finish_spec`).
-/

namespace RobotHost

namespace Graph

/-- A hand-over to a graph whose manager was not started changes nothing but the manager. -/
theorem adopt_spec (h : Host) {g : Graph} (hidle : g.manager.started = false)
    (ps : List (Ref .process)) (w : World) :
    ∃ outcome m, g.adopt h ps w = (outcome, { g with manager := m }, w) ∧ m.started = false ∧
      ∀ e, outcome = .error e → ∃ id, e = .unexpectedProcessReplacement id := by
  induction ps generalizing g with
  | nil => exact ⟨.ok (), g.manager, rfl, hidle, by simp⟩
  | cons p rest ih =>
    have hadd := ProcessManager.add_of_not_started h hidle p w
    -- an id that is taken ends the hand-over; else one process more is under management
    by_cases hc : g.manager.processes.contains (w.processId p) = true
    · rw [if_pos hc] at hadd
      refine ⟨.error (.unexpectedProcessReplacement (w.processId p)), g.manager, ?_, hidle, ?_⟩
      · simp only [adopt, hadd]
      · intro e he
        cases he
        exact ⟨_, rfl⟩
    · rw [if_neg hc] at hadd
      obtain ⟨outcome, m, hrest, hm, herror⟩ := ih (g := { g with manager :=
        { g.manager with processes := g.manager.processes.insert (w.processId p) p } }) hidle
      refine ⟨outcome, m, ?_, hm, herror⟩
      simp only [adopt, hadd, hrest]

/-- Processes whose ids are free and distinct are handed over without fail. -/
theorem adopt_ok (h : Host) {g : Graph} (hidle : g.manager.started = false)
    {ps : List (Ref .process)} {w : World} (hdistinct : (ps.map w.processId).Nodup)
    (hfree : ∀ p ∈ ps, w.processId p ∉ g.manager.processes.names) :
    ∃ m, g.adopt h ps w = (.ok (), { g with manager := m }, w) ∧ m.started = false ∧
      ∀ id q, m.get? id = some q ↔ g.manager.get? id = some q ∨ (q ∈ ps ∧ w.processId q = id) := by
  induction ps generalizing g with
  | nil => exact ⟨g.manager, rfl, hidle, by simp⟩
  | cons p rest ih =>
    obtain ⟨hp, hrest⟩ := List.nodup_cons.mp hdistinct
    have hc : ¬g.manager.processes.contains (w.processId p) = true := fun hc =>
      hfree p List.mem_cons_self ((NameMap.contains_iff _).mp hc)
    have hadd := ProcessManager.add_of_not_started h hidle p w
    rw [if_neg hc] at hadd
    obtain ⟨m, hadopt, hm, hget⟩ := ih (g := { g with manager :=
      { g.manager with processes := g.manager.processes.insert (w.processId p) p } }) hidle hrest
      (by
        intro q hq hmem
        rcases (NameMap.mem_names_insert _).mp hmem with heq | hmem
        · exact hp (heq ▸ List.mem_map_of_mem hq)
        · exact hfree q (List.mem_cons_of_mem _ hq) hmem)
    refine ⟨m, by simp only [adopt, hadd, hadopt], hm, fun id q => ?_⟩
    rw [hget, ProcessManager.get?, NameMap.get?_insert, List.mem_cons]
    -- the id of the first process was free, so nothing is lost by writing it
    by_cases hid : w.processId p = id
    · have hnone : g.manager.get? id = none :=
        (NameMap.get?_eq_none_iff _).mpr (hid ▸ hfree p List.mem_cons_self)
      rw [if_pos hid, hnone]
      constructor
      · rintro (heq | hq)
        · cases heq
          exact Or.inr ⟨Or.inl rfl, hid⟩
        · exact Or.inr ⟨Or.inr hq.1, hq.2⟩
      · rintro (hq | ⟨rfl | hq, hqid⟩)
        · cases hq
        · exact Or.inl rfl
        · exact Or.inr ⟨hq, hqid⟩
    · rw [if_neg hid]
      refine or_congr_right (and_congr_left fun hqid => ?_)
      have hne : q ≠ p := fun heq => hid (heq ▸ hqid)
      simp [hne]

end Graph

namespace Draft

/-- Hands over the processes that others took the place of. -/
def handOver (h : Host) (d : Draft) (w : World) : Except RobotError Unit × Graph × World :=
  match d.removed.adopt h d.replacedByAdded w with
  | (.ok (), removed, w) => removed.adopt h d.replacedByModified w
  | (.error e, removed, w) => (.error e, removed, w)

/-- A hand-over touches only the manager of the graph that is closed, and can fail for one reason.
-/
theorem handOver_spec (h : Host) {d : Draft} (hidle : d.removed.manager.started = false)
    (w : World) :
    ∃ outcome m, d.handOver h w = (outcome, { d.removed with manager := m }, w) ∧
      ∀ e, outcome = .error e → ∃ id, e = .unexpectedProcessReplacement id := by
  obtain ⟨outcome, m, hadopt, hm, herror⟩ := d.removed.adopt_spec h hidle d.replacedByAdded w
  cases outcome with
  | error e => exact ⟨.error e, m, by rw [handOver, hadopt], herror⟩
  | ok _ =>
    obtain ⟨outcome', m', hadopt', -, herror'⟩ :=
      ({ d.removed with manager := m } : Graph).adopt_spec h hm d.replacedByModified w
    refine ⟨outcome', m', ?_, herror'⟩
    rw [handOver, hadopt]
    exact hadopt'

/-- Processes whose ids are distinct and not those of removed processes are handed over. -/
theorem handOver_ok (h : Host) {d : Draft} (hidle : d.removed.manager.started = false) {w : World}
    (hdistinct : ((d.replacedByAdded ++ d.replacedByModified).map w.processId).Nodup)
    (hfree : ∀ p ∈ d.replacedByAdded ++ d.replacedByModified,
      w.processId p ∉ d.removed.manager.processes.names) :
    ∃ m, d.handOver h w = (.ok (), { d.removed with manager := m }, w) ∧
      ∀ id q, m.get? id = some q ↔ d.removed.manager.get? id = some q ∨
        (q ∈ d.replacedByAdded ++ d.replacedByModified ∧ w.processId q = id) := by
  rw [List.map_append] at hdistinct
  obtain ⟨hfirst, hsecond, hapart⟩ := List.nodup_append.mp hdistinct
  obtain ⟨m, hadopt, hm, hget⟩ := d.removed.adopt_ok h hidle hfirst fun p hp =>
    hfree p (List.mem_append_left _ hp)
  -- the ids of the second lot are neither taken in the graph nor by the first
  obtain ⟨m', hadopt', -, hget'⟩ :=
    ({ d.removed with manager := m } : Graph).adopt_ok h hm hsecond fun p hp hmem => by
      obtain ⟨q, hq⟩ := (NameMap.mem_names_iff _).mp hmem
      rcases (hget _ q).mp hq with hq | ⟨hq, hid⟩
      · exact hfree p (List.mem_append_right _ hp) ((NameMap.mem_names_iff _).mpr ⟨q, hq⟩)
      · exact hapart _ (List.mem_map_of_mem hq) _ (List.mem_map_of_mem hp) hid
  refine ⟨m', ?_, fun id q => ?_⟩
  · rw [handOver, hadopt]
    exact hadopt'
  · rw [hget', hget, or_assoc, ← or_and_right, List.mem_append]

theorem finish_eq (h : Host) (d : Draft) (w : World) :
    d.finish h w =
      let (handedOver, removed, w) := d.handOver h w
      let (failures, w) := removed.close h w
      match handedOver with
      | .error e => (.error e, w)
      | .ok () => (if failures.isEmpty then .ok () else .error (.close failures), w) := rfl

/-- If all processes are handed over, an error only says what did not close well. -/
theorem finish_of_ok {h : Host} {d : Draft} {g : Graph} {w : World}
    (hover : d.handOver h w = (.ok (), g, w)) :
    (d.finish h w).2 = (g.close h w).2 ∧
      ∀ e, (d.finish h w).1 = .error e → e = .close (g.close h w).1 := by
  rw [finish_eq, hover]
  refine ⟨rfl, fun e he => ?_⟩
  have houtcome : (if (g.close h w).1.isEmpty then .ok () else
      .error (.close (g.close h w).1) : Except RobotError Unit) = .error e := he
  split at houtcome
  · cases houtcome
  · cases houtcome
    rfl

/-- Whatever comes of the hand-over, the removed parts are closed. An error says that the hand-over
failed, or that something did not close well. -/
theorem finish_spec (h : Host) {d : Draft} (hidle : d.removed.manager.started = false)
    (w : World) :
    (∃ m, (d.finish h w).2 = ({ d.removed with manager := m }.close h w).2) ∧
      ∀ e, (d.finish h w).1 = .error e → e.OfTeardown := by
  obtain ⟨outcome, m, hover, herror⟩ := d.handOver_spec h hidle w
  cases outcome with
  | error e =>
    rw [finish_eq, hover]
    refine ⟨⟨m, rfl⟩, fun e' he => ?_⟩
    cases he
    obtain ⟨id, rfl⟩ := herror e rfl
    exact trivial
  | ok _ =>
    obtain ⟨hworld, hclose⟩ := finish_of_ok hover
    refine ⟨⟨m, hworld⟩, fun e he => ?_⟩
    rw [hclose e he]
    exact trivial

/-- To finish a reconfiguration delivers nothing and exchanges nothing. -/
theorem finish_quiet (h : Host) {d : Draft} (hidle : d.removed.manager.started = false)
    (w : World) : w.Quiet (d.finish h w).2 := by
  obtain ⟨⟨m, hworld⟩, -⟩ := finish_spec h hidle w
  rw [hworld]
  exact Graph.close_quiet h _ w

end Draft

end RobotHost
