import RobotHost.Proofs.Robot.Failing
import RobotHost.Proofs.Robot.Matching
import RobotHost.Proofs.Robot.Transferring

/-!
# Processes through reconfigurations

A process that gives way, be it to an added one or to a modified one, is handed over to the graph of
the removed parts, which is closed last. If no process is mentioned twice by a diff nothing stands
in the way of the hand-over, and the graph that is closed manages just the running processes that
the diff mentions (`LocalRobot.Preparation.handOver_ok`). So of the processes that were managed before
those are stopped, once each, that are not managed afterwards, and if the reconfiguration fails none
but those that were started for it (`LocalRobot.reconfigure_stops`).

Connections may lead to robots that manage processes as well; nothing is said here of processes that
are managed there too.
-/

namespace RobotHost

/-- To exchange parts stops no more than what the parts that give way lead to. -/
theorem Graph.Modified.stoppings {h : Host} {g next g' : Graph} {w w' : World}
    {replaced : List (Ref .process)} (hm : Modified h g next w replaced g' w') :
    ∃ qs, w'.stoppings = w.stoppings ++ qs ∧ ∀ q ∈ qs,
      ∃ x ∈ (g.exchanges next).filterMap (Exchange.retired? w), w'.Disposes x (.stopped q) := by
  obtain ⟨w₁, w₂, hstart, hexchanged, rfl⟩ := hm.world
  obtain ⟨qs, hqs, hdisposes⟩ := (World.retire_disposes h _ w₂).exists_stoppings
  refine ⟨qs, ?_, fun q hq => ?_⟩
  · have hsame : w₂.stoppings = w.stoppings := by
      rw [← (hstart.plain.mono fun _ he => he.stops).stoppings, World.stoppings, World.stoppings,
        hexchanged.log]
    rw [hqs, hsame]
  · obtain ⟨x, hx, hstopped⟩ := hdisposes q hq
    exact ⟨x, hx, (World.retire_quiet h _ w₂).disposes_iff.mpr hstopped⟩

namespace LocalRobot

namespace Preparation

variable {env : Environment} {r : LocalRobot} {diff : Diff} {w w' : World} {draft : Draft}
  (p : Preparation env r diff w draft w')

include p

/-! ## What is closed was live or delivered -/

/-- Nothing is stopped while parts are built, selected and added. -/
theorem stoppings_joined : p.joined.stoppings = w.stoppings := by
  have hselected : p.selected.stoppings = p.modified.world.stoppings := by
    rw [World.stoppings, World.stoppings, p.hselected.world.sameLog]
  rw [(p.hmerged.world.plain.mono fun _ he => he.stops).stoppings, hselected,
    p.hmodified.progress.built.stoppings, p.hadded.progress.built.stoppings]

/-- A resource of the merged graph is one of the running robot or was delivered for the diff. -/
theorem mem_resources_merged (hr : r.graph.Intact w) {x : Resource}
    (hx : x ∈ p.merged.resources p.joined) :
    x ∈ r.graph.resources w ∨ x ∈ (p.xs ++ p.ys).map Delivery.resource := by
  have hadded := p.hadded.progress.built
  have hmodified := p.hmodified.progress.built.world
  obtain ⟨k, name, b, hb, rfl⟩ := Graph.mem_resources.mp hx
  obtain ⟨h, hh, hbehind⟩ := Graph.backing?_eq_some_iff.mp hb
  rcases p.hmerged.get?_cases hh with hh | ⟨-, hh⟩
  · have hmem : b.resource ∈ p.added.graph.resources p.joined := Graph.mem_resources.mpr
      ⟨k, name, b, Graph.backing?_eq_some_iff.mpr ⟨h, hh, hbehind⟩, rfl⟩
    rw [hadded.intact.resources_recalls (hmodified.trans p.extends_joined).toRecalls] at hmem
    rw [List.map_append]
    exact Or.inr (List.mem_append_left _ (hadded.mem_delivered hmem))
  · have hmem : b.resource ∈ r.graph.resources p.joined := Graph.mem_resources.mpr
      ⟨k, name, b, Graph.backing?_eq_some_iff.mpr ⟨h, hh, hbehind⟩, rfl⟩
    rw [hr.resources_recalls (p.extends_modified.trans p.extends_joined).toRecalls] at hmem
    exact Or.inl hmem

/-- What gives way to a modified part ran before, or was delivered to be added. -/
theorem mem_retired (hr : r.graph.Intact w) {x : Resource} (hx : x ∈ p.retired) :
    x ∈ r.graph.resources w ∨ x ∈ (p.xs ++ p.ys).map Delivery.resource := by
  obtain ⟨y, hy, hretired⟩ := List.mem_filterMap.mp hx
  refine p.mem_resources_merged hr (Graph.mem_resources.mpr ⟨y.kind, y.name, ?_⟩)
  unfold Exchange.retired? at hretired
  split at hretired
  · next old new hold hnew =>
    split at hretired
    · cases hretired
    · cases hretired
      exact ⟨old, Graph.backing?_eq_some_iff.mpr ⟨y.live, (Graph.mem_exchanges.mp hy).1, hold⟩, rfl⟩
  · cases hretired

/-- So did every connection of the removed parts, even one that was exchanged before. -/
theorem mem_removed (hr : r.graph.Intact w) {c : Connection}
    (hc : .connection c ∈ draft.removed.resources w') :
    .connection c ∈ r.graph.resources w ∨
      .connection c ∈ (p.xs ++ p.ys).map Delivery.resource := by
  have hmodified := p.hmodified.progress.built
  obtain ⟨k, name, b, hb, hbc⟩ := Graph.mem_resources.mp hc
  obtain ⟨h, hh, hbehind⟩ := Graph.backing?_eq_some_iff.mp hb
  cases k with
  | driver k =>
    obtain ⟨d, rfl⟩ := World.behind?_driver hbehind
    cases hbc
  | remote =>
    by_cases hexchanged : ∃ x ∈ p.merged.exchanges p.modified.graph, Kind.remote.slot h = x.target
    -- then what was delivered for the exchange is behind the handle
    · obtain ⟨x, hx, hslot⟩ := hexchanged
      rw [hslot, p.hexchanged.behind hx] at hbehind
      have hmem : b.resource ∈ p.modified.graph.resources p.joined := Graph.mem_resources.mpr
        ⟨x.kind, x.name, b, Graph.backing?_eq_some_iff.mpr
          ⟨x.next, (Graph.mem_exchanges.mp hx).2, hbehind⟩, rfl⟩
      rw [hmodified.intact.resources_recalls p.extends_joined.toRecalls] at hmem
      rw [← hbc, List.map_append]
      exact Or.inr (List.mem_append_right _ (hmodified.mem_delivered hmem))
    -- a remote robot is selected as it is, so it ran before
    · rw [p.hexchanged.others fun x hx hslot => hexchanged ⟨x, hx, hslot⟩,
        p.hmerged.world.behind?_eq] at hbehind
      have hsame : p.modified.world.behind? (Kind.remote.slot h) = some b := by
        rw [← hbehind]
        show (p.modified.world.remotes.get? h).map _ = (p.selected.remotes.get? h).map _
        rw [p.hselected.world.sameRemotes]
      have hlive := ((p.hselected.remotes name h).mp hh).2
      have hmem : b.resource ∈ r.graph.resources p.modified.world := Graph.mem_resources.mpr
        ⟨_, name, b, Graph.backing?_eq_some_iff.mpr ⟨h, hlive, hsame⟩, rfl⟩
      rw [hr.resources_recalls p.extends_modified.toRecalls, hbc] at hmem
      exact Or.inl hmem

/-- Once the removed parts are closed, the processes handed over to them were stopped. What was
stopped besides was led to by connections that were live or delivered. -/
theorem stoppings_closed (hr : r.graph.Intact w) {m : ProcessManager} (hm : m.Keyed w') :
    ∃ qs qs', ({ draft.removed with manager := m }.close env.host w').2.stoppings =
        w.stoppings ++ (qs ++ m.processes.values ++ qs') ∧
      ∀ q, q ∈ qs ∨ q ∈ qs' → ∃ c, w'.Disposes (.connection c) (.stopped q) ∧
        (.connection c ∈ r.graph.resources w ∨
          .connection c ∈ (p.xs ++ p.ys).map Delivery.resource) := by
  obtain ⟨qs, hqs, hexchange⟩ := p.hexchanged.stoppings
  obtain ⟨qs', hqs', hclose⟩ :=
    Graph.close_stoppings env.host (g := { draft.removed with manager := m }) hm
  refine ⟨qs, qs', ?_, ?_⟩
  · rw [hqs', hqs, p.stoppings_joined]
    simp only [List.append_assoc]
  -- beyond the manager, processes are stopped only where a connection is hung up
  · rintro q (hq | hq)
    · obtain ⟨x, hx, hstopped⟩ := hexchange q hq
      obtain ⟨c, rfl⟩ := hstopped.of_stopped
      exact ⟨c, hstopped, p.mem_retired hr hx⟩
    · obtain ⟨x, hx, hstopped⟩ := hclose q hq
      obtain ⟨c, rfl⟩ := hstopped.of_stopped
      exact ⟨c, hstopped, p.mem_removed hr hx⟩

/-! ## What is handed over -/

/-- What is modified has precedence over what is added, and this over what was there. -/
theorem get?_process (hr : r.graph.Intact w) (id : String) : draft.graph.manager.get? id =
    if id ∈ draft.removed.manager.processes.names then none
    else (p.modified.graph.manager.get? id).or
      ((p.added.graph.manager.get? id).or (r.graph.manager.get? id)) := by
  rw [ProcessManager.get?, (p.merges hr).processes, NameMap.get?_eraseAll, NameMap.get?_override,
    NameMap.get?_override]
  rfl

/-- A running process that the diff mentions is managed no longer: what takes its place is new. -/
theorem not_managed_of_mentioned (hr : r.graph.Intact w) {id : String} {q : Ref .process}
    (hlive : r.graph.manager.get? id = some q) (hid : id ∈ diff.added.processIds ∨
      id ∈ diff.modified.processIds ∨ id ∈ diff.removed.processIds) :
    q ∉ draft.graph.manager.processes.values := by
  rw [NameMap.mem_values_iff]
  rintro ⟨id', hafter⟩
  -- a process goes by one id only
  have hsame := (p.intact hr).processNamed.processId hafter
  rw [(p.keyed hr).processId hlive] at hsame
  subst hsame
  have hafter : draft.graph.manager.get? id = some q := hafter
  rw [p.get?_process hr] at hafter
  obtain ⟨process, hprocess, -⟩ := hr.processNamed id q hlive
  have hold : w.processes.get? q ≠ none := by simp [hprocess]
  split at hafter
  · cases hafter
  · next hremoved =>
    rcases Option.or_eq_some_iff.mp hafter with hnew | ⟨hmodified, hafter⟩
    · exact hold (p.extends_added.noProcess (p.hmodified.progress.built.hired id q hnew))
    rcases Option.or_eq_some_iff.mp hafter with hnew | ⟨hadded, -⟩
    · exact hold (p.hadded.progress.built.hired id q hnew)
    rcases hid with hid | hid | hid
    · exact (NameMap.get?_eq_none_iff _).mp hadded ((p.hadded.processes id).mpr hid)
    · exact (NameMap.get?_eq_none_iff _).mp hmodified ((p.hmodified.processes id).mpr hid)
    · exact hremoved (p.mem_processes_removed.mpr
        ⟨hid, (NameMap.mem_names_iff _).mpr ⟨q, hlive⟩⟩)

/-- Any other is managed as before. -/
theorem get?_process_of_not_mentioned (hr : r.graph.Intact w) {id : String}
    (hadded : id ∉ diff.added.processIds) (hmodified : id ∉ diff.modified.processIds)
    (hremoved : id ∉ diff.removed.processIds) :
    draft.graph.manager.get? id = r.graph.manager.get? id := by
  have hnot_added : p.added.graph.manager.get? id = none :=
    (NameMap.get?_eq_none_iff _).mpr fun h => hadded ((p.hadded.processes id).mp h)
  have hnot_modified : p.modified.graph.manager.get? id = none :=
    (NameMap.get?_eq_none_iff _).mpr fun h => hmodified ((p.hmodified.processes id).mp h)
  rw [p.get?_process hr, if_neg fun h => hremoved (p.mem_processes_removed.mp h).1, hnot_modified,
    hnot_added, Option.none_or, Option.none_or]

/-- The running processes that a diff mentions are those that are managed no longer once it is
installed. -/
theorem mentioned_iff (hr : r.graph.Intact w) {q : Ref .process} :
    (∃ id, r.graph.manager.get? id = some q ∧ (id ∈ diff.added.processIds ∨
      id ∈ diff.modified.processIds ∨ id ∈ diff.removed.processIds)) ↔
    q ∈ r.graph.manager.processes.values ∧ q ∉ draft.graph.manager.processes.values := by
  constructor
  · rintro ⟨id, hlive, hid⟩
    exact ⟨(NameMap.mem_values_iff _).mpr ⟨id, hlive⟩, p.not_managed_of_mentioned hr hlive hid⟩
  · rintro ⟨hlive, hgone⟩
    obtain ⟨id, hlive⟩ := (NameMap.mem_values_iff _).mp hlive
    refine ⟨id, hlive, ?_⟩
    by_contra hnot
    simp only [not_or] at hnot
    refine hgone ((NameMap.mem_values_iff _).mpr ⟨id, ?_⟩)
    exact (p.get?_process_of_not_mentioned hr hnot.1 hnot.2.1 hnot.2.2).trans hlive

end Preparation

/-! ## What is stopped -/

/-- No connection that a graph holds or that these events deliver leads to where a process is
managed. -/
def Unshared (g : Graph) (w : World) (es : List Event) (w' : World) (q : Ref .process) : Prop :=
  ∀ c, .connection c ∈ g.resources w ∨ .connection c ∈ es.filterMap Event.delivers? →
    ¬w'.Disposes (.connection c) (.stopped q)

variable {env : Environment} {r : LocalRobot} {diff : Diff} {w w' : World}

/-- Once the new graph is installed no hand-over has failed, and those processes were stopped, once
each, that are managed no longer. -/
theorem stops_of_installed (hr : r.graph.Intact w) {draft : Draft} {u : World}
    {outcome : Except RobotError Unit}
    (hids : (diff.added.processIds ++ diff.modified.processIds ++ diff.removed.processIds).Nodup)
    (hprepare : r.prepare env diff w = .ok draft u)
    (hfinish : draft.finish env.host u = (outcome, w')) :
    ∃ es, w'.log = w.log ++ es ∧ (∀ id, outcome ≠ .error (.unexpectedProcessReplacement id)) ∧
      ∀ q, Unshared r.graph w es w' q → (es.filterMap Event.stops?).count q =
        if q ∈ r.graph.manager.processes.values ∧ q ∉ draft.graph.manager.processes.values
          then 1 else 0 := by
  obtain ⟨p⟩ := prepare_ok hr hprepare
  obtain ⟨hpair, -, hapart⟩ := List.nodup_append.mp hids
  obtain ⟨-, -, hadded⟩ := List.nodup_append.mp hpair
  obtain ⟨m, hover, hget⟩ := p.handOver_ok hr (fun id hid hid' => hadded id hid id hid' rfl)
    (fun id hid hid' => hapart id (List.mem_append_left _ hid) id hid' rfl)
    (fun id hid hid' => hapart id (List.mem_append_right _ hid) id hid' rfl)
  obtain ⟨hworld, herror⟩ := Draft.finish_of_ok hover
  rw [hfinish] at hworld herror
  have hworld : w' = ({ draft.removed with manager := m }.close env.host u).2 := hworld
  have hquiet : u.Quiet w' := hworld ▸ Graph.close_quiet env.host _ u
  have hm : m.Keyed u := fun id q hq => p.keyed hr id q ((hget id q).mp hq).1
  obtain ⟨qs, qs', hclosed, hothers⟩ := p.stoppings_closed hr hm
  obtain ⟨es, hes⟩ : w.log <+: w'.log := p.log.trans hquiet.logs.log
  have hstops : es.filterMap Event.stops? = qs ++ m.processes.values ++ qs' := by
    rw [← hworld, World.stoppings_append hes.symm] at hclosed
    exact List.append_cancel_left hclosed
  have hdelivers : es.filterMap Event.delivers? = (p.xs ++ p.ys).map Delivery.resource := by
    have hdelivered := World.delivered_of_deliveries (hquiet.logs.deliveries.trans p.deliveries)
    rw [World.delivered_append hes.symm] at hdelivered
    exact List.append_cancel_left hdelivered
  refine ⟨es, hes.symm, fun id hid => ?_, fun q hq => ?_⟩
  · cases herror _ hid
  -- what connections lead to is not among the others, so only the hand-over counts
  have hnot : ¬(q ∈ qs ∨ q ∈ qs') := by
    intro hmem
    obtain ⟨c, hstopped, hc⟩ := hothers q hmem
    exact hq c (hdelivers ▸ hc) (hquiet.disposes_iff.mpr hstopped)
  rw [not_or] at hnot
  have hhanded : q ∈ m.processes.values ↔
      q ∈ r.graph.manager.processes.values ∧ q ∉ draft.graph.manager.processes.values := by
    rw [← p.mentioned_iff hr, NameMap.mem_values_iff]
    exact exists_congr fun id => hget id q
  rw [hstops, List.count_append, List.count_append, List.count_eq_zero.mpr hnot.1,
    List.count_eq_zero.mpr hnot.2, hm.nodup_values.count, Nat.zero_add, Nat.add_zero]
  exact if_congr hhanded rfl rfl

/-- What is closed after a failure stops the processes of what was built, and leads to none that is
managed. -/
theorem stops_of_undone (hr : r.graph.Intact w) {zs : List Delivery} {es fs : List Event}
    (h : Undone env diff w zs es fs w') :
    (∀ q ∈ r.graph.manager.processes.values, Unshared r.graph w (es ++ fs) w' q →
      q ∉ (es ++ fs).filterMap Event.stops?) ∧
    ∀ g ∈ diff.staged env w, ∀ q ∈ g.manager.processes.values,
      q ∈ (es ++ fs).filterMap Event.stops? := by
  obtain ⟨u, hleft, hquiet⟩ := h.leftover
  rw [List.filterMap_append, h.stopped, List.nil_append]
  refine ⟨fun q hq hunshared hmem => ?_, fun g hg q hq => ?_⟩
  · obtain ⟨f, hf, hstops⟩ := List.mem_filterMap.mp hmem
    rw [Event.eq_stopped hstops] at hf
    obtain ⟨g, hg, ⟨p, hp, hsame⟩ | ⟨x, hx, hstopped⟩⟩ := h.disposes _ hf
    -- a process of what was built is none that was there before
    · cases hsame
      obtain ⟨id, hid⟩ := (NameMap.mem_values_iff _).mp hq
      obtain ⟨process, hprocess, -⟩ := hr.processNamed id q hid
      rw [hleft.hired g hg q hp] at hprocess
      cases hprocess
    · obtain ⟨c, rfl⟩ := hstopped.of_stopped
      exact hunshared c (Or.inr (h.mem_delivers hg hx)) hstopped
  · exact List.mem_filterMap.mpr ⟨_, (h.notes g hg).1 q hq, rfl⟩

/-- If no process is mentioned twice by a diff, no hand-over fails once the new graph is installed,
and of all processes just those were stopped, once each, that were managed before and are managed no
longer. If the reconfiguration fails, none is stopped that is managed, and all are that were started
for it. -/
theorem reconfigure_stops {r' : LocalRobot} {c : Config} {outcome : Except RobotError Unit}
    (hr : Reachable env r w)
    (hids : (diff.added.processIds ++ diff.modified.processIds ++ diff.removed.processIds).Nodup)
    (h : r.reconfigure env c diff w = (outcome, r', w')) :
    ∃ es, w'.log = w.log ++ es ∧
      (Installs outcome → (∀ id, outcome ≠ .error (.unexpectedProcessReplacement id)) ∧
        ∀ q, Unshared r.graph w es w' q → (es.filterMap Event.stops?).count q =
          if q ∈ r.graph.manager.processes.values ∧ q ∉ r'.graph.manager.processes.values
            then 1 else 0) ∧
      (¬Installs outcome →
        (∀ q ∈ r.graph.manager.processes.values, Unshared r.graph w es w' q →
          q ∉ es.filterMap Event.stops?) ∧
        ∀ g ∈ diff.staged env w, ∀ q ∈ g.manager.processes.values,
          q ∈ es.filterMap Event.stops?) := by
  have hintact := hr.intact
  rcases reconfigure_cases h with ⟨-, rfl, rfl, rfl⟩ | ⟨-, e, hprepare, rfl, rfl⟩ |
    ⟨-, draft, u, hprepare, rfl, hfinish⟩
  · refine ⟨[], (List.append_nil _).symm, fun _ => ⟨nofun, fun q _ => ?_⟩, fun hnot =>
      absurd installs_ok hnot⟩
    rw [if_neg fun hq => hq.2 hq.1]
    rfl
  · have he := (prepare_error hintact hprepare).1
    obtain ⟨zs, es, fs, hundone⟩ := undone_of_prepare hintact hprepare
    exact ⟨es ++ fs, hundone.log, fun hinstalls => absurd (hinstalls e rfl) he, fun _ =>
      stops_of_undone hintact hundone⟩
  · obtain ⟨p⟩ := prepare_ok hintact hprepare
    obtain ⟨es, hlog, hinstalled⟩ := stops_of_installed hintact hids hprepare hfinish
    refine ⟨es, hlog, fun _ => hinstalled, fun hnot => absurd (fun e he => ?_) hnot⟩
    exact (Draft.finish_spec env.host p.hselected.idle u).2 e (by rw [hfinish, he])

end LocalRobot

/-! ## A robot of processes -/

namespace Sample

/-- A host that lets no child go. -/
def clinging : Environment :=
  { environment with host := { host with release := fun _ _ => some "denied" } }

def staff (ids : List String) : List ProcessConfig := ids.map fun id => { id := id, name := "sh" }

def staffed : Config where
  processes := staff ["a", "b", "c"]

/-- One process makes place for an added one, one for a modified one, and one is removed. -/
def restaffing : Diff where
  added := { processes := staff ["a", "d"] }
  modified := { processes := staff ["b"] }
  removed := { processes := staff ["c"] }

def restaffed : Config where
  processes := staff ["a", "b", "d"]

theorem restaffed_log : ∃ r w e r' w', LocalRobot.start clinging staffed {} = .ok r w ∧
    r.reconfigure clinging restaffed restaffing w = (.error e, r', w') ∧ e.OfTeardown ∧
    r.graph.resources w = [] ∧ r.graph.manager.processes.values = [⟨0⟩, ⟨1⟩, ⟨2⟩] ∧
    r'.graph.manager.processes.values = [⟨3⟩, ⟨5⟩, ⟨4⟩] ∧
    w'.log = w.log ++ ([⟨3⟩, ⟨4⟩, ⟨5⟩, ⟨3⟩, ⟨4⟩, ⟨5⟩].map .started ++
      [⟨0⟩, ⟨1⟩, ⟨2⟩].map .stopped) := by
  obtain ⟨r, w, hstart, hrun⟩ := exists_start clinging staffed {}
    (P := fun r w =>
      let x := r.reconfigure clinging restaffed restaffing w
      (match x.1 with
      | .error (.close _) => true
      | _ => false) &&
        decide (r.graph.resources w = [] ∧ r.graph.manager.processes.values = [⟨0⟩, ⟨1⟩, ⟨2⟩] ∧
          x.2.1.graph.manager.processes.values = [⟨3⟩, ⟨5⟩, ⟨4⟩] ∧
          x.2.2.log = w.log ++ ([⟨3⟩, ⟨4⟩, ⟨5⟩, ⟨3⟩, ⟨4⟩, ⟨5⟩].map .started ++
            [⟨0⟩, ⟨1⟩, ⟨2⟩].map .stopped))) (by decide +kernel)
  rcases hmove : r.reconfigure clinging restaffed restaffing w with ⟨outcome, r', w'⟩
  simp only [hmove, Bool.and_eq_true, decide_eq_true_eq] at hrun
  obtain ⟨hclose, hrest⟩ := hrun
  split at hclose
  · exact ⟨r, w, _, r', w', hstart, hmove, trivial, hrest⟩
  · cases hclose

end Sample

namespace LocalRobot

/-- No child can be ended, and each of the processes that give way is asked to once. -/
theorem reconfigure_stops_sample : ∃ r w e r' w' es, Reachable Sample.clinging r w ∧
    r.reconfigure Sample.clinging Sample.restaffed Sample.restaffing w = (.error e, r', w') ∧
    w'.log = w.log ++ es ∧ r.graph.manager.processes.values = [⟨0⟩, ⟨1⟩, ⟨2⟩] ∧
    r'.graph.manager.processes.values = [⟨3⟩, ⟨5⟩, ⟨4⟩] ∧
    (∀ q, (es.filterMap Event.stops?).count q =
      if q ∈ [⟨0⟩, ⟨1⟩, ⟨2⟩] ∧ q ∉ [⟨3⟩, ⟨5⟩, ⟨4⟩] then 1 else 0) := by
  obtain ⟨r, w, e, r', w', hstart, hmove, he, hresources, hbefore, hafter, hlog⟩ :=
    Sample.restaffed_log
  obtain ⟨es, hes, hinstalled, -⟩ := reconfigure_stops (.start hstart) (by decide) hmove
  obtain ⟨-, hstops⟩ := hinstalled fun e' he' => by
    cases he'
    exact he
  refine ⟨r, w, e, r', w', es, .start hstart, hmove, hes, hbefore, hafter, fun q => ?_⟩
  rw [← hbefore, ← hafter]
  refine hstops q fun c hc => ?_
  -- there are no connections, neither before nor delivered
  rw [hes] at hlog
  rw [hresources, List.append_cancel_left hlog] at hc
  simp [Event.delivers?] at hc

end LocalRobot

end RobotHost
