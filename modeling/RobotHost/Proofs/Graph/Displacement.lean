import RobotHost.Proofs.Graph.Replacing
import RobotHost.Proofs.Process.Conservation

/-!
# Processes that are displaced

A merge reports the processes that others took the place of, so that they can be handed over to a
graph that is closed. But nothing keeps a process from taking its own place: a process that both
managers have under its id is reported and is still managed afterwards
(`ProcessManager.mem_reported_iff`). Copies and selections of a graph share its processes.

So what is handed over and stopped is no longer managed, but for the processes that both graphs had
(`Graph.merge_displaces_shared`). These are stopped although they are still managed
(`Graph.copy_stops_live_process`).
-/

namespace RobotHost

namespace ProcessManager

variable {h : Host} {m m' other : ProcessManager} {w u : World} {p : Ref .process}
  {replaced : List (Ref .process)}

/-- A process that may not replace another finds its id free. -/
theorem add_new {previous : Option (Ref .process)}
    (hadd : m.add h p false w = .ok (previous, m') u) : m.get? (w.processId p) = none := by
  rw [add_eq] at hadd
  split at hadd
  · cases hadd
  · next hfree => simpa [NameMap.contains, ProcessManager.get?] using hfree

/-- What a process was added to still has its own processes. -/
theorem mem_values_of_add {previous : Option (Ref .process)}
    (hadd : m.add h p false w = .ok (previous, m') u) {q : Ref .process} :
    q ∈ m'.processes.values ↔ q = p ∨ q ∈ m.processes.values := by
  have hnew := add_new hadd
  obtain ⟨-, rfl⟩ := add_ok hadd
  simp only [NameMap.mem_values_iff, NameMap.get?_insert]
  constructor
  · rintro ⟨id, hid⟩
    split at hid
    · exact .inl (Option.some.inj hid).symm
    · exact .inr ⟨id, hid⟩
  · rintro (rfl | ⟨id, hid⟩)
    · exact ⟨w.processId q, if_pos rfl⟩
    · refine ⟨id, ?_⟩
      rw [if_neg, hid]
      rintro rfl
      rw [ProcessManager.get?, hid] at hnew
      cases hnew

/-- A process that is reported and still managed is just one that both managers had. -/
theorem mem_reported_iff (hm : m.Keyed w) (hother : other.Keyed w)
    (hadd : m.addAll h other w = .ok (replaced, m') u) :
    p ∈ replaced ∧ p ∈ m'.processes.values ↔
      p ∈ m.processes.values ∧ p ∈ other.processes.values := by
  have hmerged := merged_of_ok hm hother hadd
  rw [hmerged.reported]
  simp only [shared, List.mem_filterMap, NameMap.mem_values_iff, NameMap.mem_names_iff]
  constructor
  · rintro ⟨⟨id, ⟨q, hq⟩, hp⟩, id', hafter⟩
    -- what stands under the id afterwards is what the other manager has there
    have hafter : m'.get? id' = some p := hafter
    rw [hmerged.entries] at hafter
    rcases Option.or_eq_some_iff.mp hafter with hp' | ⟨hnone, hp'⟩
    · exact ⟨⟨id, hp⟩, id', hp'⟩
    · have hid : id = id' := (hm.processId hp).symm.trans (hm.processId hp')
      subst hid
      rw [ProcessManager.get?, hq] at hnone
      cases hnone
  · rintro ⟨⟨id, hp⟩, id', hp'⟩
    have hid : id = id' := (hm.processId hp).symm.trans (hother.processId hp')
    subst hid
    refine ⟨⟨id, ⟨p, hp'⟩, hp⟩, id, ?_⟩
    have hafter := hmerged.entries id
    rw [ProcessManager.get?] at hafter
    rw [hafter, ProcessManager.get?, hp']
    rfl

end ProcessManager

namespace Graph

variable {h : Host} {g g' extra old : Graph} {w u v : World} {replaced ps : List (Ref .process)}
  {outcome : Except RobotError Unit}

/-! ## Handing over -/

/-- A graph was asked to take over processes. -/
structure Adopted (g : Graph) (ps : List (Ref .process)) (w : World)
    (outcome : Except RobotError Unit) (g' : Graph) (u : World) : Prop where
  graph : g' = { g with manager := g'.manager }
  world : w.Launches u
  kept : ∀ p ∈ g.manager.processes.values, p ∈ g'.manager.processes.values
  sources : ∀ p ∈ g'.manager.processes.values, p ∈ g.manager.processes.values ∨ p ∈ ps
  all : outcome = .ok () → ∀ p ∈ ps, p ∈ g'.manager.processes.values
  keyed : g.manager.Keyed w → (∀ p ∈ ps, ∃ q, w.processes.get? p = some q) →
    g'.manager.Keyed u

/-- A process that is not taken over ends the hand-over, with the graph as it is then. -/
theorem adopted_of_error (p : Ref .process) (rest : List (Ref .process)) (e : RobotError)
    (hw : w.Launches u) : Adopted g (p :: rest) w (.error e) g u where
  graph := rfl
  world := hw
  kept := fun _ hq => hq
  sources := fun _ hq => .inl hq
  all := nofun
  keyed := fun hg _ => hg.mono hw.processes

/-- The processes are taken over one after the other, until one is refused. -/
theorem adopt_adopted (hadopt : g.adopt h ps w = (outcome, g', u)) :
    Adopted g ps w outcome g' u := by
  induction ps generalizing g w with
  | nil =>
    cases hadopt
    exact ⟨rfl, .refl _, fun _ hq => hq, fun _ hq => .inl hq, by simp, fun hg _ => hg⟩
  | cons p rest ih =>
    have hlaunches := ProcessManager.add_launches h g.manager p false
    rw [adopt] at hadopt
    split at hadopt
    · next previous m v hadd =>
      have hfirst := hlaunches.of_ok hadd
      -- taken without replacing any other, so the manager has this one and all it had
      have hrest := ih hadopt
      refine ⟨hrest.graph, hfirst.trans hrest.world, fun q hq => ?_, fun q hq => ?_,
        fun hok q hq => ?_, fun hg hps => ?_⟩
      · exact hrest.kept q ((ProcessManager.mem_values_of_add hadd).mpr (.inr hq))
      · rcases hrest.sources q hq with hq | hq
        · rcases (ProcessManager.mem_values_of_add hadd).mp hq with rfl | hq
          · exact .inr List.mem_cons_self
          · exact .inl hq
        · exact .inr (List.mem_cons_of_mem _ hq)
      · rcases List.mem_cons.mp hq with rfl | hq
        · exact hrest.kept q ((ProcessManager.mem_values_of_add hadd).mpr (.inl rfl))
        · exact hrest.all hok q hq
      · obtain ⟨q, hq⟩ := hps p List.mem_cons_self
        exact hrest.keyed (hg.add hq hadd) fun r hr =>
          hfirst.known (hps r (List.mem_cons_of_mem _ hr))
    -- refused, for its id or because it does not start: the graph is as it was before this one
    · next hadd =>
      cases hadopt
      exact adopted_of_error p rest _ (hlaunches.of_error hadd)
    · next hadd =>
      cases hadopt
      exact adopted_of_error p rest _ (hlaunches.of_error hadd)

/-- Once the graph is closed, the processes it then had were stopped, and maybe others that its
connections lead to. -/
theorem Adopted.stoppings (ha : Adopted g ps w outcome g' u) (h : Host)
    (hg' : g'.manager.Keyed u) :
    ∃ qs, (g'.close h u).2.stoppings = w.stoppings ++ (g'.manager.processes.values ++ qs) ∧
      ∀ q ∈ qs, ∃ x ∈ g.resources w, w.Disposes x (.stopped q) := by
  obtain ⟨qs, hqs, hdisposes⟩ := close_stoppings h hg'
  have hlaunched : u.stoppings = w.stoppings :=
    (ha.world.plain.mono fun _ he => he.stops).stoppings
  refine ⟨qs, by rw [hqs, hlaunched, List.append_assoc], fun q hq => ?_⟩
  obtain ⟨x, hx, hstopped⟩ := hdisposes q hq
  rw [ha.graph] at hx
  have hx : x ∈ g.resources u := hx
  rw [g.resources_congr ha.world.behind?_eq] at hx
  exact ⟨x, hx, ha.world.disposes_iff.mp hstopped⟩

/-! ## Merges -/

/-- A graph has taken the processes of another and reports those that gave way. -/
inductive Absorbs (h : Host) (g extra : Graph) (w : World) (replaced : List (Ref .process))
    (g' : Graph) (u : World) : Prop
  | add (hmerge : g.mergeAdd h extra w = .ok (replaced, g') u)
  | modify (boards : NameMap BoardConfigDiff)
    (hmerge : g.mergeModify h extra boards w = .ok (replaced, g') u)

/-- Either kind of merge adds all processes of the other graph at once. -/
theorem Absorbs.addAll (hmerge : Absorbs h g extra w replaced g' u) :
    ∃ v, g.manager.addAll h extra.manager w = .ok (replaced, g'.manager) v := by
  cases hmerge with
  | add hmerge =>
    obtain ⟨⟨replaced', m⟩, v, hadd, hpure⟩ := bind_eq_ok.mp hmerge
    obtain ⟨hpair, rfl⟩ := pure_eq_ok.mp hpure
    cases hpair
    exact ⟨v, hadd⟩
  | modify boards hmerge =>
    obtain ⟨-, m, v, hadd, rfl, -⟩ := mergeModify_eq_ok.mp hmerge
    exact ⟨v, hadd⟩

/-- Whatever a merge exchanges, processes are kept. -/
theorem Absorbs.lasts (hmerge : Absorbs h g extra w replaced g' u) (hg : g.Intact w)
    (hextra : extra.Intact w) (haligned : g.Aligned extra) : w.Lasts u := by
  cases hmerge with
  | add hmerge => exact (mergeAdd_ok hextra.processNamed hmerge).world.extends.toRecalls.lasts
  | modify boards hmerge => exact (mergeModify_ok hg hextra haligned hmerge).lasts hg hextra

/-- What is reported was managed before, so it is there to be handed over at any later time. -/
theorem Absorbs.known (hmerge : Absorbs h g extra w replaced g' u) (hg : g.Intact w)
    (hextra : extra.Intact w) (haligned : g.Aligned extra) (hv : u.Lasts v) :
    ∀ p ∈ replaced, ∃ q, v.processes.get? p = some q := by
  intro p hp
  obtain ⟨_, hadd⟩ := hmerge.addAll
  rw [(ProcessManager.merged_of_ok hg.processNamed hextra.processNamed hadd).reported] at hp
  obtain ⟨id, -, hid⟩ := List.mem_filterMap.mp hp
  obtain ⟨q, hq, -⟩ := hg.processNamed id p hid
  obtain ⟨q', hq', -⟩ := ((hmerge.lasts hg hextra haligned).trans hv).processes p q hq
  exact ⟨q', hq'⟩

/-- These processes were stopped when a graph took over what the merge of two others had reported,
and was closed. -/
structure Displaced (g extra g' old : Graph) (v : World) (outcome : Except RobotError Unit)
    (stops : List (Ref .process)) : Prop where
  /-- One that is still managed by the merged graph was shared by the two, or it was stopped for
  another reason: the graph that is closed had it before, or connections lead to it. -/
  reasons : ∀ p ∈ g'.manager.processes.values, p ∈ stops →
    p ∈ g.manager.processes.values ∧ p ∈ extra.manager.processes.values ∨
      p ∈ old.manager.processes.values ∨ ∃ x ∈ old.resources v, v.Disposes x (.stopped p)
  /-- Those that the two shared were stopped, although they are still managed. -/
  shared : outcome = .ok () → ∀ p ∈ g.manager.processes.values,
    p ∈ extra.manager.processes.values → p ∈ g'.manager.processes.values ∧ p ∈ stops

/-- A manager reports a process that it still has just if the other has it too. So if a graph takes
over, at any later time, what a merge of graphs reported and is closed, the processes that are
stopped while the merged graph manages them are those that both graphs had. -/
theorem merge_displaces_shared {env : Environment} :
    (∀ ms w m other replaced m' u, ProcessManager.Assembled env.host ms w → m ∈ ms → other ∈ ms →
      m.addAll env.host other w = .ok (replaced, m') u →
        ∀ p, p ∈ replaced ∧ p ∈ m'.processes.values ↔
          p ∈ m.processes.values ∧ p ∈ other.processes.values) ∧
    ∀ gs w g extra replaced g' u, Assembled env gs w → g ∈ gs → extra ∈ gs →
      Absorbs env.host g extra w replaced g' u →
        ∀ olds v old outcome old' t, Assembled env olds v → old ∈ olds → u.Lasts v →
          old.adopt env.host replaced v = (outcome, old', t) →
            ∃ stops, (old'.close env.host t).2.stoppings = v.stoppings ++ stops ∧
              Displaced g extra g' old v outcome stops := by
  constructor
  · intro ms w m other replaced m' u hms hm hother hadd p
    exact ProcessManager.mem_reported_iff (hms.keyed m hm) (hms.keyed other hother) hadd
  · intro gs w g extra replaced g' u hgs hg hextra hmerge olds v old outcome old' t holds hold hv
      hadopt
    have hlive := hgs.coherent.intact g hg
    have hincoming := hgs.coherent.intact extra hextra
    obtain ⟨_, hadd⟩ := hmerge.addAll
    have hreported : ∀ p, p ∈ replaced ∧ p ∈ g'.manager.processes.values ↔
        p ∈ g.manager.processes.values ∧ p ∈ extra.manager.processes.values := fun p =>
      ProcessManager.mem_reported_iff hlive.processNamed hincoming.processNamed hadd
    have hadopted := adopt_adopted hadopt
    have hkeyed := hadopted.keyed (holds.coherent.intact old hold).processNamed
      (hmerge.known hlive hincoming (hgs.coherent.aligned g hg extra hextra) hv)
    obtain ⟨qs, hqs, hdisposes⟩ := hadopted.stoppings env.host hkeyed
    refine ⟨_, hqs, fun p hp hstopped => ?_, fun hok p hp hp' => ?_⟩
    -- it was managed by the old graph or stopped beyond its connections
    · rcases List.mem_append.mp hstopped with hmanaged | hbeyond
      · rcases hadopted.sources p hmanaged with hown | hgiven
        · exact .inr (.inl hown)
        · exact .inl ((hreported p).mp ⟨hgiven, hp⟩)
      · exact .inr (.inr (hdisposes p hbeyond))
    · obtain ⟨hgiven, hmanaged⟩ := (hreported p).mpr ⟨hp, hp'⟩
      exact ⟨hmanaged, List.mem_append_left _ (hadopted.all hok p hgiven)⟩

namespace Sample

/-- A graph that manages a service. -/
def attended : Graph := { manager := ProcessManager.Sample.resting }

theorem attended_assembled :
    Assembled environment [attended, attended, {}] ProcessManager.Sample.services := by
  have hempty : Assembled environment [{}, {}] ProcessManager.Sample.services :=
    .new (.new (.start fun s => by cases s <;> rfl))
  have hattended : Assembled environment [attended, {}] ProcessManager.Sample.services :=
    hempty.build (.process (p := ⟨0⟩) rfl false)
  exact .subset hattended (by simp)

/-- The graph is merged with a copy of itself. What the merge reports is handed over to an empty
graph, which is closed. -/
theorem attended_merged : ∃ g' u old' t,
    attended.mergeAdd environment.host attended ProcessManager.Sample.services =
      .ok ([⟨0⟩], g') u ∧
    ⟨0⟩ ∈ g'.manager.processes.values ∧
    ({} : Graph).adopt environment.host [⟨0⟩] u = (.ok (), old', t) ∧ t.stoppings = [] ∧
    (old'.close environment.host t).2.stoppings = [⟨0⟩] :=
  ⟨_, _, _, _, rfl, List.mem_cons_self, rfl, rfl, rfl⟩

end Sample

/-- A graph is merged with its copy, and what is reported is stopped by a third. -/
theorem merge_displaces_shared_sample : ∃ replaced g' u old' t stops,
    Absorbs Sample.environment.host Sample.attended Sample.attended
      ProcessManager.Sample.services replaced g' u ∧
    ({} : Graph).adopt Sample.environment.host replaced u = (.ok (), old', t) ∧
    (old'.close Sample.environment.host t).2.stoppings = u.stoppings ++ stops ∧
    ⟨0⟩ ∈ g'.manager.processes.values ∧ ⟨0⟩ ∈ stops := by
  obtain ⟨g', u, old', t, hmerge, -, hadopt, -, -⟩ := Sample.attended_merged
  have hassembled := Sample.attended_assembled
  have hlater := hassembled.mergeAdd List.mem_cons_self hmerge
  obtain ⟨stops, hstops, hdisplaced⟩ := merge_displaces_shared.2 _ _ _ _ _ _ _ hassembled
    List.mem_cons_self List.mem_cons_self (.add hmerge) _ _ _ _ _ _ hlater (by simp) (.refl u)
    hadopt
  obtain ⟨hmanaged, hstopped⟩ := hdisplaced.shared rfl ⟨0⟩ List.mem_cons_self List.mem_cons_self
  exact ⟨_, g', u, old', t, stops, .add hmerge, hadopt, hstops, hmanaged, hstopped⟩

/-- A process is reported and stopped that is still managed by the graph that reported it. -/
theorem copy_stops_live_process : ∃ replaced g' u old' t,
    Assembled Sample.environment [Sample.attended, Sample.attended, {}]
      ProcessManager.Sample.services ∧
    Sample.attended.mergeAdd Sample.environment.host Sample.attended
      ProcessManager.Sample.services = .ok (replaced, g') u ∧
    ({} : Graph).adopt Sample.environment.host replaced u = (.ok (), old', t) ∧
    ⟨0⟩ ∈ replaced ∧ ⟨0⟩ ∈ g'.manager.processes.values ∧ ⟨0⟩ ∉ t.stoppings ∧
    ⟨0⟩ ∈ (old'.close Sample.environment.host t).2.stoppings := by
  obtain ⟨g', u, old', t, hmerge, hmanaged, hadopt, hbefore, hafter⟩ := Sample.attended_merged
  refine ⟨_, g', u, old', t, Sample.attended_assembled, hmerge, hadopt, List.mem_cons_self, hmanaged,
    ?_, ?_⟩
  · rw [hbefore]
    exact List.not_mem_nil
  · rw [hafter]
    exact List.mem_cons_self

end Graph

end RobotHost
