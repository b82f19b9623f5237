import RobotHost.Proofs.Graph.Sharing
import RobotHost.Proofs.Graph.Teardown
import RobotHost.Proofs.Process.Restoring
import RobotHost.Simulated.Factory

/-!
# Replacing running parts

A graph that takes over the parts of another does so as a whole or not at all
(`Graph.mergeModify_atomic`). Two things can keep it from that: a sensor that would be replaced by
one of another capability, and a process that does not start in a manager that was started. Then
nothing stands behind any handle that did not before, no id stands for another process, and nothing
is closed.

Otherwise (`Graph.Replaced`) each handle under a key that both graphs have gets what the other graph
has there, and nothing else is touched. What was there before is closed once for each such key,
unless it is the same that comes. A driver is closed alone. A connection is closed with what the
robot at its other end closes in turn (`World.Beyond`).
-/

namespace RobotHost

namespace World

/-! ## What is closed further on -/

/-- What is closed or stopped further on when a resource is closed: nothing for a driver, and for a
connection what it leads to. -/
inductive Beyond (w : World) : Resource → Event → Prop
  | robot {r : Ref .robot} {g : Graph} {e : Event} (hr : w.robots.get? r = some g)
    (he : g.Disposes w e) : Beyond w (.connection (.robot r)) e
  | remote {r : Ref .remote} {remote : Remote} {e : Event} (hr : w.remotes.get? r = some remote)
    (he : w.Disposes (.connection remote.connection) e) : Beyond w (.connection (.remote r)) e

/-- The events by which a resource is closed: its own first, once, and then what is further on. -/
def ClosedBy (w : World) (x : Resource) (es : List Event) : Prop :=
  ∃ further, es = x.closing :: further ∧ ∀ e ∈ further, w.Beyond x e

variable {w w' : World} {x : Resource} {e : Event}

theorem Quiet.disposes_graph {g : Graph} (h : w.Quiet w') (he : g.Disposes w e) :
    g.Disposes w' e := by
  rcases he with hstopped | ⟨y, hy, he⟩
  · exact .inl hstopped
  · have hy' : y ∈ g.resources w' := by
      rw [g.resources_congr h.behind?_eq]
      exact hy
    exact .inr ⟨y, hy', h.disposes_iff.mpr he⟩

/-- What is further on stays the same while things are closed. -/
theorem Beyond.quiet (he : w.Beyond x e) (h : w.Quiet w') : w'.Beyond x e := by
  cases he with
  | robot hr he => exact .robot (h.robots ▸ hr) (h.disposes_graph he)
  | remote hr he => exact .remote (h.remotes ▸ hr) (h.disposes_iff.mpr he)

theorem ClosedBy.quiet {es : List Event} (hes : w.ClosedBy x es) (h : w.Quiet w') :
    w'.ClosedBy x es := by
  obtain ⟨further, hes, hfurther⟩ := hes
  exact ⟨further, hes, fun e he => (hfurther e he).quiet h⟩

/-- A connection is closed by a note of it and by what comes after the note. -/
theorem closedBy_of_note {c : Connection} {sort : Event → Prop}
    (hlogs : Logs sort (note (.hungUp c) w).2 w')
    (hsort : ∀ e, sort e → w'.Beyond (.connection c) e) :
    ∃ es, w'.log = w.log ++ es ∧ w'.ClosedBy (.connection c) es := by
  obtain ⟨further, hlog, hfurther⟩ := hlogs
  refine ⟨.hungUp c :: further, ?_, further, rfl, fun e he => hsort e (hfurther e he)⟩
  rw [hlog]
  exact List.append_assoc _ _ _

/-- A resource that is closed shows up in the log itself, before what is further on. -/
theorem closed_log (h : Host) (depth : Nat) (w : World) (x : Resource) :
    ∃ es, (w.closed (hangUpIn h (depth + 1)) x).log = w.log ++ es ∧
      (w.closed (hangUpIn h (depth + 1)) x).ClosedBy x es := by
  cases x with
  | driver d => exact ⟨[.closed d], rfl, [], rfl, by simp⟩
  -- to hang up is noted first, and then what the connection leads to is closed
  | connection c =>
    have hnote : w.Quiet (note (.hungUp c) w).2 := note_quiet rfl w
    have hnone : Logs (fun _ => False) (note (.hungUp c) w).2 (note (.hungUp c) w).2 := .refl _ _
    cases c with
    | robot r =>
      rw [closed, hangUpIn_robot]
      split
      · exact closedBy_of_note hnone fun _ he => he.elim
      · next g hg =>
        have hquiet := Graph.closeVia_quiet (hangUpIn_quiet h depth) h g
          (note (.hungUp (.robot r)) w).2
        refine closedBy_of_note (closeVia_logs (hangUpIn_quiet h depth) (hangUpIn_disposes h depth)
          h g _) fun e he => ?_
        exact .robot ((hnote.trans hquiet).robots ▸ hg) (hquiet.disposes_graph he)
    | remote r =>
      rw [closed, hangUpIn_remote]
      split
      · exact closedBy_of_note hnone fun _ he => he.elim
      · next remote hremote =>
        have hquiet := hangUpIn_quiet h depth remote.connection (note (.hungUp (.remote r)) w).2
        refine closedBy_of_note (hangUpIn_disposes h depth remote.connection _) fun e he => ?_
        exact .remote ((hnote.trans hquiet).remotes ▸ hremote) (hquiet.disposes_iff.mpr he)

/-- To close resources in turn adds a stretch to the log for each of them. -/
theorem retire_log (h : Host) (xs : List Resource) (w : World) :
    ∃ stretches, (retire h xs w).2.log = w.log ++ stretches.flatten ∧
      List.Forall₂ (retire h xs w).2.ClosedBy xs stretches := by
  induction xs generalizing w with
  | nil => exact ⟨[], (List.append_nil _).symm, .nil⟩
  | cons x rest ih =>
    have hstep : (retire h (x :: rest) w).2 =
        (retire h rest (w.closed (hangUpIn h w.depth) x)).2 := by
      cases x <;> rfl
    obtain ⟨es, hfirst, hes⟩ := closed_log h (w.remotes.size + w.robots.size) w x
    obtain ⟨stretches, hrest, hstretches⟩ := ih (w.closed (hangUpIn h w.depth) x)
    refine ⟨es :: stretches, ?_, ?_⟩
    · rw [hstep, hrest, List.flatten_cons, ← List.append_assoc, ← hfirst]
      rfl
    · rw [hstep]
      exact .cons (hes.quiet (retire_quiet h rest _)) hstretches

end World

namespace Graph

variable {g next : Graph}

/-! ## What keeps parts from being replaced -/

/-- A sensor of both graphs is of another capability in each. -/
def Mismatched (g next : Graph) : Prop :=
  ∃ name old new, g.sensors.get? name = some old ∧ next.sensors.get? name = some new ∧
    old.capability ≠ new.capability

/-- The search for a sensor of another capability finds one if there is one. -/
theorem sensorMismatch?_isSome_iff :
    (∃ e, g.sensorMismatch? next = some e) ↔ g.Mismatched next := by
  constructor
  · rintro ⟨e, he⟩
    obtain ⟨⟨name, new⟩, hnew, he⟩ := List.exists_of_findSome?_eq_some he
    obtain ⟨old, hold, he⟩ := Option.bind_eq_some_iff.mp he
    split at he
    · cases he
    · next hne => exact ⟨name, old, new, hold, (NameMap.get?_eq_some_iff _).mpr hnew, hne⟩
  · rintro ⟨name, old, new, hold, hnew, hne⟩
    -- without a mismatch the two sensors would fit each other
    cases hnone : g.sensorMismatch? next with
    | some e => exact ⟨e, rfl⟩
    | none =>
      have hmem : (⟨.driver .sensor, name, old, new⟩ : Exchange) ∈ g.exchanges next :=
        mem_exchanges.mpr ⟨hold, hnew⟩
      exact absurd (fits_of_sensorMismatch? hnone hmem) hne

/-- A replacement fails just for a sensor in the way or a process that does not start. -/
theorem mergeModify_error_iff {h : Host} {boards : NameMap BoardConfigDiff} {w : World} :
    (∃ e w', g.mergeModify h next boards w = .error e w') ↔
      g.Mismatched next ∨
        g.manager.started = true ∧ World.Stalls h next.manager.processes.values w := by
  rw [← sensorMismatch?_isSome_iff, ← ProcessManager.addAll_error_iff]
  constructor
  · rintro ⟨e, w', hmerge⟩
    rcases mergeModify_eq_error.mp hmerge with ⟨hmismatch, -⟩ | ⟨-, e', -, hadd⟩
    · exact .inl ⟨e, hmismatch⟩
    · exact .inr ⟨e', w', hadd⟩
  · intro hfails
    cases hmismatch : g.sensorMismatch? next with
    | some e => exact ⟨e, w, mergeModify_eq_error.mpr (.inl ⟨hmismatch, rfl⟩)⟩
    | none =>
      obtain ⟨e, w', hadd⟩ := hfails.resolve_left fun ⟨e, he⟩ => by rw [hmismatch] at he; cases he
      exact ⟨.process e, w', mergeModify_eq_error.mpr (.inr ⟨hmismatch, e, rfl, hadd⟩)⟩

/-! ## What is replaced -/

/-- There is one exchange under each key that both graphs have. -/
theorem nodup_exchanges (g next : Graph) : (g.exchanges next).Nodup := by
  refine List.pairwise_filterMap.mpr ((nodup_keysOf (by decide) next).imp ?_)
  rintro key key' hne x hx _ hx' rfl
  exact hne ((exchange?_eq_some_iff.mp hx).1.symm.trans (exchange?_eq_some_iff.mp hx').1)

/-- The resources that are taken out of a graph, in the order of the exchanges: under each key that
both graphs have what the graph has there, unless the other has the same. -/
def retired (g next : Graph) (w : World) : List Resource :=
  (g.exchanges next).filterMap (Exchange.retired? w)

/-- A graph has taken over the parts of another. -/
structure Replaced (h : Host) (g next : Graph) (w : World) (replaced : List (Ref .process))
    (g' : Graph) (w' : World) : Prop where
  /-- Names and handles stay. -/
  entries : ∀ k, g'.entries k = g.entries k
  /-- What the other graph has under a key of both comes behind the handle. -/
  shared : ∀ k name live new, (g.entries k).get? name = some live →
    (next.entries k).get? name = some new →
      ∃ x, w.behind? (k.slot new) = some x ∧ w'.behind? (k.slot live) = some x
  /-- The other handles of the graph are not touched. -/
  kept : ∀ k name live, (g.entries k).get? name = some live →
    (next.entries k).get? name = none → w'.behind? (k.slot live) = w.behind? (k.slot live)
  /-- The other handles that come with the other graph are passed over. -/
  ignored : ∀ k name new, (g.entries k).get? name = none →
    (next.entries k).get? name = some new →
      (g'.entries k).get? name = none ∧ w'.behind? (k.slot new) = w.behind? (k.slot new)
  /-- No other handle of the world is touched either. -/
  elsewhere : ∀ s, (∀ x ∈ g.exchanges next, s ≠ x.target) → w'.behind? s = w.behind? s
  functions : ∀ name, name ∈ g'.functions.names ↔
    name ∈ g.functions.names ∨ name ∈ next.functions.names
  processes : ∀ id, g'.manager.get? id = (next.manager.get? id).or (g.manager.get? id)
  /-- Once the processes are merged, each resource that is taken out is closed, in turn. -/
  closings : ∃ u stretches, g.manager.addAll h next.manager w = .ok (replaced, g'.manager) u ∧
    w.Launches u ∧ w'.log = u.log ++ stretches.flatten ∧
    List.Forall₂ w'.ClosedBy (g.retired next w) stretches

variable {h : Host} {g' : Graph} {w w' : World} {replaced : List (Ref .process)}

/-- The log of a replacement: the processes that start, and then a stretch for each resource that is
taken out. -/
theorem mergeModify_log {boards : NameMap BoardConfigDiff} (hg : g.Intact w)
    (hnext : next.Intact w) (haligned : g.Aligned next)
    (hmerge : g.mergeModify h next boards w = .ok (replaced, g') w') :
    ∃ u stretches, g.manager.addAll h next.manager w = .ok (replaced, g'.manager) u ∧
      w.Launches u ∧ w'.log = u.log ++ stretches.flatten ∧
      List.Forall₂ w'.ClosedBy (g.retired next w) stretches := by
  obtain ⟨hmismatch, m, u, hadd, rfl, rfl⟩ := mergeModify_eq_ok.mp hmerge
  have hstart := (ProcessManager.addAll_launches h g.manager next.manager).of_ok hadd
  obtain ⟨hretired, hexchanged⟩ := commitEach_swaps boards hg hnext haligned hmismatch hstart
  obtain ⟨stretches, hlog, hstretches⟩ := World.retire_log h
    (Swap.commitEach boards (g.swaps w next) u).1 (Swap.commitEach boards (g.swaps w next) u).2
  refine ⟨u, stretches, hadd, hstart, ?_, ?_⟩
  · rw [hlog, hexchanged.log]
  · rw [retired, ← hretired]
    exact hstretches

/-- A merge that succeeds has done all that a replacement is. -/
theorem mergeModify_replaced {boards : NameMap BoardConfigDiff} (hg : g.Intact w)
    (hnext : next.Intact w) (haligned : g.Aligned next)
    (hmerge : g.mergeModify h next boards w = .ok (replaced, g') w') :
    Replaced h g next w replaced g' w' := by
  have hm := mergeModify_ok hg hnext haligned hmerge
  refine ⟨hm.entries, ?_, ?_, ?_, fun s => hm.others, ?_, ?_,
    mergeModify_log hg hnext haligned hmerge⟩
  · intro k name live new hlive hnew
    obtain ⟨x, hx⟩ := hnext.known _ _ _ hnew
    have hmem : (⟨k, name, live, new⟩ : Exchange) ∈ g.exchanges next :=
      mem_exchanges.mpr ⟨hlive, hnew⟩
    exact ⟨x, hx, (hm.behind hmem).trans hx⟩
  · intro k name live hlive hnone
    refine hm.others fun x hx heq => ?_
    -- within the graph the handle has its slot for itself
    obtain ⟨hx, hy⟩ := mem_exchanges.mp hx
    obtain ⟨rfl, rfl⟩ := hg.apart _ _ _ _ _ _ hlive hx heq
    rw [hnone] at hy
    cases hy
  · intro k name new hnone hnew
    refine ⟨by rw [hm.entries, hnone], hm.others fun x hx heq => ?_⟩
    -- a handle of the graph in this slot would stand under the same key
    obtain ⟨hx, -⟩ := mem_exchanges.mp hx
    obtain ⟨hk, hname⟩ := haligned _ _ _ _ _ _ hx hnew heq.symm
    subst hk hname
    rw [hnone] at hx
    cases hx
  · intro name
    rw [hm.functions, NameMap.mem_names_override]
  · intro id
    rw [hm.manager]
    exact NameMap.get?_override _ _ _

/-- Between graphs that were put together by the operations on graphs, a replacement fails just for
a sensor in the way or a process that does not start. If it fails, no handle, id or connection was
touched, and nothing was closed. If it succeeds, the parts under the keys of both graphs were
replaced, each by itself, and nothing else was. -/
theorem mergeModify_atomic {env : Environment} {gs : List Graph} (boards : NameMap BoardConfigDiff)
    (hgs : Assembled env gs w) (hg : g ∈ gs) (hnext : next ∈ gs) :
    ((∃ e w', g.mergeModify env.host next boards w = .error e w') ↔
      g.Mismatched next ∨
        g.manager.started = true ∧ World.Stalls env.host next.manager.processes.values w) ∧
    (∀ e w', g.mergeModify env.host next boards w = .error e w' →
      w.Launches w' ∧ w'.closings = w.closings ∧
        (w' = w ∨ ∃ cause,
          g.manager.mergeInPlace env.host next.manager w = (.error cause, g.manager, w'))) ∧
    (∀ replaced g' w', g.mergeModify env.host next boards w = .ok (replaced, g') w' →
      Replaced env.host g next w replaced g' w') ∧
    (g.exchanges next).Nodup ∧
    ∀ x, x ∈ g.exchanges next ↔
      (g.entries x.kind).get? x.name = some x.live ∧
        (next.entries x.kind).get? x.name = some x.next := by
  have hcoherent := hgs.coherent
  refine ⟨mergeModify_error_iff, fun e w' hmerge => ?_, fun replaced g' w' hmerge => ?_,
    nodup_exchanges g next, fun x => mem_exchanges⟩
  · have hlaunches := (mergeModify_error hmerge).1
    refine ⟨hlaunches, hlaunches.closings, ?_⟩
    rcases mergeModify_eq_error.mp hmerge with ⟨-, rfl⟩ | ⟨-, cause, -, hadd⟩
    · exact .inl rfl
    · refine .inr ⟨cause, ?_⟩
      rw [ProcessManager.mergeInPlace_eq, hadd]
  · exact mergeModify_replaced (hcoherent.intact g hg) (hcoherent.intact next hnext)
      (hcoherent.aligned g hg next hnext) hmerge

namespace Sample

def environment : Environment :=
  Simulated.environment ⟨fun _ _ => .exited 0, fun _ _ => none, fun _ _ => none⟩ .empty

/-- A graph with a handle to the first of two stores. -/
def stores : Site :=
  stateAfter (Build.register (.part .provider) "store" ⟨0⟩
    ⟨{}, { drivers := ⟨[{ name := "old", device := .provider },
      { name := "new", device := .provider }]⟩ }⟩)

/-- Another graph, with a handle to the second store under the same name. -/
def restock : Site :=
  stateAfter (Build.register (.part .provider) "store" ⟨1⟩ ⟨{}, stores.world⟩)

theorem assembled : Assembled environment [restock.graph, stores.graph] restock.world :=
  .build (.new (.build (.new (.start fun s => by cases s <;> rfl)) (.register _ _ _)))
    (.register _ _ _)

end Sample

/-- The second store comes behind the handle to the first, which is closed. -/
theorem mergeModify_atomic_sample : ∃ replaced g' w',
    Sample.stores.graph.mergeModify Sample.environment.host Sample.restock.graph .empty
      Sample.restock.world = .ok (replaced, g') w' ∧
    w'.behind? (.proxy ⟨0⟩) = some (.driver ⟨1⟩) ∧ w'.closings = [.driver ⟨0⟩] := by
  obtain ⟨hfails, -, hreplaced, -, -⟩ := mergeModify_atomic .empty Sample.assembled
    (List.mem_cons_of_mem _ List.mem_cons_self) List.mem_cons_self
  cases hmerge : Sample.stores.graph.mergeModify Sample.environment.host Sample.restock.graph .empty
      Sample.restock.world with
  | error e w' =>
    -- there is no sensor, and the manager was not started
    rcases hfails.mp ⟨e, w', hmerge⟩ with ⟨name, old, new, hold, -⟩ | ⟨hstarted, -⟩
    · cases hold
    · cases hstarted
  | ok x w' =>
    obtain ⟨replaced, g'⟩ := x
    have hr := hreplaced replaced g' w' hmerge
    obtain ⟨x, hx, hbehind⟩ := hr.shared (.driver (.part .provider)) "store" ⟨0⟩ ⟨1⟩ rfl rfl
    cases hx
    refine ⟨replaced, g', w', rfl, hbehind, ?_⟩
    obtain ⟨u, stretches, -, hlaunches, hlog, hstretches⟩ := hr.closings
    have hretired : Sample.stores.graph.retired Sample.restock.graph Sample.restock.world =
        [.driver ⟨0⟩] := rfl
    rw [hretired] at hstretches
    cases hstretches with
    | cons hclosed hnil =>
      cases hnil
      obtain ⟨further, rfl, hfurther⟩ := hclosed
      -- nothing is closed beyond a driver
      obtain rfl : further = [] := by
        refine List.eq_nil_iff_forall_not_mem.mpr fun e he => ?_
        cases hfurther e he
      rw [World.closings_append hlog, hlaunches.closings]
      rfl

end Graph

end RobotHost
