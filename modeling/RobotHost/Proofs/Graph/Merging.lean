import RobotHost.Proofs.Graph.Building
import RobotHost.Proofs.Graph.Swapping

/-!
# What merging comes to

A merge that succeeds is described step by step: what the entries, functions and processes are once
another graph was added (`Graph.Added`), what stands behind which handle once parts were exchanged
(`Graph.Modified`), and what is left once parts were taken out (`Graph.get?_mergeRemove`). Each step
keeps a graph intact, as long as the graphs that are merged have handles in common only under the
same keys (`Graph.Aligned`), or none at all (`Graph.Apart`).

A merge that fails has started processes and done no more.
-/

namespace RobotHost

namespace Graph

/-- No handle of one graph has the slot of a handle of the other. -/
def Apart (g other : Graph) : Prop :=
  ∀ k name h k' name' h', (g.entries k).get? name = some h →
    (other.entries k').get? name' = some h' → k.slot h ≠ k'.slot h'

/-- A handle of one graph has the slot of a handle of the other only under the same key. -/
def Aligned (g other : Graph) : Prop :=
  ∀ k name h k' name' h', (g.entries k).get? name = some h →
    (other.entries k').get? name' = some h' → k.slot h = k'.slot h' → k = k' ∧ name = name'

theorem Apart.aligned {g other : Graph} (h : g.Apart other) : g.Aligned other :=
  fun k name x k' name' x' hx hx' heq => absurd heq (h k name x k' name' x' hx hx')

/-! ## Exchanges -/

/-- The exchange under a key, if both graphs have it. -/
def exchange? (live next : Graph) (key : Kind × String) : Option Exchange :=
  match (live.entries key.1).get? key.2, (next.entries key.1).get? key.2 with
  | some h, some h' => some ⟨key.1, key.2, h, h'⟩
  | _, _ => none

/-- All exchanges between two graphs, in the order in which they are done. -/
def exchanges (live next : Graph) : List Exchange :=
  (keysOf Kind.listed next).filterMap (exchange? live next)

/-- There is an exchange under each key that both graphs have. -/
theorem exchange?_eq_some_iff {live next : Graph} {key : Kind × String} {x : Exchange} :
    exchange? live next key = some x ↔ (x.kind, x.name) = key ∧
      (live.entries x.kind).get? x.name = some x.live ∧
        (next.entries x.kind).get? x.name = some x.next := by
  obtain ⟨k, name⟩ := key
  unfold exchange?
  constructor
  · intro h
    split at h
    · next hlive hnext =>
      cases h
      exact ⟨rfl, hlive, hnext⟩
    · cases h
  · rintro ⟨hkey, hlive, hnext⟩
    cases hkey
    rw [hlive, hnext]

/-- An exchange is told by a part of each graph, under one key. -/
theorem mem_exchanges {live next : Graph} {x : Exchange} :
    x ∈ live.exchanges next ↔ (live.entries x.kind).get? x.name = some x.live ∧
      (next.entries x.kind).get? x.name = some x.next := by
  simp only [exchanges, List.mem_filterMap, exchange?_eq_some_iff]
  constructor
  · rintro ⟨_, -, -, h⟩
    exact h
  · intro h
    exact ⟨(x.kind, x.name), mem_keysOf.mpr ⟨Kind.mem_listed _, x.next, h.2⟩, rfl, h⟩

/-- The swaps of a merge are planned for the exchanges. -/
theorem swaps_eq (w : World) (live next : Graph) :
    live.swaps w next = (live.exchanges next).filterMap (Exchange.plan? w) := by
  simp only [swaps, exchanges, keysOf, NameMap.names, List.filterMap_flatMap,
    List.map_map, List.filterMap_map, List.filterMap_filterMap]
  -- both go through the entries of the new graph, kind by kind
  congr 1
  funext k
  refine List.filterMap_congr fun e he => ?_
  have hget : (next.entries k).get? e.1 = some e.2 := (NameMap.get?_eq_some_iff _).mpr he
  show ((live.entries k).get? e.1).bind _ = (exchange? live next (k, e.1)).bind _
  unfold exchange?
  rw [hget]
  cases (live.entries k).get? e.1 <;> rfl

/-- If no sensor is in the way, all exchanges fit. -/
theorem fits_of_sensorMismatch? {live next : Graph} (h : live.sensorMismatch? next = none)
    {x : Exchange} (hx : x ∈ live.exchanges next) : x.Fits := by
  obtain ⟨hlive, hnext⟩ := mem_exchanges.mp hx
  obtain ⟨k, name, old, new⟩ := x
  match k with
  | .remote | .driver .board | .driver (.part _) => exact trivial
  | .driver .sensor =>
    have hmem : (name, new) ∈ next.sensors.entries := (NameMap.get?_eq_some_iff _).mp hnext
    have hnone := List.findSome?_eq_none_iff.mp h (name, new) hmem
    have hold : live.sensors.get? name = some old := hlive
    simp only [hold, Option.bind_eq_bind, Option.bind_some] at hnone
    show old.capability = new.capability
    by_contra hne
    rw [if_neg hne] at hnone
    cases hnone

/-- Aligned graphs can be exchanged part by part, as no exchange writes where another reads. -/
theorem exchangeable {w₀ w : World} {live next : Graph} (hlive : live.Intact w)
    (hnext : next.Intact w) (haligned : live.Aligned next)
    (hsame : ∀ s, w.behind? s = w₀.behind? s) (hfits : ∀ x ∈ live.exchanges next, x.Fits) :
    Exchangeable w₀ w (live.exchanges next) where
  distinct := by
    refine List.pairwise_filterMap.mpr ((nodup_keysOf (by decide) next).imp ?_)
    intro key key' hne x hx y hy heq
    obtain ⟨rfl, hx, -⟩ := exchange?_eq_some_iff.mp hx
    obtain ⟨rfl, hy, -⟩ := exchange?_eq_some_iff.mp hy
    obtain ⟨hk, hname⟩ := hlive.apart _ _ _ _ _ _ hx hy heq
    exact hne (by rw [hk, hname])
  apart := by
    -- two exchanges that meet in a slot are under one key, and there is one under each
    intro x hx y hy heq
    obtain ⟨hk, hname⟩ := haligned _ _ _ _ _ _ (mem_exchanges.mp hx).1 (mem_exchanges.mp hy).2 heq
    have hx' := exchange?_eq_some_iff.mpr ⟨rfl, mem_exchanges.mp hx⟩
    have hy' := exchange?_eq_some_iff.mpr ⟨rfl, mem_exchanges.mp hy⟩
    rw [hk, hname, hy'] at hx'
    exact (Option.some.inj hx').symm
  fits := hfits
  targets := fun x hx => hlive.known _ _ _ (mem_exchanges.mp hx).1
  sources := by
    intro x hx
    obtain ⟨new, hnew⟩ := hnext.known _ _ _ (mem_exchanges.mp hx).2
    exact ⟨new, hnew, (hsame _).symm.trans hnew⟩

/-! ## Parts that are added -/

/-- What comes of adding all of another graph. -/
structure Added (g extra : Graph) (w : World) (replaced : List (Ref .process)) (g' : Graph)
    (w' : World) : Prop where
  world : w.Launches w'
  entries : ∀ k, g'.entries k = (g.entries k).override (extra.entries k)
  functions : g'.functions = g.functions.override extra.functions
  manager : g'.manager =
    { g.manager with processes := g.manager.processes.override extra.manager.processes }
  replaced : replaced =
    extra.manager.processes.entries.filterMap fun e => g.manager.get? e.1

/-- A merge that succeeds has added all of the other graph. -/
theorem mergeAdd_ok {h : Host} {g extra g' : Graph} {w w' : World} {replaced : List (Ref .process)}
    (hextra : extra.manager.Keyed w) (hmerge : g.mergeAdd h extra w = .ok (replaced, g') w') :
    Added g extra w replaced g' w' := by
  obtain ⟨⟨replaced', m⟩, u, hadd, hpure⟩ := bind_eq_ok.mp hmerge
  obtain ⟨hpair, rfl⟩ := pure_eq_ok.mp hpure
  cases hpair
  obtain ⟨hm, hreplaced⟩ := ProcessManager.addAll_ok hextra hadd
  have hstart := (ProcessManager.addAll_launches h g.manager extra.manager).of_ok hadd
  refine ⟨hstart, fun k => ?_, rfl, hm, hreplaced⟩
  exact (entries_with _ _ _ k).trans (entries_withEntries g _ k)

/-- A merge that fails has started processes at most. -/
theorem mergeAdd_error {h : Host} {g extra : Graph} {w w' : World} {e : ProcessError}
    (hmerge : g.mergeAdd h extra w = .error e w') : w.Launches w' := by
  rcases bind_eq_error.mp hmerge with hadd | ⟨_, _, -, hpure⟩
  · exact (ProcessManager.addAll_launches h g.manager extra.manager).of_error hadd
  · cases hpure

/-- An entry of the new graph is one of the graph that was added, or else one of before. -/
theorem Added.get? {g extra g' : Graph} {w w' : World} {replaced : List (Ref .process)}
    (h : Added g extra w replaced g' w') (k : Kind) (name : String) :
    (g'.entries k).get? name = ((extra.entries k).get? name).or ((g.entries k).get? name) := by
  rw [h.entries, NameMap.get?_override]

/-- A part of the merged graph is one of the added graph, or else of the old one. -/
theorem Added.get?_cases {g extra g' : Graph} {w w' : World} {replaced : List (Ref .process)}
    (h : Added g extra w replaced g' w') {k : Kind} {name : String} {x : k.Handle}
    (hx : (g'.entries k).get? name = some x) :
    (extra.entries k).get? name = some x ∨
      (extra.entries k).get? name = none ∧ (g.entries k).get? name = some x := by
  rw [h.get?] at hx
  cases he : (extra.entries k).get? name with
  | some y =>
    rw [he, Option.some_or] at hx
    exact Or.inl hx
  | none =>
    rw [he, Option.none_or] at hx
    exact Or.inr ⟨rfl, hx⟩

/-- Two intact graphs that are aligned are intact as one. -/
theorem Added.intact {g extra g' : Graph} {w w' : World} {replaced : List (Ref .process)}
    (h : Added g extra w replaced g' w') (hg : g.Intact w) (hextra : extra.Intact w)
    (haligned : g.Aligned extra) : g'.Intact w' := by
  have hintact : g'.Intact w := by
    refine ⟨?_, ?_, ?_, ?_⟩
    · intro k name x hx
      rcases h.get?_cases hx with hx | ⟨-, hx⟩
      · exact hextra.known k name x hx
      · exact hg.known k name x hx
    · intro k name x k' name' y hx hy heq
      -- two entries are from one graph, which is intact, or from two, which are aligned
      rcases h.get?_cases hx with hx | ⟨-, hx⟩ <;> rcases h.get?_cases hy with hy | ⟨-, hy⟩
      · exact hextra.apart _ _ _ _ _ _ hx hy heq
      · obtain ⟨hk, hname⟩ := haligned _ _ _ _ _ _ hy hx heq.symm
        exact ⟨hk.symm, hname.symm⟩
      · exact haligned _ _ _ _ _ _ hx hy heq
      · exact hg.apart _ _ _ _ _ _ hx hy heq
    · intro k name x remote hx hr
      rcases h.get?_cases hx with hx | ⟨-, hx⟩
      · exact hextra.remoteNamed k name x remote hx hr
      · exact hg.remoteNamed k name x remote hx hr
    · rw [h.manager]
      exact hg.processNamed.override hextra.processNamed
  exact hintact.recalls h.world.extends.toRecalls

/-! ## Parts that are exchanged -/

/-- What comes of putting the parts of another graph behind the handles of this one: the exchanges
are done, and then what was there before is closed. -/
structure Modified (h : Host) (g next : Graph) (w : World) (replaced : List (Ref .process))
    (g' : Graph) (w' : World) : Prop where
  entries : ∀ k, g'.entries k = g.entries k
  functions : g'.functions = g.functions.override next.functions
  manager : g'.manager =
    { g.manager with processes := g.manager.processes.override next.manager.processes }
  replaced : replaced =
    next.manager.processes.entries.filterMap fun e => g.manager.get? e.1
  world : ∃ w₁ w₂, w.Launches w₁ ∧ Exchanged (g.exchanges next) w₁ w₂ ∧
    w' = (World.retire h ((g.exchanges next).filterMap (Exchange.retired? w)) w₂).2

/-- To replace parts is to start the processes, to carry out the swaps and to close what they take
out. -/
theorem mergeModify_eq_ok {h : Host} {g next g' : Graph} {boards : NameMap BoardConfigDiff}
    {w w' : World} {replaced : List (Ref .process)} :
    g.mergeModify h next boards w = .ok (replaced, g') w' ↔ g.sensorMismatch? next = none ∧
      ∃ m u, g.manager.addAll h next.manager w = .ok (replaced, m) u ∧
        g' = { g with functions := g.functions.override next.functions, manager := m } ∧
        w' = (World.retire h (Swap.commitEach boards (g.swaps w next) u).1
          (Swap.commitEach boards (g.swaps w next) u).2).2 := by
  unfold mergeModify
  cases g.sensorMismatch? next with
  | some e => simp
  | none =>
    cases g.manager.addAll h next.manager w with
    | error e u => simp
    | ok x u =>
      obtain ⟨_, m⟩ := x
      constructor
      · intro hmerge
        cases hmerge
        exact ⟨rfl, m, u, rfl, rfl, rfl⟩
      · rintro ⟨-, _, _, hadd, rfl, rfl⟩
        cases hadd
        rfl

/-- Only a sensor in the way or a process can keep parts from being replaced. -/
theorem mergeModify_eq_error {h : Host} {g next : Graph} {boards : NameMap BoardConfigDiff}
    {w w' : World} {e : RobotError} :
    g.mergeModify h next boards w = .error e w' ↔ g.sensorMismatch? next = some e ∧ w' = w ∨
      g.sensorMismatch? next = none ∧
        ∃ e', e = .process e' ∧ g.manager.addAll h next.manager w = .error e' w' := by
  unfold mergeModify
  cases g.sensorMismatch? next with
  | some e => simp [eq_comm]
  | none =>
    cases g.manager.addAll h next.manager w with
    | error e' u =>
      simp only [EStateM.Result.error.injEq, true_and, reduceCtorEq, false_and, false_or]
      constructor
      · rintro ⟨rfl, rfl⟩
        exact ⟨e', rfl, rfl, rfl⟩
      · rintro ⟨_, rfl, rfl, rfl⟩
        exact ⟨rfl, rfl⟩
    | ok x u =>
      constructor
      · intro hmerge
        cases hmerge
      · rintro (⟨hsome, -⟩ | ⟨-, _, -, hadd⟩)
        · cases hsome
        · cases hadd

/-- The swaps that were planned before the processes were started do the exchanges after it. -/
theorem commitEach_swaps {live next : Graph} {w u : World} (boards : NameMap BoardConfigDiff)
    (hlive : live.Intact w) (hnext : next.Intact w) (haligned : live.Aligned next)
    (hmismatch : live.sensorMismatch? next = none) (hstart : w.Launches u) :
    (Swap.commitEach boards (live.swaps w next) u).1 =
        (live.exchanges next).filterMap (Exchange.retired? w) ∧
      Exchanged (live.exchanges next) u (Swap.commitEach boards (live.swaps w next) u).2 := by
  obtain ⟨hretired, hexchanged⟩ := Swap.commitEach_spec boards
    (exchangeable (hlive.recalls hstart.extends.toRecalls) (hnext.recalls hstart.extends.toRecalls)
      haligned hstart.behind?_eq fun x => fits_of_sensorMismatch? hmismatch)
  -- to start processes moves nothing behind handles
  have hsame : (live.exchanges next).filterMap (Exchange.retired? u) =
      (live.exchanges next).filterMap (Exchange.retired? w) := by
    refine List.filterMap_congr fun x _ => ?_
    rw [Exchange.retired?, Exchange.retired?, hstart.behind?_eq, hstart.behind?_eq]
  rw [swaps_eq, ← hsame]
  exact ⟨hretired, hexchanged⟩

/-- A merge that succeeds has exchanged the parts that both graphs have. -/
theorem mergeModify_ok {h : Host} {g next g' : Graph} {boards : NameMap BoardConfigDiff}
    {w w' : World} {replaced : List (Ref .process)} (hg : g.Intact w) (hnext : next.Intact w)
    (haligned : g.Aligned next) (hmerge : g.mergeModify h next boards w = .ok (replaced, g') w') :
    Modified h g next w replaced g' w' := by
  obtain ⟨hmismatch, m, u, hadd, rfl, rfl⟩ := mergeModify_eq_ok.mp hmerge
  have hstart := (ProcessManager.addAll_launches h g.manager next.manager).of_ok hadd
  obtain ⟨hm, hreplaced⟩ := ProcessManager.addAll_ok hnext.processNamed hadd
  obtain ⟨hretired, hexchanged⟩ := commitEach_swaps boards hg hnext haligned hmismatch hstart
  exact ⟨entries_with g _ m, rfl, hm, hreplaced, u, _, hstart, hexchanged, by rw [← hretired]⟩

/-- A sensor in the way is all that `sensorMismatch?` reports. -/
theorem not_ofTeardown_of_sensorMismatch? {live next : Graph} {e : RobotError}
    (h : live.sensorMismatch? next = some e) : ¬e.OfTeardown := by
  obtain ⟨⟨name, new⟩, -, he⟩ := List.exists_of_findSome?_eq_some h
  obtain ⟨old, -, he⟩ := Option.bind_eq_some_iff.mp he
  split at he
  · cases he
  · cases he
    exact id

/-- A merge that fails has exchanged nothing, and its error is none of closing. -/
theorem mergeModify_error {h : Host} {g next : Graph} {boards : NameMap BoardConfigDiff}
    {w w' : World} {e : RobotError} (hmerge : g.mergeModify h next boards w = .error e w') :
    w.Launches w' ∧ ¬e.OfTeardown := by
  rcases mergeModify_eq_error.mp hmerge with ⟨hmismatch, rfl⟩ | ⟨-, e', rfl, hadd⟩
  · exact ⟨.refl _, not_ofTeardown_of_sensorMismatch? hmismatch⟩
  · exact ⟨(ProcessManager.addAll_launches h g.manager next.manager).of_error hadd, id⟩

section Modified

variable {h : Host} {g next g' : Graph} {w w' : World} {replaced : List (Ref .process)}

/-- Where a part was exchanged, the handle stands for what the new part stood for. -/
theorem Modified.behind (hm : Modified h g next w replaced g' w') {x : Exchange}
    (hx : x ∈ g.exchanges next) : w'.behind? x.target = w.behind? x.source := by
  obtain ⟨w₁, w₂, hstart, hexchanged, rfl⟩ := hm.world
  rw [(World.retire_quiet h _ w₂).behind?_eq, hexchanged.behind x hx, hstart.behind?_eq]

/-- All other handles stand for what they stood for. -/
theorem Modified.others (hm : Modified h g next w replaced g' w') {s : Slot}
    (hs : ∀ x ∈ g.exchanges next, s ≠ x.target) : w'.behind? s = w.behind? s := by
  obtain ⟨w₁, w₂, hstart, hexchanged, rfl⟩ := hm.world
  rw [(World.retire_quiet h _ w₂).behind?_eq, hexchanged.others s hs, hstart.behind?_eq]

/-- Nothing is lost, and handles that are not exchanged are left alone. -/
theorem Modified.recalls (hm : Modified h g next w replaced g' w') {w₀ : World} (hw : w₀.Recalls w)
    (hsafe : ∀ x ∈ g.exchanges next, w₀.behind? x.target = none) : w₀.Recalls w' := by
  obtain ⟨w₁, w₂, hstart, hexchanged, rfl⟩ := hm.world
  exact (hexchanged.recalls (hw.trans hstart.extends.toRecalls) hsafe).trans
    (World.retire_quiet h _ w₂).extends.toRecalls

theorem Modified.drivers (hm : Modified h g next w replaced g' w') :
    w'.drivers.size = w.drivers.size := by
  obtain ⟨w₁, w₂, hstart, hexchanged, rfl⟩ := hm.world
  rw [(World.retire_quiet h _ w₂).drivers, hexchanged.drivers, hstart.drivers]

theorem Modified.logs (hm : Modified h g next w replaced g' w') :
    World.Logs (fun e => e.delivers? = none) w w' := by
  obtain ⟨w₁, w₂, hstart, hexchanged, rfl⟩ := hm.world
  exact (hstart.logs.trans (.of_log_eq hexchanged.log)).trans (World.retire_quiet h _ w₂).logs

theorem Modified.keyed (hm : Modified h g next w replaced g' w') {m : ProcessManager}
    (hkeyed : m.Keyed w) : m.Keyed w' := by
  obtain ⟨w₁, w₂, hstart, hexchanged, rfl⟩ := hm.world
  have hkeyed₁ := hkeyed.recalls hstart.extends.toRecalls
  have hkeyed₂ : m.Keyed w₂ := by
    intro id p hp
    rw [hexchanged.processes]
    exact hkeyed₁ id p hp
  exact hkeyed₂.recalls (World.retire_quiet h _ w₂).extends.toRecalls

/-- The graph stays intact when others come behind its handles that are called the same. -/
theorem Modified.intact (hm : Modified h g next w replaced g' w') (hg : g.Intact w)
    (hnext : next.Intact w) : g'.Intact w' := by
  -- behind each handle is what one of the two graphs had under the same name
  have hbehind : ∀ k name x, (g'.entries k).get? name = some x →
      ∃ (source : Graph) (y : k.Handle), source.Intact w ∧
        (source.entries k).get? name = some y ∧ w'.behind? (k.slot x) = w.behind? (k.slot y) := by
    intro k name x hx
    rw [hm.entries] at hx
    cases hy : (next.entries k).get? name with
    | some y =>
      exact ⟨next, y, hnext, hy, hm.behind (x := ⟨k, name, x, y⟩) (mem_exchanges.mpr ⟨hx, hy⟩)⟩
    | none =>
      refine ⟨g, x, hg, hx, hm.others fun z hz heq => ?_⟩
      obtain ⟨hlive, hnextz⟩ := mem_exchanges.mp hz
      obtain ⟨rfl, rfl⟩ := hg.apart _ _ _ _ _ _ hx hlive heq
      rw [hy] at hnextz
      cases hnextz
  refine ⟨?_, ?_, ?_, ?_⟩
  · intro k name x hx
    obtain ⟨source, y, hsource, hy, heq⟩ := hbehind k name x hx
    rw [heq]
    exact hsource.known k name y hy
  · intro k name x k' name' y hx hy
    rw [hm.entries] at hx hy
    exact hg.apart k name x k' name' y hx hy
  · intro k name x remote hx hr
    obtain ⟨source, y, hsource, hy, heq⟩ := hbehind k name x hx
    rw [heq] at hr
    exact hsource.remoteNamed k name y remote hy hr
  · rw [hm.manager]
    exact hm.keyed (hg.processNamed.override hnext.processNamed)

end Modified

/-! ## Parts that are removed -/

/-- To remove a graph from another takes its keys away and no others. -/
theorem mem_keys_mergeRemove {g old : Graph} {key : Kind × String} :
    key ∈ (g.mergeRemove old).keys ↔ key ∈ g.keys ∧ key ∉ old.keys := by
  obtain ⟨k, name⟩ := key
  have hold : name ∈ (old.entries k).names ↔ (k, name) ∈ old.keys :=
    (NameMap.mem_names_iff _).trans mem_keys.symm
  rw [mem_keys, mem_keys, get?_mergeRemove]
  by_cases hmem : name ∈ (old.entries k).names
  · have hkey := hold.mp hmem
    simp [hmem, hkey]
  · have hkey : (k, name) ∉ old.keys := fun h => hmem (hold.mpr h)
    simp [hmem, hkey]

/-- A graph of some of the parts of an intact one is intact. -/
theorem Intact.mergeRemove {g : Graph} {w : World} (hg : g.Intact w) (old : Graph) :
    (g.mergeRemove old).Intact w := by
  have hsub : ∀ k name x, ((g.mergeRemove old).entries k).get? name = some x →
      (g.entries k).get? name = some x := by
    intro k name x hx
    rw [get?_mergeRemove] at hx
    split at hx
    · cases hx
    · exact hx
  exact ⟨fun k name x hx => hg.known k name x (hsub k name x hx),
    fun k name x k' name' y hx hy => hg.apart _ _ _ _ _ _ (hsub k name x hx) (hsub k' name' y hy),
    fun k name x remote hx => hg.remoteNamed k name x remote (hsub k name x hx),
    hg.processNamed.removeAll old.manager⟩

end Graph

end RobotHost
