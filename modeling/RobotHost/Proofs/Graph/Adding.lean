import RobotHost.Proofs.Graph.Merging
import RobotHost.Proofs.Process.Conservation

/-!
# Adding a graph and taking it out again

A graph that others look at changes in place: the processes of the other graph are merged first,
since only these can fail, and then its parts are written one by one, kind by kind, and its functions
(`Graph.mergeAddInPlace`). This comes to what `Graph.mergeAdd` says (`Graph.mergeAddInPlace_ok`), and
if it fails the graph is as it was (`Graph.mergeAddInPlace_error`).

To take out all names of a graph that was added leaves what the first graph had under other names
(`Graph.mergeAdd_laws`). So what was added under new names can be taken out again without a trace in
the graph; only the processes that it brought along may have been started.
-/

namespace RobotHost

/-- A set of names is written by writing its names. -/
theorem NameMap.insertAll_names (m extra : NameSet) :
    extra.names.foldl (fun m name => m.insert name ()) m = m.override extra := by
  rw [names, List.foldl_map]
  rfl

namespace Graph

variable {h : Host} {g g' extra : Graph} {w u : World} {replaced : List (Ref .process)}

/-! ## In place -/

/-- Writes all parts of a kind of another graph, one after the other. -/
def insertAll (extra g : Graph) (k : Kind) : Graph :=
  (extra.entries k).entries.foldl (fun g e => g.insert k e.1 e.2) g

/-- Adds all of another graph. Nothing but processes is touched before these are merged. -/
def mergeAddInPlace (h : Host) (g extra : Graph) (w : World) :
    Except ProcessError (List (Ref .process)) × Graph × World :=
  match g.manager.mergeInPlace h extra.manager w with
  | (.error e, m, u) => (.error e, { g with manager := m }, u)
  | (.ok replaced, m, u) =>
    let parts := Kind.listed.foldl extra.insertAll { g with manager := m }
    (.ok replaced, extra.functions.names.foldl insertFunction parts, u)

/-- Parts that are written one by one leave all else alone. -/
theorem foldl_insert (k : Kind) (parts : List (String × k.Handle)) (g : Graph) :
    let after := parts.foldl (fun g e => g.insert k e.1 e.2) g
    after.entries k = (g.entries k).insertAll parts ∧
      (∀ other, other ≠ k → after.entries other = g.entries other) ∧
      after.functions = g.functions ∧ after.manager = g.manager := by
  induction parts generalizing g with
  | nil => exact ⟨rfl, fun _ _ => rfl, rfl, rfl⟩
  | cons e rest ih =>
    obtain ⟨hself, hothers, hfunctions, hmanager⟩ := ih (g.insert k e.1 e.2)
    refine ⟨?_, fun other hne => ?_, ?_, ?_⟩
    · rw [List.foldl_cons, hself, entries_insert_self]
      rfl
    · rw [List.foldl_cons, hothers other hne, entries_insert_of_ne g e.1 e.2 hne]
    · rw [List.foldl_cons, hfunctions, functions_insert]
    · rw [List.foldl_cons, hmanager, manager_insert]

/-- Once the parts of some kinds are written, these kinds are as both graphs together have them. -/
theorem foldl_insertAll (extra : Graph) {ks : List Kind} (hks : ks.Nodup) (g : Graph) :
    let after := ks.foldl extra.insertAll g
    (∀ k, after.entries k =
      if k ∈ ks then (g.entries k).override (extra.entries k) else g.entries k) ∧
      after.functions = g.functions ∧ after.manager = g.manager := by
  induction ks generalizing g with
  | nil => exact ⟨fun k => by simp, rfl, rfl⟩
  | cons first rest ih =>
    obtain ⟨hfirst, hrest⟩ := List.nodup_cons.mp hks
    obtain ⟨hself, hothers, hfunctions, hmanager⟩ :=
      foldl_insert first (extra.entries first).entries g
    obtain ⟨hentries, hfunctions', hmanager'⟩ := ih hrest (extra.insertAll g first)
    refine ⟨fun k => ?_, hfunctions'.trans hfunctions, hmanager'.trans hmanager⟩
    rw [List.foldl_cons, hentries]
    -- no kind comes twice, so the entries of the first are not written again
    by_cases hk : k = first
    · subst hk
      rw [if_neg hfirst, if_pos List.mem_cons_self]
      exact hself
    · have hmem : k ∈ first :: rest ↔ k ∈ rest := by simp [hk]
      have hsame : (extra.insertAll g first).entries k = g.entries k := hothers k hk
      rw [hsame, if_congr hmem rfl rfl]

/-- Names of functions leave all else alone. -/
theorem foldl_insertFunction (names : List String) (g : Graph) :
    names.foldl insertFunction g =
      { g with functions := names.foldl (fun m name => m.insert name ()) g.functions } := by
  induction names generalizing g with
  | nil => rfl
  | cons name rest ih => rw [List.foldl_cons, ih]; rfl

/-- A graph that is added in place is added as `mergeAdd` says. -/
theorem mergeAddInPlace_ok (hmerge : g.mergeAdd h extra w = .ok (replaced, g') u) :
    g.mergeAddInPlace h extra w = (.ok replaced, g', u) := by
  obtain ⟨⟨_, m⟩, v, hadd, hpure⟩ := bind_eq_ok.mp hmerge
  obtain ⟨hpair, rfl⟩ := pure_eq_ok.mp hpure
  cases hpair
  obtain ⟨hentries, hfunctions, hmanager⟩ :=
    foldl_insertAll extra (by decide : Kind.listed.Nodup) { g with manager := m }
  -- written kind by kind or all at once, the entries are the same
  have hparts : extra.functions.names.foldl insertFunction
      (Kind.listed.foldl extra.insertAll { g with manager := m }) =
        { g.withEntries fun k => (g.entries k).override (extra.entries k) with
          functions := g.functions.override extra.functions, manager := m } := by
    rw [foldl_insertFunction, NameMap.insertAll_names]
    refine ext_entries (fun k => ?_) (congrArg (NameMap.override · _) hfunctions) hmanager
    have hk := hentries k
    rw [if_pos (Kind.mem_listed k), entries_with g g.functions m] at hk
    have hmerged := entries_withEntries g (fun k => (g.entries k).override (extra.entries k)) k
    exact (entries_with _ _ _ k).trans (hk.trans (hmerged.symm.trans (entries_with _ _ _ k).symm))
  rw [mergeAddInPlace, ProcessManager.mergeInPlace_eq, hadd]
  simp only [hparts]

/-- A graph that cannot be added leaves the other as it was. -/
theorem mergeAddInPlace_error {e : ProcessError} (hmerge : g.mergeAdd h extra w = .error e u) :
    g.mergeAddInPlace h extra w = (.error e, g, u) := by
  rcases bind_eq_error.mp hmerge with hadd | ⟨_, _, -, hpure⟩
  · rw [mergeAddInPlace, ProcessManager.mergeInPlace_eq, hadd]
  · cases hpure

/-! ## In and out again -/

/-- All names that two graphs together have, each with what the second has under it, or else with
what the first has. -/
structure Joined (g extra g' : Graph) : Prop where
  entries : ∀ k name,
    (g'.entries k).get? name = ((extra.entries k).get? name).or ((g.entries k).get? name)
  functions : ∀ name, name ∈ g'.functions.names ↔
    name ∈ g.functions.names ∨ name ∈ extra.functions.names
  processes : ∀ id, g'.manager.get? id = (extra.manager.get? id).or (g.manager.get? id)
  started : g'.manager.started = g.manager.started
  /-- The manager that was added is as it was, also if it is the one it was added to. -/
  source : extra.manager = g.manager → g'.manager = extra.manager

/-- What the first graph has under names that the second does not have. -/
structure Stripped (g extra g' : Graph) : Prop where
  entries : ∀ k name, (g'.entries k).get? name =
    if name ∈ (extra.entries k).names then none else (g.entries k).get? name
  functions : ∀ name, name ∈ g'.functions.names ↔
    name ∈ g.functions.names ∧ name ∉ extra.functions.names
  processes : ∀ id, g'.manager.get? id =
    if id ∈ extra.manager.processes.names then none else g.manager.get? id
  started : g'.manager.started = g.manager.started

/-- No name of the second graph is one of the first, neither of a part nor of a function or
process. -/
structure Foreign (g extra : Graph) : Prop where
  entries : ∀ k, ∀ name ∈ (extra.entries k).names, name ∉ (g.entries k).names
  functions : ∀ name ∈ extra.functions.names, name ∉ g.functions.names
  processes : ∀ id ∈ extra.manager.processes.names, id ∉ g.manager.processes.names

/-- Nothing stands elsewhere than before, and nothing was closed or stopped. Processes may have
been started. -/
structure Undisturbed (w u : World) : Prop where
  launches : w.Launches u
  behind : ∀ s, u.behind? s = w.behind? s
  closings : u.closings = w.closings
  stoppings : u.stoppings = w.stoppings

theorem undisturbed_of_launches (hw : w.Launches u) : Undisturbed w u :=
  ⟨hw, hw.behind?_eq, hw.closings, (hw.plain.mono fun _ he => he.stops).stoppings⟩

/-- What comes of an addition is all that the two graphs have. -/
theorem Added.joined (ha : Added g extra w replaced g' u) : Joined g extra g' where
  entries := ha.get?
  functions := fun name => by rw [ha.functions, NameMap.mem_names_override]
  processes := fun id => by
    rw [ha.manager]
    exact NameMap.get?_override _ _ id
  started := by rw [ha.manager]
  source := fun hsame => by
    have hprocesses : g.manager.processes.override g.manager.processes = g.manager.processes :=
      NameMap.ext_get? fun id => by rw [NameMap.get?_override, Option.or_self]
    rw [ha.manager, hsame, hprocesses]

/-- To take out what was added leaves what the first graph has under other names. -/
theorem Joined.mergeRemove (hj : Joined g extra g') : Stripped g extra (g'.mergeRemove extra) where
  entries := by
    intro k name
    rw [get?_mergeRemove]
    split
    · rfl
    · next hname => rw [hj.entries, (NameMap.get?_eq_none_iff _).mpr hname, Option.none_or]
  functions := by
    intro name
    show name ∈ (g'.functions.eraseAll extra.functions.names).names ↔ _
    rw [NameMap.mem_names_eraseAll, hj.functions]
    tauto
  processes := by
    intro id
    show (g'.manager.removeAll extra.manager).get? id = _
    rw [ProcessManager.get?_removeAll]
    split
    · rfl
    · next hid =>
      have hnone : extra.manager.get? id = none := (NameMap.get?_eq_none_iff _).mpr hid
      rw [hj.processes, hnone, Option.none_or]
  started := hj.started

/-- A graph that has none of the names loses nothing. -/
theorem Stripped.eq_of_foreign (hs : Stripped g extra g') (hforeign : g.Foreign extra) : g' = g := by
  refine ext_entries (fun k => NameMap.ext_get? fun name => ?_)
    (NameMap.ext_of_mem_names fun name => ?_) ?_
  · rw [hs.entries]
    -- what was put in stood under names that the graph did not have
    split
    · next hname => exact ((NameMap.get?_eq_none_iff _).mpr (hforeign.entries k name hname)).symm
    · rfl
  · rw [hs.functions]
    exact ⟨And.left, fun hname => ⟨hname, fun hextra => hforeign.functions name hextra hname⟩⟩
  · have hprocesses : g'.manager.processes = g.manager.processes := NameMap.ext_get? fun id => by
      have hid := hs.processes id
      split at hid
      · next hmem =>
        exact hid.trans ((NameMap.get?_eq_none_iff _).mpr (hforeign.processes id hmem)).symm
      · exact hid
    have hstarted := hs.started
    cases hg : g'.manager
    cases hg' : g.manager
    rw [hg, hg'] at hprocesses hstarted
    cases hprocesses
    cases hstarted
    rfl

/-- To add a graph fails just if the first graph was started and a process of the second does not
start. Then the first graph is as it was. Otherwise it has all of the second over its own, and to
take out the names of the second leaves what it had under other names; that is all it had if they
have no name in common. Nothing is closed or stopped by either step.

All graphs that were put together by the operations on graphs have their processes under their
ids (`Assembled.coherent`). -/
theorem mergeAdd_laws (h : Host) {g extra : Graph} {w : World} (hextra : extra.manager.Keyed w) :
    (∀ e u, g.mergeAdd h extra w = .error e u →
      g.mergeAddInPlace h extra w = (.error e, g, u) ∧ Undisturbed w u) ∧
    ((∃ e u, g.mergeAdd h extra w = .error e u) ↔
      g.manager.started = true ∧ World.Stalls h extra.manager.processes.values w) ∧
    ∀ replaced g' u, g.mergeAdd h extra w = .ok (replaced, g') u →
      g.mergeAddInPlace h extra w = (.ok replaced, g', u) ∧ Undisturbed w u ∧ Joined g extra g' ∧
        Stripped g extra (g'.mergeRemove extra) ∧
        (g.Foreign extra → g'.mergeRemove extra = g) := by
  refine ⟨fun e u hmerge => ?_, ?_, fun replaced g' u hmerge => ?_⟩
  · exact ⟨mergeAddInPlace_error hmerge, undisturbed_of_launches (mergeAdd_error hmerge)⟩
  · rw [← ProcessManager.addAll_error_iff]
    constructor
    · rintro ⟨e, u, hmerge⟩
      rcases bind_eq_error.mp hmerge with hadd | ⟨_, _, -, hpure⟩
      · exact ⟨e, u, hadd⟩
      · cases hpure
    · rintro ⟨e, u, hadd⟩
      exact ⟨e, u, bind_eq_error.mpr (.inl hadd)⟩
  · have hadded := mergeAdd_ok hextra hmerge
    have hstripped := hadded.joined.mergeRemove
    exact ⟨mergeAddInPlace_ok hmerge, undisturbed_of_launches hadded.world, hadded.joined, hstripped,
      hstripped.eq_of_foreign⟩

namespace Sample

/-- A graph with a service and a function. -/
def scanner : Graph where
  functions := NameMap.ofList [("scan", ())]
  manager := ProcessManager.Sample.resting

def running : Graph := { scanner with manager := scanner.manager.startedUp }

/-- A graph with a service that never starts, and with another function. -/
def tuner : Graph where
  functions := NameMap.ofList [("tune", ())]
  manager := { processes := NameMap.ofList [("radio", ⟨2⟩)] }

theorem tuner_keyed : tuner.manager.Keyed ProcessManager.Sample.services := by
  intro id p hp
  have hentry : (id, p) ∈ [("radio", (⟨2⟩ : Ref .process))] := (NameMap.get?_eq_some_iff _).mp hp
  cases List.mem_singleton.mp hentry
  exact ⟨_, rfl, rfl⟩

theorem scanner_foreign : scanner.Foreign tuner where
  entries := fun k name hname => by
    obtain ⟨x, hx⟩ := (NameMap.mem_names_iff _).mp hname
    match k with
    | .remote | .driver .board | .driver .sensor => cases hx
    | .driver (.part p) => cases p <;> cases hx
  functions := by decide
  processes := by decide

end Sample

/-- A graph that was not started takes the service that never starts, and can let go of it again. One
that was started stays as it is. -/
theorem mergeAdd_laws_sample :
    (∃ replaced g' u, Sample.scanner.mergeAdd ProcessManager.Sample.host Sample.tuner
        ProcessManager.Sample.services = .ok (replaced, g') u ∧
      g'.functions.names = ["scan", "tune"] ∧ g'.manager.get? "radio" = some ⟨2⟩ ∧
      g'.mergeRemove Sample.tuner = Sample.scanner) ∧
    ∃ e u, Sample.running.mergeAddInPlace ProcessManager.Sample.host Sample.tuner
        ProcessManager.Sample.services = (.error e, Sample.running, u) ∧
      u.log = [.started ⟨2⟩] := by
  obtain ⟨-, -, hok⟩ := mergeAdd_laws ProcessManager.Sample.host (g := Sample.scanner)
    Sample.tuner_keyed
  obtain ⟨herror, -, -⟩ := mergeAdd_laws ProcessManager.Sample.host (g := Sample.running)
    Sample.tuner_keyed
  constructor
  · have hmerge : ∃ replaced g' u, Sample.scanner.mergeAdd ProcessManager.Sample.host Sample.tuner
        ProcessManager.Sample.services = .ok (replaced, g') u ∧
          g'.functions.names = ["scan", "tune"] := ⟨_, _, _, rfl, rfl⟩
    obtain ⟨replaced, g', u, hmerge, hnames⟩ := hmerge
    obtain ⟨-, -, hjoined, -, hrestored⟩ := hok _ _ _ hmerge
    exact ⟨replaced, g', u, hmerge, hnames, hjoined.processes "radio",
      hrestored Sample.scanner_foreign⟩
  · have hmerge : ∃ e u, Sample.running.mergeAdd ProcessManager.Sample.host Sample.tuner
        ProcessManager.Sample.services = .error e u ∧ u.log = [.started ⟨2⟩] := ⟨_, _, rfl, rfl⟩
    obtain ⟨e, u, hmerge, hlog⟩ := hmerge
    exact ⟨e, u, (herror e u hmerge).1, hlog⟩

end Graph

end RobotHost
