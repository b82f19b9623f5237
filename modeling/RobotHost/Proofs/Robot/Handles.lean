import RobotHost.Proofs.Robot.Reconfiguring

/-!
# Handles through reconfigurations

A diff that fits the running graph has an exact effect on it (`LocalRobot.Moved`): what it does not
mention stays, behind the handle of before; what it modifies keeps its handle, which stands for what
was delivered for it; what it adds has a handle to what was delivered for it; what it removes is
gone, but for those who still have the handle.

So a handle that somebody holds stands for what the robot serves under its name, through any run in
which the name is not removed (`LocalRobot.reconfigure_exact`).
-/

namespace RobotHost

/-- A diff that fits a graph: under each kind names are distinct, none is mentioned twice, added
ones are new, and modified and removed ones are there. -/
structure Diff.Sound (d : Diff) (g : Graph) : Prop where
  added : d.added.keys.Nodup
  modified : d.modified.keys.Nodup
  removed : d.removed.keys.Nodup
  added_modified : ∀ key ∈ d.added.keys, key ∉ d.modified.keys
  added_removed : ∀ key ∈ d.added.keys, key ∉ d.removed.keys
  modified_removed : ∀ key ∈ d.modified.keys, key ∉ d.removed.keys
  new : ∀ key ∈ d.added.keys, key ∉ g.keys
  modified_live : ∀ key ∈ d.modified.keys, key ∈ g.keys
  removed_live : ∀ key ∈ d.removed.keys, key ∈ g.keys

/-- A diff whose names are distinct and that adds only new ones. What it modifies and removes need
not be there. -/
structure Diff.Separate (d : Diff) (g : Graph) : Prop where
  added : d.added.keys.Nodup
  modified : d.modified.keys.Nodup
  removed : d.removed.keys.Nodup
  added_modified : ∀ key ∈ d.added.keys, key ∉ d.modified.keys
  added_removed : ∀ key ∈ d.added.keys, key ∉ d.removed.keys
  modified_removed : ∀ key ∈ d.modified.keys, key ∉ d.removed.keys
  new : ∀ key ∈ d.added.keys, key ∉ g.keys

/-- A diff that fits a graph has distinct names, and adds only new ones. -/
theorem Diff.Sound.separate {d : Diff} {g : Graph} (h : d.Sound g) : d.Separate g :=
  ⟨h.added, h.modified, h.removed, h.added_modified, h.added_removed, h.modified_removed, h.new⟩

/-- An empty configuration declares no part, function or process. -/
theorem Config.eq_nil_of_isEmpty {c : Config} (h : c.isEmpty = true) :
    c.items = [] ∧ c.functions = [] ∧ c.processes = [] := by
  unfold Config.isEmpty at h
  simp only [Bool.and_eq_true, List.isEmpty_iff] at h
  obtain ⟨⟨⟨⟨⟨-, hremotes⟩, hboards⟩, hcomponents⟩, hprocesses⟩, hfunctions⟩ := h
  refine ⟨?_, hfunctions, hprocesses⟩
  unfold Config.items
  rw [hremotes, hboards, hcomponents]
  rfl

theorem ModifiedConfig.items_of_isEmpty {m : ModifiedConfig} (h : m.isEmpty = true) :
    m.items = [] := by
  unfold ModifiedConfig.isEmpty at h
  simp only [Bool.and_eq_true, List.isEmpty_iff] at h
  obtain ⟨⟨⟨⟨hremotes, hboards⟩, hcomponents⟩, -⟩, -⟩ := h
  unfold ModifiedConfig.items
  rw [hremotes, NameMap.eq_empty_of_isEmpty hboards, hcomponents]
  rfl

namespace LocalRobot

namespace Preparation

variable {env : Environment} {r : LocalRobot} {diff : Diff} {w w' : World} {draft : Draft}
  (p : Preparation env r diff w draft w')

include p

theorem log : w.log <+: w'.log :=
  (p.extends_modified.trans p.extends_joined).log.trans p.hexchanged.logs.log

/-- The ledger shows what was built, and nothing else was delivered. -/
theorem deliveries : w'.deliveries = w.deliveries ++ (p.xs ++ p.ys).map Delivery.event := by
  have hselected : World.Logs (fun e => e.delivers? = none) p.modified.world p.selected :=
    .of_log_eq p.hselected.world.sameLog
  have hmerged := (hselected.trans p.hmerged.world.logs).trans p.hexchanged.logs
  rw [hmerged.deliveries, p.hmodified.progress.built.deliveries,
    p.hadded.progress.built.deliveries, List.map_append, List.append_assoc]

/-- All that is added was built. -/
theorem mem_keys_added {key : Kind × String} :
    key ∈ p.added.graph.keys ↔ key ∈ diff.added.keys := by
  rw [p.hadded.progress.built.mem_keys_iff, ← p.hadded.keys]
  rfl

theorem mem_keys_modified {key : Kind × String} :
    key ∈ p.modified.graph.keys ↔ key ∈ diff.modified.keys := by
  rw [p.hmodified.progress.built.mem_keys_iff, ← p.hmodified.keys]
  rfl

/-- What runs and is to be removed is what was selected of it. -/
theorem mem_keys_removed (hr : r.graph.Intact w) {key : Kind × String} (hkey : key ∈ r.graph.keys) :
    key ∈ draft.removed.keys ↔ key ∈ diff.removed.keys := by
  obtain ⟨k, name⟩ := key
  constructor
  · exact p.hselected.named _
  · intro hmem
    obtain ⟨h, hh⟩ := Graph.mem_keys.mp hkey
    obtain ⟨x, hx⟩ := (hr.recalls p.extends_modified.toRecalls).known k name h hh
    obtain ⟨h', hh', -⟩ := Graph.backing?_eq_some_iff.mp
      (p.hselected.serves k name x hmem (Graph.backing?_eq_some_iff.mpr ⟨h, hh, hx⟩))
    exact Graph.mem_keys.mpr ⟨h', hh'⟩

/-- If nothing is both added and removed, the draft has what was there and is not removed, and what
is added. -/
theorem mem_keys_graph (hr : r.graph.Intact w) {key : Kind × String}
    (hadded : ∀ key ∈ diff.added.keys, key ∉ diff.removed.keys) :
    key ∈ draft.graph.keys ↔
      (key ∈ r.graph.keys ∧ key ∉ diff.removed.keys) ∨ key ∈ diff.added.keys := by
  have hmerged : key ∈ p.merged.keys ↔ key ∈ p.added.graph.keys ∨ key ∈ r.graph.keys := by
    obtain ⟨k, name⟩ := key
    rw [Graph.mem_keys, Graph.mem_keys, Graph.mem_keys, p.hmerged.get?]
    cases (p.added.graph.entries k).get? name <;> simp
  have hexchanged : key ∈ p.exchanged.keys ↔ key ∈ p.merged.keys := by
    obtain ⟨k, name⟩ := key
    rw [Graph.mem_keys, Graph.mem_keys, p.hexchanged.entries]
  rw [p.graph, Graph.mem_keys_mergeRemove, hexchanged, hmerged, p.mem_keys_added]
  constructor
  · rintro ⟨hkey | hkey, hnot⟩
    · exact Or.inr hkey
    · exact Or.inl ⟨hkey, fun h => hnot ((p.mem_keys_removed hr hkey).mpr h)⟩
  · rintro (⟨hkey, hnot⟩ | hkey)
    · exact ⟨Or.inr hkey, fun h => hnot (p.hselected.named _ h)⟩
    · exact ⟨Or.inl hkey, fun h => hadded key hkey (p.hselected.named _ h)⟩

/-- Nothing else comes behind a handle of the running graph, unless the diff modifies its part. -/
theorem behind?_of_not_modified (hr : r.graph.Intact w) {k : Kind} {name : String} {h : k.Handle}
    (hh : (r.graph.entries k).get? name = some h) (hkey : (k, name) ∉ diff.modified.keys) :
    w'.behind? (k.slot h) = w.behind? (k.slot h) := by
  -- an exchange of this handle would be one for its own name
  have hother : ∀ x ∈ p.merged.exchanges p.modified.graph, k.slot h ≠ x.target := by
    intro x hx heq
    obtain ⟨hlive, hnext⟩ := Graph.mem_exchanges.mp hx
    rcases p.hmerged.get?_cases hlive with hadded | ⟨-, hlive⟩
    · exact apart_of_built hr (.refl w) p.hadded.progress.built _ _ _ _ _ _ hh hadded heq
    · obtain ⟨rfl, rfl⟩ := hr.apart _ _ _ _ _ _ hh hlive heq
      exact hkey (p.mem_keys_modified.mp (Graph.mem_keys.mpr ⟨_, hnext⟩))
  obtain ⟨x, hx⟩ := hr.known k name h hh
  have hjoined := p.extends_modified.trans p.extends_joined
  rw [p.hexchanged.others hother, hjoined.behind _ _ hx, hx]

end Preparation

/-! ## The effect of a diff -/

/-- What a diff does to a graph that it fits, given what was delivered for it. -/
structure Moved (g : Graph) (w : World) (diff : Diff) (xs ys : List Delivery) (g' : Graph)
    (w' : World) : Prop where
  added_items : List.Forall₂ Item.Delivers diff.added.items xs
  modified_items : List.Forall₂ Item.Delivers diff.modified.items ys
  deliveries : w'.deliveries = w.deliveries ++ (xs ++ ys).map Delivery.event
  keys : ∀ key, key ∈ g'.keys ↔ (key ∈ g.keys ∧ key ∉ diff.removed.keys) ∨ key ∈ diff.added.keys
  kept : ∀ k name h, (g.entries k).get? name = some h → (k, name) ∉ diff.modified.keys →
    (k, name) ∉ diff.removed.keys →
    (g'.entries k).get? name = some h ∧ w'.behind? (k.slot h) = w.behind? (k.slot h)
  modified : ∀ y ∈ ys, ∃ h, (g.entries y.kind).get? y.name = some h ∧
    (g'.entries y.kind).get? y.name = some h ∧ w'.behind? (y.kind.slot h) = some y.backing
  added : ∀ x ∈ xs, ∃ h, (g'.entries x.kind).get? x.name = some h ∧
    w'.behind? (x.kind.slot h) = some x.backing
  removed : ∀ k name, (k, name) ∈ diff.removed.keys → (g'.entries k).get? name = none ∧
    ∀ h, (g.entries k).get? name = some h → w'.behind? (k.slot h) = w.behind? (k.slot h)

namespace Preparation

variable {env : Environment} {r : LocalRobot} {diff : Diff} {w w' w'' : World} {draft : Draft}
  (p : Preparation env r diff w draft w')

include p

/-- What is not mentioned is not removed. -/
theorem not_mem_removed {k : Kind} {name : String} (hkey : (k, name) ∉ diff.removed.keys) :
    name ∉ (draft.removed.entries k).names := fun hmem =>
  hkey (p.hselected.named _ (Graph.mem_keys.mpr ((NameMap.mem_names_iff _).mp hmem)))

/-- What runs and is not removed keeps its handle, as nothing is added under its name. -/
theorem get?_kept (hdiff : diff.Separate r.graph) {k : Kind} {name : String} {h : k.Handle}
    (hh : (r.graph.entries k).get? name = some h) (hkey : (k, name) ∉ diff.removed.keys) :
    (draft.graph.entries k).get? name = some h := by
  have hnew : (k, name) ∉ p.added.graph.keys := fun hmem =>
    hdiff.new _ (p.mem_keys_added.mp hmem) (Graph.mem_keys.mpr ⟨h, hh⟩)
  rw [p.get?_graph, if_neg (p.not_mem_removed hkey), Graph.get?_eq_none hnew, Option.none_or, hh]

/-- What the diff modifies and what runs keeps its handle, and what was built for it has come behind
that. -/
theorem serves_modified (hr : r.graph.Intact w) (hdiff : diff.Separate r.graph)
    (hw : w'.Quiet w'') {y : Delivery} (hy : y ∈ p.ys) (hlive : y.key ∈ r.graph.keys) :
    ∃ h, (r.graph.entries y.kind).get? y.name = some h ∧
      (draft.graph.entries y.kind).get? y.name = some h ∧
      w''.behind? (y.kind.slot h) = some y.backing := by
  have hkeys : diff.modified.keys = p.ys.map Delivery.key := p.hmodified.keys
  have hkey : y.key ∈ diff.modified.keys := by
    rw [hkeys]
    exact List.mem_map_of_mem hy
  obtain ⟨h, hh⟩ := Graph.mem_keys.mp hlive
  obtain ⟨h', hh', hbehind⟩ := Graph.backing?_eq_some_iff.mp
    (p.hmodified.progress.built.served (hkeys ▸ hdiff.modified) hy)
  have hdraft := p.get?_kept hdiff hh (hdiff.modified_removed _ hkey)
  refine ⟨h, hh, hdraft, ?_⟩
  rw [hw.behind?_eq, (p.merges hr).exchanged _ _ h h' hdraft hh', hbehind]

/-- What the diff adds has a handle to what was built for it. -/
theorem serves_added (hr : r.graph.Intact w) (hdiff : diff.Separate r.graph) (hw : w'.Quiet w'')
    {x : Delivery} (hx : x ∈ p.xs) : ∃ h, (draft.graph.entries x.kind).get? x.name = some h ∧
      w''.behind? (x.kind.slot h) = some x.backing := by
  have hkeys : diff.added.keys = p.xs.map Delivery.key := p.hadded.keys
  have hkey : x.key ∈ diff.added.keys := by
    rw [hkeys]
    exact List.mem_map_of_mem hx
  obtain ⟨h, hh, hbehind⟩ := Graph.backing?_eq_some_iff.mp
    (p.hadded.progress.built.served (hkeys ▸ hdiff.added) hx)
  have hdraft : (draft.graph.entries x.kind).get? x.name = some h := by
    rw [p.get?_graph, if_neg (p.not_mem_removed (hdiff.added_removed _ hkey)), hh, Option.some_or]
  -- nothing is exchanged under its name, so it stands for what was built
  have hmod : (p.modified.graph.entries x.kind).get? x.name = none := Graph.get?_eq_none fun hmem =>
    hdiff.added_modified _ hkey (p.mem_keys_modified.mp hmem)
  refine ⟨h, hdraft, ?_⟩
  rw [hw.behind?_eq, (p.merges hr).kept _ _ h hdraft hmod]
  exact p.hmodified.progress.built.world.behind _ _ hbehind

/-- A diff that fits does just this when the new graph is installed. -/
theorem moved (hr : r.graph.Intact w) (hsound : diff.Sound r.graph) (hw : w'.Quiet w'') :
    Moved r.graph w diff p.xs p.ys draft.graph w'' := by
  have hkeys : diff.modified.keys = p.ys.map Delivery.key := p.hmodified.keys
  refine ⟨p.hadded.items, p.hmodified.items, ?_, ?_, ?_, ?_, ?_, ?_⟩
  · rw [hw.logs.deliveries, p.deliveries]
  · exact fun key => p.mem_keys_graph hr hsound.added_removed
  · intro k name h hh hmod hrem
    refine ⟨p.get?_kept hsound.separate hh hrem, ?_⟩
    rw [hw.behind?_eq, p.behind?_of_not_modified hr hh hmod]
  · intro y hy
    refine p.serves_modified hr hsound.separate hw hy (hsound.modified_live _ ?_)
    rw [hkeys]
    exact List.mem_map_of_mem hy
  · exact fun x hx => p.serves_added hr hsound.separate hw hx
  -- a part that is removed is out of the graph, but its handle stands for what it stood for
  · intro k name hkey
    refine ⟨?_, fun h hh => ?_⟩
    · have hmem := (p.mem_keys_removed hr (hsound.removed_live _ hkey)).mpr hkey
      rw [p.get?_graph, if_pos ((NameMap.mem_names_iff _).mpr (Graph.mem_keys.mp hmem))]
    · rw [hw.behind?_eq]
      exact p.behind?_of_not_modified hr hh fun hmod => hsound.modified_removed _ hmod hkey

end Preparation

/-- An empty diff moves nothing. -/
theorem moved_of_isEmpty {diff : Diff} (h : diff.isEmpty = true) (g : Graph) (w : World) :
    Moved g w diff [] [] g w := by
  unfold Diff.isEmpty at h
  simp only [Bool.and_eq_true] at h
  obtain ⟨hadded, -, -⟩ := Config.eq_nil_of_isEmpty h.1.1
  have hmodified := ModifiedConfig.items_of_isEmpty h.1.2
  obtain ⟨hremoved, -, -⟩ := Config.eq_nil_of_isEmpty h.2
  refine ⟨hadded ▸ .nil, hmodified ▸ .nil, by simp, ?_, fun _ _ _ hh _ _ => ⟨hh, rfl⟩, by simp,
    by simp, ?_⟩
  · simp [Config.keys, hadded, hremoved]
  · simp [Config.keys, hremoved]

/-- A reconfiguration by a diff that fits fails and leaves the graph alone, or moves it. -/
theorem moved_reconfigure {env : Environment} {r r' : LocalRobot} {c : Config} {diff : Diff}
    {w w' : World} {outcome : Except RobotError Unit} (hr : r.graph.Intact w)
    (hsound : diff.Sound r.graph) (h : r.reconfigure env c diff w = (outcome, r', w')) :
    ((∃ e, outcome = .error e ∧ ¬e.OfTeardown) ∧ r' = r ∧ w.Extends w') ∨
      ∃ xs ys, Moved r.graph w diff xs ys r'.graph w' := by
  rcases reconfigure_cases h with ⟨hdiff, rfl, rfl, rfl⟩ | ⟨-, e, hprepare, rfl, rfl⟩ |
    ⟨-, draft, u, hprepare, rfl, hfinish⟩
  · exact Or.inr ⟨[], [], moved_of_isEmpty hdiff r.graph w'⟩
  · obtain ⟨he, gs, v, habandoned, rfl⟩ := prepare_error hr hprepare
    exact Or.inl ⟨⟨e, rfl, he⟩, rfl,
      habandoned.extends.trans (World.discard_quiet env.host gs v).extends⟩
  · obtain ⟨p⟩ := prepare_ok hr hprepare
    have hquiet := Draft.finish_quiet env.host p.hselected.idle u
    rw [hfinish] at hquiet
    exact Or.inr ⟨p.xs, p.ys, p.moved hr hsound hquiet⟩

/-- A part that is not removed keeps its handle. -/
theorem Moved.get? {g g' : Graph} {w w' : World} {diff : Diff} {xs ys : List Delivery}
    (hm : Moved g w diff xs ys g' w') {k : Kind} {name : String} {h : k.Handle}
    (hh : (g.entries k).get? name = some h) (hkey : (k, name) ∉ diff.removed.keys) :
    (g'.entries k).get? name = some h := by
  by_cases hmod : (k, name) ∈ diff.modified.keys
  · have hkeys : diff.modified.keys = ys.map Delivery.key := keys_of_delivers hm.modified_items
    rw [hkeys] at hmod
    obtain ⟨y, hy, hykey⟩ := List.mem_map.mp hmod
    cases hykey
    obtain ⟨h', hlive, hnew, -⟩ := hm.modified y hy
    rw [hh] at hlive
    cases hlive
    exact hnew
  · exact (hm.kept k name h hh hmod hkey).1

/-! ## Runs -/

/-- Runs by diffs that fit, none of which removes a part. -/
inductive Keeps (env : Environment) (k : Kind) (name : String) (r : LocalRobot) (w : World) :
    LocalRobot → World → Prop
  | refl : Keeps env k name r w r w
  | reconfigure {r' r'' : LocalRobot} {c : Config} {diff : Diff} {w' w'' : World}
    {outcome : Except RobotError Unit} (hrun : Keeps env k name r w r' w')
    (hsound : diff.Sound r'.graph) (hkeep : (k, name) ∉ diff.removed.keys)
    (h : r'.reconfigure env c diff w' = (outcome, r'', w'')) : Keeps env k name r w r'' w''
  | elapse {r' : LocalRobot} {w' w'' : World} (hrun : Keeps env k name r w r' w')
    (h : r'.graph.Spared w' w'') : Keeps env k name r w r' w''

theorem Keeps.reachable {env : Environment} {k : Kind} {name : String} {r r' : LocalRobot}
    {w w' : World} (hrun : Keeps env k name r w r' w') (hr : Reachable env r w) :
    Reachable env r' w' := by
  induction hrun with
  | refl => exact hr
  | reconfigure _ _ _ h ih => exact ih.reconfigure h
  | elapse _ h ih => exact ih.elapse h

/-- Through all of the run the part keeps its handle. -/
theorem Keeps.get? {env : Environment} {k : Kind} {name : String} {r r' : LocalRobot}
    {w w' : World} (hrun : Keeps env k name r w r' w') (hr : Reachable env r w) {h : k.Handle}
    (hh : (r.graph.entries k).get? name = some h) : (r'.graph.entries k).get? name = some h := by
  induction hrun with
  | refl => exact hh
  | reconfigure hrun hsound hkeep hstep ih =>
    rcases moved_reconfigure (hrun.reachable hr).intact hsound hstep with
      ⟨-, rfl, -⟩ | ⟨xs, ys, hmoved⟩
    · exact ih
    · exact hmoved.get? ih hkeep
  | elapse _ _ ih => exact ih

/-- Whenever a diff that fits is installed it moves the graph as it says: handles stay as they are,
and stand for what was built in this very step for what the diff adds and modifies. So a handle
stands for what the robot serves under its name as long as no diff removes that. -/
theorem reconfigure_exact {env : Environment} {r : LocalRobot} {w : World}
    (hr : Reachable env r w) :
    (∀ c diff outcome r' w', diff.Sound r.graph →
      r.reconfigure env c diff w = (outcome, r', w') → Installs outcome →
      ∃ xs ys, Moved r.graph w diff xs ys r'.graph w') ∧
    ∀ k name (h : k.Handle) r' w', (r.graph.entries k).get? name = some h →
      Keeps env k name r w r' w' → (r'.graph.entries k).get? name = some h ∧
        ∃ x, r'.graph.backing? w' k name = some x ∧ w'.behind? (k.slot h) = some x := by
  constructor
  · intro c diff outcome r' w' hsound h hinstalls
    rcases moved_reconfigure hr.intact hsound h with ⟨⟨e, rfl, he⟩, -, -⟩ | hmoved
    · exact absurd (hinstalls e rfl) he
    · exact hmoved
  · intro k name h r' w' hh hrun
    have hkept := hrun.get? hr hh
    obtain ⟨x, hx⟩ := (hrun.reachable hr).intact.known k name h hkept
    exact ⟨hkept, x, Graph.backing?_eq_some_iff.mpr ⟨h, hkept, hx⟩, hx⟩

end LocalRobot

theorem Sample.diff_sound : Sample.diff.Sound Sample.started.1.graph where
  added := by decide +kernel
  modified := by decide +kernel
  removed := by decide +kernel
  added_modified := by decide +kernel
  added_removed := by decide +kernel
  modified_removed := by decide +kernel
  new := by decide +kernel
  modified_live := by decide +kernel
  removed_live := by decide +kernel

theorem LocalRobot.reconfigure_exact_sample :
    Reachable Sample.environment Sample.started.1 Sample.started.2 ∧
      ∃ xs ys, Moved Sample.started.1.graph Sample.started.2 Sample.diff xs ys
        Sample.reconfigured.2.1.graph Sample.reconfigured.2.2 := by
  have hreachable : Reachable Sample.environment Sample.started.1 Sample.started.2 :=
    .start Sample.start_eq
  exact ⟨hreachable, (reconfigure_exact hreachable).1 Sample.nextConfig Sample.diff (.ok ()) _ _
    Sample.diff_sound Sample.reconfigured_eq installs_ok⟩

end RobotHost
