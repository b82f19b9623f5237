import Mathlib.Data.List.Nodup
import RobotHost.Proofs.Graph.Steps

/-!
# What a build comes to

Wherever a build from nothing ends, it has made *progress*: the processes were seen to, some items
were delivered one after the other, and some may have been refused (`Progress`). By induction on it,
the graph is intact, its handles are new to the world, each stands for something that was delivered
under its key, its processes are new as well, and the ledger shows these deliveries and nothing that
was closed or stopped (`Progress.built`).

A build that succeeds had all items delivered (`Build.staged_ok`), one that fails had the first few
(`Build.staged_error`).
-/

namespace RobotHost

/-! ## Progress -/

/-- The sites that a build passes, each with what was delivered up to there. -/
inductive Progress (env : Environment) (w : World) : List Delivery → Site → Prop
  | staffed {s : Site} (h : Build.Staffed ⟨{}, w⟩ s) : Progress env w [] s
  | delivered {xs : List Delivery} {x : Delivery} {s s' : Site} (hs : Progress env w xs s)
    (h : Delivered env s x s') : Progress env w (xs ++ [x]) s'
  | refused {xs : List Delivery} {s s' : Site} (hs : Progress env w xs s) (h : Refused s s') :
    Progress env w xs s'
  | named {xs : List Delivery} {s : Site} (hs : Progress env w xs s) (functions : NameSet) :
    Progress env w xs { s with graph := { s.graph with functions := functions } }

/-- What holds of a graph that was built, as far as it got. -/
structure Built (w : World) (xs : List Delivery) (s : Site) : Prop where
  world : w.Extends s.world
  intact : s.graph.Intact s.world
  fresh : ∀ k name h, (s.graph.entries k).get? name = some h → w.behind? (k.slot h) = none
  serves : ∀ k name h, (s.graph.entries k).get? name = some h →
    ∃ x ∈ xs, x.key = (k, name) ∧ s.world.behind? (k.slot h) = some x.backing
  keys : ∀ x ∈ xs, x.key ∈ s.graph.keys
  hired : ∀ id p, s.graph.manager.get? id = some p → w.processes.get? p = none
  deliveries : s.world.deliveries = w.deliveries ++ xs.map Delivery.event
  closings : s.world.closings = w.closings
  stoppings : s.world.stoppings = w.stoppings

namespace Built

variable {env : Environment} {w : World} {xs : List Delivery} {s s' : Site}

theorem staffed (h : Build.Staffed ⟨{}, w⟩ s) : Built w [] s := by
  have hentries : ∀ k, s.graph.entries k = .empty := by
    intro k
    rw [h.graph]
    exact (Graph.entries_with {} .empty s.graph.manager k).trans (Graph.entries_empty k)
  -- to start processes delivers, closes and stops nothing
  have hplain : World.Logs Event.Plain w s.world := h.log.mono fun _ => Event.OfStart.plain
  refine ⟨h.world, ?_, ?_, ?_, by simp, ?_, ?_, (hplain.mono fun _ he => he.closes).closings,
    (hplain.mono fun _ he => he.stops).stoppings⟩
  · rw [h.graph]
    exact (Graph.intact_empty s.world).with .empty (h.keyed (ProcessManager.keyed_empty w))
  · intro k name x hx
    rw [hentries] at hx
    cases hx
  · intro k name x hx
    rw [hentries] at hx
    cases hx
  · intro id p hp
    rcases h.hired id p hp with hp | hnone
    · cases hp
    · exact hnone
  · rw [(hplain.mono fun _ he => he.delivers).deliveries, List.map_nil, List.append_nil]

/-- A delivery is built into the graph, as its last so far. -/
theorem delivered (hs : Built w xs s) {x : Delivery} (hx : Delivered env s x s') :
    Built w (xs ++ [x]) s' := by
  obtain ⟨h, hgraph, hempty, hbehind⟩ := hx.handle
  -- a remote robot is put in under its own name
  have hnamed : ∀ remote, x.backing = .remote remote → remote.config.name = x.name := by
    intro remote hremote
    cases x with
    | remote c connection =>
      cases hremote
      rfl
    | driver name b d => cases hremote
  have hcloses : World.Logs (fun e => e.closes? = none) s.world s'.world :=
    ⟨[x.event], hx.log, by simp⟩
  have hstops : World.Logs (fun e => e.stops? = none) s.world s'.world :=
    ⟨[x.event], hx.log, by simp⟩
  refine ⟨hs.world.trans hx.world, ?_, ?_, ?_, ?_, ?_, ?_, hcloses.closings.trans hs.closings,
    hstops.stoppings.trans hs.stoppings⟩
  · rw [hgraph]
    exact hs.intact.insert hx.world.toRecalls hempty hbehind hnamed
  · rw [hgraph]
    exact Graph.forall_entries_insert (hs.world.empty hempty) fun k name h' _ hh' =>
      hs.fresh k name h' hh'
  · rw [hgraph]
    refine Graph.forall_entries_insert ⟨x, by simp, rfl, hbehind⟩ fun k name h' _ hh' => ?_
    obtain ⟨y, hy, hkey, hbacking⟩ := hs.serves k name h' hh'
    exact ⟨y, List.mem_append_left _ hy, hkey, hx.world.behind _ _ hbacking⟩
  · intro y hy
    rw [hgraph, Graph.mem_keys_insert]
    rcases List.mem_append.mp hy with hy | hy
    · exact Or.inr (hs.keys y hy)
    · exact Or.inl (congrArg Delivery.key (List.mem_singleton.mp hy))
  · rw [hgraph, Graph.manager_insert]
    exact hs.hired
  · rw [World.deliveries_of_log hx.log x.delivers?_event, hs.deliveries, List.map_append,
      List.append_assoc, List.map_singleton]

/-- A refusal leaves what was built. -/
theorem refused (hs : Built w xs s) (h : Refused s s') : Built w xs s' where
  world := hs.world.trans h.world
  intact := by
    rw [h.graph]
    exact hs.intact.recalls h.world.toRecalls
  fresh := by
    rw [h.graph]
    exact hs.fresh
  -- the graph is as it was, and what stood behind its handles still does
  serves := by
    intro k name x hx
    rw [h.graph] at hx
    obtain ⟨y, hy, hkey, hbacking⟩ := hs.serves k name x hx
    exact ⟨y, hy, hkey, h.world.behind _ _ hbacking⟩
  keys := by
    rw [h.graph]
    exact hs.keys
  hired := by
    rw [h.graph]
    exact hs.hired
  deliveries := (h.log.mono fun _ he => he.delivers).deliveries.trans hs.deliveries
  closings := (h.log.mono fun _ he => he.closes).closings.trans hs.closings
  stoppings := (h.log.mono fun _ he => he.stops).stoppings.trans hs.stoppings

theorem named (hs : Built w xs s) (functions : NameSet) :
    Built w xs { s with graph := { s.graph with functions := functions } } where
  world := hs.world
  intact := hs.intact.with functions hs.intact.processNamed
  fresh := hs.fresh
  serves := hs.serves
  keys := hs.keys
  hired := hs.hired
  deliveries := hs.deliveries
  closings := hs.closings
  stoppings := hs.stoppings

end Built

/-- What every step of a build keeps up holds wherever it ends. -/
theorem Progress.built {env : Environment} {w : World} {xs : List Delivery} {s : Site}
    (h : Progress env w xs s) : Built w xs s := by
  induction h with
  | staffed h => exact .staffed h
  | delivered _ h ih => exact ih.delivered h
  | refused _ h ih => exact ih.refused h
  | named _ functions ih => exact ih.named functions

/-- All that was delivered in a build is what the environment answered in its course. -/
theorem Progress.answered {env : Environment} {w : World} {xs : List Delivery} {s : Site}
    (h : Progress env w xs s) : ∀ x ∈ xs, ∃ u u', w.Extends u ∧ x.AnsweredBy env u u' := by
  induction h with
  | staffed => simp
  | delivered hs h ih =>
    intro x hx
    rcases List.mem_append.mp hx with hx | hx
    · exact ih x hx
    · rw [List.mem_singleton.mp hx]
      exact ⟨_, _, hs.built.world, h.answer⟩
  | refused _ _ ih => exact ih
  | named _ _ ih => exact ih

/-! ## One delivery for each key -/

/-- If a graph has just the keys of some deliveries and serves these, they are what it holds. -/
theorem Graph.resources_perm_of_backed {g : Graph} {w : World} {xs : List Delivery}
    (hkeys : (xs.map Delivery.key).Nodup) (hmem : ∀ key, key ∈ g.keys ↔ key ∈ xs.map Delivery.key)
    (hbacked : ∀ x ∈ xs, g.backing? w x.kind x.name = some x.backing) :
    (g.resources w).Perm (xs.map Delivery.resource) := by
  have hfound : (xs.map Delivery.key).filterMap (g.resource? w) = xs.map Delivery.resource := by
    rw [List.filterMap_map, ← List.filterMap_eq_map]
    refine List.filterMap_congr fun x hx => ?_
    show (g.backing? w x.kind x.name).map _ = some x.resource
    rw [hbacked x hx]
    rfl
  rw [← hfound]
  exact Graph.resources_perm hkeys hmem w

namespace Built

variable {w : World} {xs : List Delivery} {s : Site}

/-- If the keys are distinct, each delivery is what the graph serves under its key. -/
theorem served (h : Built w xs s) (hkeys : (xs.map Delivery.key).Nodup) {x : Delivery}
    (hx : x ∈ xs) : s.graph.backing? s.world x.kind x.name = some x.backing := by
  obtain ⟨handle, hhandle⟩ := Graph.mem_keys.mp (h.keys x hx)
  obtain ⟨y, hy, hkey, hbacking⟩ := h.serves _ _ handle hhandle
  -- the handle stands for something delivered under this key, and only one thing was
  have hyx : y = x := List.inj_on_of_nodup_map hkeys hy hx hkey
  subst hyx
  exact Graph.backing?_eq_some_iff.mpr ⟨handle, hhandle, hbacking⟩

/-- The graph has a part under each key that something was delivered for, and no other. -/
theorem mem_keys_iff (h : Built w xs s) {key : Kind × String} :
    key ∈ s.graph.keys ↔ key ∈ xs.map Delivery.key := by
  obtain ⟨k, name⟩ := key
  constructor
  · intro hkey
    obtain ⟨handle, hhandle⟩ := Graph.mem_keys.mp hkey
    obtain ⟨x, hx, hxkey, -⟩ := h.serves k name handle hhandle
    exact List.mem_map.mpr ⟨x, hx, hxkey⟩
  · intro hkey
    obtain ⟨x, hx, hxkey⟩ := List.mem_map.mp hkey
    rw [← hxkey]
    exact h.keys x hx

/-- The processes of the graph are new. -/
theorem new_process (h : Built w xs s) {p : Ref .process}
    (hp : p ∈ s.graph.manager.processes.values) : w.processes.get? p = none := by
  obtain ⟨id, hid⟩ := (NameMap.mem_values_iff _).mp hp
  exact h.hired id p hid

/-- What the graph holds was delivered. -/
theorem mem_delivered (h : Built w xs s) {x : Resource} (hx : x ∈ s.graph.resources s.world) :
    x ∈ xs.map Delivery.resource := by
  obtain ⟨k, name, b, hb, rfl⟩ := Graph.mem_resources.mp hx
  obtain ⟨handle, hhandle, hbehind⟩ := Graph.backing?_eq_some_iff.mp hb
  obtain ⟨y, hy, -, hbacking⟩ := h.serves k name handle hhandle
  rw [hbacking] at hbehind
  cases hbehind
  exact List.mem_map_of_mem hy

/-- If the keys are distinct, the graph holds what was delivered. -/
theorem resources_perm (h : Built w xs s) (hkeys : (xs.map Delivery.key).Nodup) :
    (s.graph.resources s.world).Perm (xs.map Delivery.resource) :=
  Graph.resources_perm_of_backed hkeys (fun _ => h.mem_keys_iff) fun _ hx => h.served hkeys hx

end Built

/-- Deliveries go to the keys of their items. -/
theorem keys_of_delivers {items : List Item} {xs : List Delivery}
    (h : List.Forall₂ Item.Delivers items xs) :
    items.filterMap Item.key? = xs.map Delivery.key := by
  induction h with
  | nil => rfl
  | cons hx _ ih => rw [List.filterMap_cons_some hx.key, ih, List.map_cons]

/-- The first few items have distinct keys if all have. -/
theorem nodup_keys_of_begun {items done : List Item} {xs : List Delivery}
    (hdone : done <+: items) (hxs : List.Forall₂ Item.Delivers done xs)
    (hkeys : (items.filterMap Item.key?).Nodup) : (xs.map Delivery.key).Nodup := by
  rw [← keys_of_delivers hxs]
  exact hkeys.sublist (hdone.sublist.filterMap _)

/-! ## Whole builds -/

namespace Build

variable {env : Environment} {w : World} {s : Site}

/-- A build in three stages: processes, items, functions. -/
def staged (env : Environment) (ps : List ProcessConfig) (items : List Item)
    (fs : List FunctionConfig) : Build Unit := do
  processes env ps
  each (Item.build env) items
  functions fs

/-- A configuration is built in three stages: its processes, its items, and its functions. -/
theorem config_eq (c : Config) :
    config env c = staged env c.processes c.items c.functions := by
  simp only [config, staged, Config.items, each_append, each_map, components, bind_assoc]
  rfl

theorem modified_eq (m : ModifiedConfig) :
    modified env m = staged env m.processes m.items m.functions := by
  -- settings at fault end the build at the item, just as they do at the board
  have hboard : ∀ e : String × BoardConfigDiff,
      Item.build env (.board e.1 e.2.toConfig) = modifiedBoard env e.1 e.2 := by
    intro e
    unfold modifiedBoard
    cases e.2.toConfig <;> rfl
  simp only [modified, staged, ModifiedConfig.items, each_append, each_map, components, bind_assoc,
    hboard]
  rfl

/-- What a build that succeeds has made, given all that was delivered. -/
structure Complete (env : Environment) (w : World) (ps : List ProcessConfig) (items : List Item)
    (fs : List FunctionConfig) (xs : List Delivery) (s : Site) : Prop where
  progress : Progress env w xs s
  items : List.Forall₂ Item.Delivers items xs
  functions : ∀ name, name ∈ s.graph.functions.names ↔ name ∈ fs.map FunctionConfig.name
  processes : ∀ id, id ∈ s.graph.manager.processes.names ↔ id ∈ ps.map ProcessConfig.id

/-- Item by item, what was delivered goes by the key of the item. -/
theorem Complete.keys {ps : List ProcessConfig} {items : List Item} {fs : List FunctionConfig}
    {xs : List Delivery} (h : Complete env w ps items fs xs s) :
    items.filterMap Item.key? = xs.map Delivery.key :=
  keys_of_delivers h.items

/-- Items that are built in turn add deliveries, and leave functions and processes alone. -/
theorem items_step {m : ProcessManager} {f : NameSet} (done : List Item) (i : Item) (t u : Site)
    (ht : (∃ xs, List.Forall₂ Item.Delivers done xs ∧ Progress env w xs t) ∧
      t.graph.manager = m ∧ t.graph.functions = f) (hi : i.build env t = .ok () u) :
    (∃ xs, List.Forall₂ Item.Delivers (done ++ [i]) xs ∧ Progress env w xs u) ∧
      u.graph.manager = m ∧ u.graph.functions = f := by
  obtain ⟨⟨xs, hxs, hprogress⟩, hm, hf⟩ := ht
  obtain ⟨x, hx, hdelivered⟩ := Item.build_ok hi
  obtain ⟨h, hgraph, -, -⟩ := hdelivered.handle
  refine ⟨⟨xs ++ [x], List.rel_append hxs (.cons hx .nil), hprogress.delivered hdelivered⟩, ?_, ?_⟩
  · rw [hgraph, Graph.manager_insert, hm]
  · rw [hgraph, Graph.functions_insert, hf]

/-- A build that succeeds has delivered something for each item. -/
theorem staged_ok {ps : List ProcessConfig} {items : List Item} {fs : List FunctionConfig}
    (h : staged env ps items fs ⟨{}, w⟩ = .ok () s) : ∃ xs, Complete env w ps items fs xs s := by
  obtain ⟨_, t, hps, h⟩ := bind_eq_ok.mp h
  obtain ⟨_, u, hitems, hfs⟩ := bind_eq_ok.mp h
  have hstaffed := (processes_staffed env ps).of_ok hps
  have hstart : t.graph.functions = .empty := by rw [hstaffed.graph]
  obtain ⟨⟨xs, hxs, hprogress⟩, hm, hf⟩ := each_ok (items_step (m := t.graph.manager))
    ⟨⟨[], .nil, .staffed hstaffed⟩, rfl, hstart⟩ hitems
  -- naming the functions touches nothing else
  have hnamed : s = { u with graph := { u.graph with functions := s.graph.functions } } ∧
      ∀ name, name ∈ s.graph.functions.names ↔ name ∈ fs.map FunctionConfig.name := by
    refine each_ok (P := fun done v =>
      v = { u with graph := { u.graph with functions := v.graph.functions } } ∧
        ∀ name, name ∈ v.graph.functions.names ↔ name ∈ done.map FunctionConfig.name) ?_ ?_ hfs
    · rintro done c v v' ⟨hv, hnames⟩ hstep
      cases hstep
      refine ⟨by rw [hv]; rfl, fun name => ?_⟩
      show name ∈ (v.graph.functions.insert c.name ()).names ↔ _
      rw [NameMap.mem_names_insert, hnames, List.map_append, List.mem_append, List.map_singleton,
        List.mem_singleton, or_comm]
    · refine ⟨rfl, fun name => ?_⟩
      rw [hf]
      simp [NameMap.names, NameMap.empty]
  refine ⟨xs, ?_, hxs, hnamed.2, fun id => ?_⟩
  · rw [hnamed.1]
    exact hprogress.named _
  · rw [hnamed.1]
    show id ∈ u.graph.manager.processes.names ↔ _
    rw [hm, processes_ok hps]
    simp [NameMap.names, NameMap.empty]

/-- A build that fails has delivered something for each item before the one it failed at, and its
error is none of closing. -/
theorem staged_error {ps : List ProcessConfig} {items : List Item} {fs : List FunctionConfig}
    {e : RobotError} (h : staged env ps items fs ⟨{}, w⟩ = .error e s) :
    ¬e.OfTeardown ∧ ∃ done xs, done <+: items ∧ List.Forall₂ Item.Delivers done xs ∧
      Progress env w xs s := by
  rcases bind_eq_error.mp h with hps | ⟨_, t, hps, h⟩
  · exact ⟨processes_error hps, [], [], List.nil_prefix, .nil,
      .staffed ((processes_staffed env ps).of_error hps)⟩
  rcases bind_eq_error.mp h with hitems | ⟨_, u, -, hfs⟩
  · have hstaffed := (processes_staffed env ps).of_ok hps
    obtain ⟨done, i, u, hdone, ⟨⟨xs, hxs, hprogress⟩, -, -⟩, hi⟩ :=
      each_error (items_step (m := t.graph.manager) (f := t.graph.functions))
        ⟨⟨[], .nil, .staffed hstaffed⟩, rfl, rfl⟩ hitems
    obtain ⟨hrefused, he⟩ := Item.build_error hi
    exact ⟨he, done, xs, (List.prefix_append done [i]).trans hdone, hxs, hprogress.refused hrefused⟩
  · obtain ⟨_, c, v, -, -, hc⟩ := each_error (P := fun _ _ => True) (fun _ _ _ _ _ _ => trivial)
      trivial hfs
    cases hc

end Build

end RobotHost
