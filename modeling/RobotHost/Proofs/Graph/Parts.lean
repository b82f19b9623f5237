import RobotHost.Graph.Close
import RobotHost.Proofs.Process.Managing

/-!
# The parts of a graph

A part of a graph is known by its *key*: its kind and its name. What a graph serves under a key is
what stands behind the handle it has there (`Graph.backing?`).

A graph is *intact* in a world if each of its handles is one of the world, no handle stands under
two keys, and remote robots and processes stand under the names they have themselves. The graph of
every local robot is intact, whatever was done to it.
-/

namespace RobotHost

/-! ## Keys -/

namespace Graph

/-- The keys of the parts of some kinds, kind by kind. -/
def keysOf (ks : List Kind) (g : Graph) : List (Kind × String) :=
  ks.flatMap fun k => (g.entries k).names.map fun name => (k, name)

/-- The keys of all parts, in the order in which parts are closed. -/
def keys (g : Graph) : List (Kind × String) := keysOf Kind.closing g

theorem mem_keysOf {ks : List Kind} {g : Graph} {k : Kind} {name : String} :
    (k, name) ∈ keysOf ks g ↔ k ∈ ks ∧ ∃ h, (g.entries k).get? name = some h := by
  simp only [keysOf, List.mem_flatMap, List.mem_map, Prod.mk.injEq, ← NameMap.mem_names_iff]
  constructor
  · rintro ⟨_, hk, _, hname, rfl, rfl⟩
    exact ⟨hk, hname⟩
  · rintro ⟨hk, hname⟩
    exact ⟨k, hk, name, hname, rfl, rfl⟩

theorem mem_keys {g : Graph} {k : Kind} {name : String} :
    (k, name) ∈ g.keys ↔ ∃ h, (g.entries k).get? name = some h := by
  simp [keys, mem_keysOf, Kind.mem_closing]

theorem get?_eq_none {g : Graph} {k : Kind} {name : String} (hkey : (k, name) ∉ g.keys) :
    (g.entries k).get? name = none := by
  cases hh : (g.entries k).get? name with
  | none => rfl
  | some h => exact absurd (mem_keys.mpr ⟨h, hh⟩) hkey

/-- Keys are distinct, as kinds are and names of one kind are. -/
theorem nodup_keysOf {ks : List Kind} (hks : ks.Nodup) (g : Graph) : (keysOf ks g).Nodup := by
  refine List.pairwise_flatMap.mpr ⟨fun k _ => ?_, hks.imp ?_⟩
  · refine List.Pairwise.map _ (fun name other hne heq => hne ?_) (g.entries k).nodup_names
    exact (Prod.mk.inj heq).2
  · intro k other hne x hx y hy heq
    obtain ⟨_, -, rfl⟩ := List.mem_map.mp hx
    obtain ⟨_, -, rfl⟩ := List.mem_map.mp hy
    exact hne (Prod.mk.inj heq).1

theorem nodup_keys (g : Graph) : g.keys.Nodup := nodup_keysOf (by decide) g

/-- The order of the kinds makes no difference to what keys there are. -/
theorem keysOf_listed_perm (g : Graph) : (keysOf Kind.listed g).Perm g.keys := by
  refine (List.perm_ext_iff_of_nodup (nodup_keysOf (by decide) g) (nodup_keys g)).mpr fun key => ?_
  obtain ⟨k, name⟩ := key
  simp [mem_keys, mem_keysOf, Kind.mem_listed]

/-! ## What is served -/

/-- What a graph serves under a key. -/
def backing? (g : Graph) (w : World) (k : Kind) (name : String) : Option Backing :=
  ((g.entries k).get? name).bind fun h => w.behind? (k.slot h)

/-- A part is backed by what stands behind its handle. -/
theorem backing?_eq_some_iff {g : Graph} {w : World} {k : Kind} {name : String} {x : Backing} :
    g.backing? w k name = some x ↔
      ∃ h, (g.entries k).get? name = some h ∧ w.behind? (k.slot h) = some x :=
  Option.bind_eq_some_iff

/-- What has to be closed of what a graph serves under a key. -/
def resource? (g : Graph) (w : World) (key : Kind × String) : Option Resource :=
  (g.backing? w key.1 key.2).map Backing.resource

/-- The resources that a graph holds, in the order in which they are closed. -/
def resources (g : Graph) (w : World) : List Resource := g.keys.filterMap (g.resource? w)

/-- The resources of a graph are those that back its parts. -/
theorem mem_resources {g : Graph} {w : World} {x : Resource} :
    x ∈ g.resources w ↔ ∃ k name b, g.backing? w k name = some b ∧ b.resource = x := by
  constructor
  · intro hx
    obtain ⟨⟨k, name⟩, -, hkey⟩ := List.mem_filterMap.mp hx
    obtain ⟨b, hb, rfl⟩ := Option.map_eq_some_iff.mp hkey
    exact ⟨k, name, b, hb, rfl⟩
  · rintro ⟨k, name, b, hb, rfl⟩
    obtain ⟨h, hh, -⟩ := backing?_eq_some_iff.mp hb
    exact List.mem_filterMap.mpr ⟨(k, name), mem_keys.mpr ⟨h, hh⟩,
      Option.map_eq_some_iff.mpr ⟨b, hb, rfl⟩⟩

/-- Whatever keys are asked for, what is found is held. -/
theorem mem_resources_of_mem_filterMap {g : Graph} {w : World} {keys : List (Kind × String)}
    {x : Resource} (hx : x ∈ keys.filterMap (g.resource? w)) : x ∈ g.resources w := by
  obtain ⟨⟨k, name⟩, -, hkey⟩ := List.mem_filterMap.mp hx
  obtain ⟨b, hb, rfl⟩ := Option.map_eq_some_iff.mp hkey
  exact mem_resources.mpr ⟨k, name, b, hb, rfl⟩

/-- The resources of a graph can be read off any list of its keys. -/
theorem resources_perm {g : Graph} {keys : List (Kind × String)} (hkeys : keys.Nodup)
    (hmem : ∀ key, key ∈ g.keys ↔ key ∈ keys) (w : World) :
    (g.resources w).Perm (keys.filterMap (g.resource? w)) :=
  ((List.perm_ext_iff_of_nodup (nodup_keys g) hkeys).mpr hmem).filterMap _

/-- If a graph holds no resource twice, a resource tells the key. -/
theorem eq_of_resource_eq {g : Graph} {w : World} (hnodup : (g.resources w).Nodup) {k k' : Kind}
    {name name' : String} {x x' : Backing} (hx : g.backing? w k name = some x)
    (hx' : g.backing? w k' name' = some x') (heq : x.resource = x'.resource) :
    (k, name) = (k', name') := by
  have hkey : ∀ {k name x}, g.backing? w k name = some x → (k, name) ∈ g.keys := by
    intro k name x hx
    obtain ⟨h, hh, -⟩ := backing?_eq_some_iff.mp hx
    exact mem_keys.mpr ⟨h, hh⟩
  by_contra hne
  -- the resource of the first key comes first, and cannot come again
  have hfirst := ((List.perm_cons_erase (hkey hx)).filterMap (g.resource? w)).nodup_iff.mp hnodup
  rw [List.filterMap_cons_some (b := x.resource) (by rw [resource?, hx, Option.map_some]),
    List.nodup_cons] at hfirst
  refine hfirst.1 (List.mem_filterMap.mpr ⟨(k', name'), ?_, ?_⟩)
  · exact (List.mem_erase_of_ne fun h => hne h.symm).mpr (hkey hx')
  · rw [resource?, hx', Option.map_some, heq]

/-- Where nothing has moved behind handles the resources are the same. -/
theorem resources_congr (g : Graph) {w w' : World} (h : ∀ s, w'.behind? s = w.behind? s) :
    g.resources w' = g.resources w := by
  unfold resources
  refine List.filterMap_congr fun key _ => ?_
  simp only [resource?, backing?, h]

/-! ## Intact graphs -/

structure Intact (w : World) (g : Graph) : Prop where
  known : ∀ k name h, (g.entries k).get? name = some h → ∃ x, w.behind? (k.slot h) = some x
  apart : ∀ k name h k' name' h', (g.entries k).get? name = some h →
    (g.entries k').get? name' = some h' → k.slot h = k'.slot h' → k = k' ∧ name = name'
  remoteNamed : ∀ k name h remote, (g.entries k).get? name = some h →
    w.behind? (k.slot h) = some (.remote remote) → remote.config.name = name
  processNamed : g.manager.Keyed w

/-- Whatever happens elsewhere, what a graph has is left alone. -/
structure Spared (g : Graph) (w w' : World) : Prop where
  behind : ∀ k name h, (g.entries k).get? name = some h →
    w'.behind? (k.slot h) = w.behind? (k.slot h)
  processes : ∀ p q, w.processes.get? p = some q →
    ∃ q', w'.processes.get? p = some q' ∧ q'.id = q.id

section Spared

variable {w w' : World} {g : Graph}

/-- A graph that is left alone stays intact. -/
theorem Intact.spared (hg : g.Intact w) (h : g.Spared w w') : g.Intact w' where
  known := by
    intro k name x hx
    rw [h.behind k name x hx]
    exact hg.known k name x hx
  apart := hg.apart
  remoteNamed := by
    intro k name x remote hx hr
    rw [h.behind k name x hx] at hr
    exact hg.remoteNamed k name x remote hx hr
  processNamed := hg.processNamed.mono h.processes

theorem Spared.backing?_eq (h : g.Spared w w') (k : Kind) (name : String) :
    g.backing? w' k name = g.backing? w k name := by
  unfold backing?
  cases hh : (g.entries k).get? name with
  | none => rfl
  | some x =>
    rw [Option.bind_some, Option.bind_some]
    exact h.behind k name x hh

/-- As long as nothing is exchanged, intact graphs are left alone. -/
theorem Intact.of_recalls (hg : g.Intact w) (hw : w.Recalls w') : g.Spared w w' where
  behind := by
    intro k name x hx
    obtain ⟨y, hy⟩ := hg.known k name x hx
    rw [hw.behind _ _ hy, hy]
  processes := hw.processes

/-- A graph stays intact in a world that recalls what stood behind its handles. -/
theorem Intact.recalls (hg : g.Intact w) (hw : w.Recalls w') : g.Intact w' :=
  hg.spared (hg.of_recalls hw)

end Spared

/-- What an intact graph serves stays, as long as nothing is exchanged. -/
theorem Intact.backing?_recalls {w w' : World} {g : Graph} (hg : g.Intact w) (hw : w.Recalls w')
    (k : Kind) (name : String) : g.backing? w' k name = g.backing? w k name :=
  (hg.of_recalls hw).backing?_eq k name

/-- An intact graph has the same resources in a world that recalls them. -/
theorem Intact.resources_recalls {w w' : World} {g : Graph} (hg : g.Intact w) (hw : w.Recalls w') :
    g.resources w' = g.resources w := by
  unfold resources
  refine List.filterMap_congr fun key _ => ?_
  rw [resource?, resource?, hg.backing?_recalls hw]

/-- Functions and processes have no part in what the entries are. -/
@[simp]
theorem entries_with (g : Graph) (f : NameSet) (m : ProcessManager) (k : Kind) :
    ({ g with functions := f, manager := m } : Graph).entries k = g.entries k := by
  match k with
  | .remote | .driver .board | .driver .sensor | .driver (.part _) => rfl

theorem entries_empty (k : Kind) : ({} : Graph).entries k = .empty := by
  match k with
  | .remote | .driver .board | .driver .sensor => rfl
  | .driver (.part p) => cases p <;> rfl

/-- Functions and processes can be exchanged in an intact graph. -/
theorem Intact.with {w : World} {g : Graph} (hg : g.Intact w) (f : NameSet) {m : ProcessManager}
    (hm : m.Keyed w) : Intact w { g with functions := f, manager := m } where
  known := by
    intro k name h hh
    rw [entries_with] at hh
    exact hg.known k name h hh
  apart := by
    intro k name h k' name' h' hh hh'
    rw [entries_with] at hh hh'
    exact hg.apart k name h k' name' h' hh hh'
  remoteNamed := by
    intro k name h remote hh
    rw [entries_with] at hh
    exact hg.remoteNamed k name h remote hh
  processNamed := hm

theorem intact_empty (w : World) : ({} : Graph).Intact w where
  known := by
    intro k name h hh
    rw [entries_empty] at hh
    cases hh
  apart := by
    intro k name h _ _ _ hh
    rw [entries_empty] at hh
    cases hh
  remoteNamed := by
    intro k name h _ hh
    rw [entries_empty] at hh
    cases hh
  processNamed := ProcessManager.keyed_empty w

/-! ## One part more -/

/-- What holds of the new handle and of the others holds of all handles afterwards. -/
theorem forall_entries_insert {g : Graph} {k : Kind} {name : String} {h : k.Handle}
    {P : (k : Kind) → String → k.Handle → Prop} (hnew : P k name h)
    (hold : ∀ k' name' h', (k', name') ≠ (k, name) → (g.entries k').get? name' = some h' →
      P k' name' h')
    (k' : Kind) (name' : String) (h' : k'.Handle)
    (hh : ((g.insert k name h).entries k').get? name' = some h') : P k' name' h' := by
  by_cases hk : k' = k
  · subst hk
    rw [entries_insert_self, NameMap.get?_insert] at hh
    split at hh
    · next hname =>
      cases hh
      subst hname
      exact hnew
    · next hname =>
      refine hold k' name' h' (fun heq => hname ?_) hh
      exact (Prod.mk.inj heq).2.symm
  · rw [entries_insert_of_ne g name h hk] at hh
    exact hold k' name' h' (fun heq => hk (Prod.mk.inj heq).1) hh

/-- A new part adds its key, unless it takes the place of another. -/
theorem mem_keys_insert {g : Graph} {k : Kind} {name : String} {h : k.Handle}
    {key : Kind × String} : key ∈ (g.insert k name h).keys ↔ key = (k, name) ∨ key ∈ g.keys := by
  obtain ⟨k', name'⟩ := key
  rw [mem_keys, mem_keys]
  by_cases hk : k' = k
  · subst hk
    rw [entries_insert_self]
    simp only [NameMap.get?_insert, Prod.mk.injEq, true_and]
    by_cases hname : name = name'
    · simp [hname]
    · have hname' : ¬name' = name := fun h => hname h.symm
      simp [hname, hname']
  · rw [entries_insert_of_ne g name h hk]
    simp [hk]

/-- A handle in a slot that was empty leaves an intact graph intact. -/
theorem Intact.insert {w w' : World} {g : Graph} (hg : g.Intact w) (hw : w.Recalls w') {k : Kind}
    {name : String} {h : k.Handle} {x : Backing} (hempty : w.behind? (k.slot h) = none)
    (hx : w'.behind? (k.slot h) = some x) (hnamed : ∀ remote, x = .remote remote →
      remote.config.name = name) : (g.insert k name h).Intact w' where
  known := forall_entries_insert ⟨x, hx⟩ fun k' name' h' _ hh' =>
    (hg.recalls hw).known k' name' h' hh'
  apart := by
    -- no other part has the slot, as it was empty
    have hother : ∀ k' name' (h' : k'.Handle), (g.entries k').get? name' = some h' →
        k'.slot h' ≠ k.slot h := by
      intro k' name' h' hh' heq
      obtain ⟨y, hy⟩ := hg.known k' name' h' hh'
      rw [heq, hempty] at hy
      cases hy
    -- each of the two parts is the new one or one of before
    intro k₁ name₁ h₁ k₂ name₂ h₂ hh₁
    revert k₁ name₁ h₁
    refine forall_entries_insert ?_ ?_
    · revert k₂ name₂ h₂
      refine forall_entries_insert ?_ ?_
      · exact fun _ => ⟨rfl, rfl⟩
      · exact fun k₂ name₂ h₂ _ hh₂ heq => absurd heq.symm (hother k₂ name₂ h₂ hh₂)
    · intro k₁ name₁ h₁ _ hh₁
      revert k₂ name₂ h₂
      refine forall_entries_insert ?_ ?_
      · exact fun heq => absurd heq (hother k₁ name₁ h₁ hh₁)
      · exact fun k₂ name₂ h₂ _ hh₂ heq => hg.apart k₁ name₁ h₁ k₂ name₂ h₂ hh₁ hh₂ heq
  remoteNamed := by
    refine fun k' name' h' remote hh' => ?_
    revert k' name' h'
    refine forall_entries_insert ?_ ?_
    · intro hr
      rw [hx] at hr
      cases hr
      exact hnamed remote rfl
    · exact fun k' name' h' _ hh' => (hg.recalls hw).remoteNamed k' name' h' remote hh'
  processNamed := by
    rw [manager_insert]
    exact hg.processNamed.recalls hw

end Graph

end RobotHost
