import RobotHost.Proofs.Robot.Handles

/-!
# Where resources go

When a diff that fits is installed, resources change hands. The keys of the running graph fall into
those that the diff leaves alone, modifies and removes, and so do its resources
(`Graph.resources_split`). Those of modified keys are retired (`Preparation.retired_perm`), those of
removed keys are selected (`Preparation.removed_perm`), and the rest stays with what was delivered
(`Moved.resources_perm`). So none is lost, and none is in two hands (`Preparation.balance`).
-/

namespace RobotHost

open LocalRobot (Moved)

/-- The keys of a graph that a diff leaves alone. -/
def Diff.kept (d : Diff) (g : Graph) : List (Kind × String) :=
  g.keys.filter fun key => key ∉ d.modified.keys ∧ key ∉ d.removed.keys

namespace Diff

variable {d : Diff} {g : Graph}

/-- A key is kept if it is live and neither modified nor removed. -/
theorem mem_kept {key : Kind × String} :
    key ∈ d.kept g ↔ key ∈ g.keys ∧ key ∉ d.modified.keys ∧ key ∉ d.removed.keys := by
  simp [kept]

theorem nodup_kept (d : Diff) (g : Graph) : (d.kept g).Nodup := g.nodup_keys.filter _

/-- Keys that a diff leaves alone are none of its own. -/
theorem nodup_kept_append {d : Diff} {keys : List (Kind × String)} (hkeys : keys.Nodup)
    (hapart : ∀ key ∈ keys, key ∉ d.kept g) : (d.kept g ++ keys).Nodup :=
  (nodup_kept d g).append hkeys fun key hkept hkey => hapart key hkey hkept

end Diff

/-- The resources of a graph by what a diff that fits does to their keys. -/
theorem Graph.resources_split {g : Graph} {diff : Diff} (hsound : diff.Sound g) (w : World) :
    (g.resources w).Perm ((diff.kept g).filterMap (g.resource? w) ++
      (diff.modified.keys.filterMap (g.resource? w) ++
        diff.removed.keys.filterMap (g.resource? w))) := by
  rw [← List.filterMap_append, ← List.filterMap_append]
  refine resources_perm (Diff.nodup_kept_append ?_ ?_) (fun key => ?_) w
  · exact hsound.modified.append hsound.removed fun key => hsound.modified_removed key
  · intro key hkey hkept
    obtain ⟨-, hmodified, hremoved⟩ := Diff.mem_kept.mp hkept
    rcases List.mem_append.mp hkey with hkey | hkey
    · exact hmodified hkey
    · exact hremoved hkey
  · rw [List.mem_append, List.mem_append, Diff.mem_kept]
    constructor
    · intro hkey
      by_cases hmodified : key ∈ diff.modified.keys
      · exact Or.inr (Or.inl hmodified)
      · by_cases hremoved : key ∈ diff.removed.keys
        · exact Or.inr (Or.inr hremoved)
        · exact Or.inl ⟨hkey, hmodified, hremoved⟩
    · rintro (⟨hkey, -⟩ | hkey | hkey)
      · exact hkey
      · exact hsound.modified_live key hkey
      · exact hsound.removed_live key hkey

/-- A part with a handle has the resource of what stands behind it. -/
theorem Graph.resource?_of_get? {g : Graph} {w : World} {k : Kind} {name : String} {h : k.Handle}
    (hh : (g.entries k).get? name = some h) :
    g.resource? w (k, name) = (w.behind? (k.slot h)).map Backing.resource := by
  show (((g.entries k).get? name).bind _).map _ = _
  rw [hh]
  rfl

/-- A graph that was moved holds what it kept and what was delivered for it. -/
theorem LocalRobot.Moved.resources_perm {g g' : Graph} {w w' : World} {diff : Diff}
    {xs ys : List Delivery} (hsound : diff.Sound g) (hm : Moved g w diff xs ys g' w') :
    (g'.resources w').Perm ((diff.kept g).filterMap (g.resource? w) ++
      (xs ++ ys).map Delivery.resource) := by
  have hadded : diff.added.keys = xs.map Delivery.key := keys_of_delivers hm.added_items
  have hmodified : diff.modified.keys = ys.map Delivery.key := keys_of_delivers hm.modified_items
  -- what is left alone holds what it held, and each delivery is served under its key
  have hkept : (diff.kept g).filterMap (g.resource? w) =
      (diff.kept g).filterMap (g'.resource? w') := by
    refine List.filterMap_congr fun key hkey => ?_
    obtain ⟨k, name⟩ := key
    obtain ⟨hkey, hmod, hrem⟩ := Diff.mem_kept.mp hkey
    obtain ⟨h, hh⟩ := Graph.mem_keys.mp hkey
    obtain ⟨hh', hbehind⟩ := hm.kept k name h hh hmod hrem
    rw [Graph.resource?_of_get? hh, Graph.resource?_of_get? hh', hbehind]
  have hserved : (xs ++ ys).map Delivery.resource =
      ((xs ++ ys).map Delivery.key).filterMap (g'.resource? w') := by
    rw [List.filterMap_map, ← List.filterMap_eq_map]
    refine List.filterMap_congr fun x hx => ?_
    have hbehind : ∃ h, (g'.entries x.kind).get? x.name = some h ∧
        w'.behind? (x.kind.slot h) = some x.backing := by
      rcases List.mem_append.mp hx with hx | hx
      · exact hm.added x hx
      · obtain ⟨h, -, hh, hbehind⟩ := hm.modified x hx
        exact ⟨h, hh, hbehind⟩
    obtain ⟨h, hh, hbehind⟩ := hbehind
    show some x.resource = g'.resource? w' (x.kind, x.name)
    rw [Graph.resource?_of_get? hh, hbehind]
    rfl
  rw [hkept, hserved, List.map_append, ← hadded, ← hmodified, ← List.filterMap_append]
  refine Graph.resources_perm (Diff.nodup_kept_append ?_ ?_) (fun key => ?_) w'
  · exact hsound.added.append hsound.modified fun key => hsound.added_modified key
  · intro key hkey hmem
    obtain ⟨hlive, hnot, -⟩ := Diff.mem_kept.mp hmem
    rcases List.mem_append.mp hkey with hkey | hkey
    · exact hsound.new key hkey hlive
    · exact hnot hkey
  · rw [hm.keys, List.mem_append, List.mem_append, Diff.mem_kept]
    constructor
    · rintro (⟨hkey, hremoved⟩ | hkey)
      · by_cases hmod : key ∈ diff.modified.keys
        · exact Or.inr (Or.inr hmod)
        · exact Or.inl ⟨hkey, hmod, hremoved⟩
      · exact Or.inr (Or.inl hkey)
    · rintro (⟨hkey, -, hremoved⟩ | hkey | hkey)
      · exact Or.inl ⟨hkey, hremoved⟩
      · exact Or.inr hkey
      · exact Or.inl ⟨hsound.modified_live key hkey, hsound.modified_removed key hkey⟩

namespace LocalRobot.Preparation

variable {env : Environment} {r : LocalRobot} {diff : Diff} {w w' : World} {draft : Draft}
  (p : Preparation env r diff w draft w')

/-- What was behind the handles of the parts that were modified. -/
def retired : List Resource :=
  (p.merged.exchanges p.modified.graph).filterMap (Exchange.retired? p.joined)

include p

/-- Whatever is retired is something that the running graph had. -/
theorem held_of_retired (hr : r.graph.Intact w) (hdiff : diff.Separate r.graph) {x : Resource}
    (hx : x ∈ p.retired) : x ∈ r.graph.resources w := by
  obtain ⟨⟨k, name, h, h'⟩, hexchange, hretired⟩ := List.mem_filterMap.mp hx
  obtain ⟨hlive, hnext⟩ := Graph.mem_exchanges.mp hexchange
  have hkey := p.mem_keys_modified.mp (Graph.mem_keys.mpr ⟨h', hnext⟩)
  -- what was just added is not modified, so the handle is one of the running graph
  rcases p.hmerged.get?_cases hlive with hadded | ⟨-, hlive⟩
  · have hadded := p.mem_keys_added.mp (Graph.mem_keys.mpr ⟨h, hadded⟩)
    exact absurd hkey (hdiff.added_modified _ hadded)
  · obtain ⟨b, hb⟩ := hr.known k name h hlive
    have htarget := (p.extends_modified.trans p.extends_joined).behind _ _ hb
    rw [Exchange.retired?, show p.joined.behind? (Exchange.target ⟨k, name, h, h'⟩) = some b from
      htarget] at hretired
    split at hretired
    · next old new hold hnew =>
      cases hold
      split at hretired
      · cases hretired
      · cases hretired
        exact Graph.mem_resources.mpr
          ⟨k, name, b, Graph.backing?_eq_some_iff.mpr ⟨h, hlive, hb⟩, rfl⟩
    · cases hretired

/-- What is retired is what the running graph had under the keys that the diff modifies, if none of
it is delivered again. -/
theorem retired_perm (hr : r.graph.Intact w) (hsound : diff.Sound r.graph)
    (hnew : ∀ y ∈ p.ys, y.resource ∉ r.graph.resources w) :
    p.retired.Perm (diff.modified.keys.filterMap (r.graph.resource? w)) := by
  have hkeys : diff.modified.keys = p.ys.map Delivery.key := p.hmodified.keys
  have hbuilt := p.hmodified.progress.built
  -- name by name, what is retired is what ran there, as what was delivered is another
  have hretired : p.retired = (Graph.keysOf Kind.listed p.modified.graph).filterMap
      (r.graph.resource? w) := by
    unfold retired Graph.exchanges
    rw [List.filterMap_filterMap]
    refine List.filterMap_congr fun key hkey => ?_
    have hkey : key ∈ diff.modified.keys :=
      p.mem_keys_modified.mp ((Graph.keysOf_listed_perm _).mem_iff.mp hkey)
    obtain ⟨y, hy, rfl⟩ := List.mem_map.mp (hkeys ▸ hkey)
    obtain ⟨h, hh⟩ := Graph.mem_keys.mp (hsound.modified_live _ hkey)
    obtain ⟨b, hb⟩ := hr.known _ _ h hh
    obtain ⟨h', hh', hbehind⟩ := Graph.backing?_eq_some_iff.mp
      (hbuilt.served (hkeys ▸ hsound.modified) hy)
    have hmerged : (p.merged.entries y.kind).get? y.name = some h := by
      have hnone : (p.added.graph.entries y.kind).get? y.name = none :=
        Graph.get?_eq_none fun hadded =>
          hsound.added_modified _ (p.mem_keys_added.mp hadded) hkey
      rw [p.hmerged.get?, hnone, Option.none_or, hh]
    have hexchange : Graph.exchange? p.merged p.modified.graph y.key =
        some ⟨y.kind, y.name, h, h'⟩ := Graph.exchange?_eq_some_iff.mpr ⟨rfl, hmerged, hh'⟩
    have htarget := (p.extends_modified.trans p.extends_joined).behind _ _ hb
    have hsource := p.extends_joined.behind _ _ hbehind
    have hlive : b.resource ∈ r.graph.resources w := Graph.mem_resources.mpr
      ⟨_, _, b, Graph.backing?_eq_some_iff.mpr ⟨h, hh, hb⟩, rfl⟩
    have hne : b.resource ≠ y.backing.resource := by
      intro heq
      rw [heq] at hlive
      exact hnew y hy hlive
    rw [hexchange]
    show Exchange.retired? p.joined ⟨y.kind, y.name, h, h'⟩ = r.graph.resource? w (y.kind, y.name)
    rw [Graph.resource?_of_get? hh, hb, Exchange.retired?,
      show p.joined.behind? (Exchange.target ⟨y.kind, y.name, h, h'⟩) = some b from htarget,
      show p.joined.behind? (Exchange.source ⟨y.kind, y.name, h, h'⟩) = some y.backing from hsource]
    exact if_neg hne
  rw [hretired]
  refine ((Graph.keysOf_listed_perm _).trans ?_).filterMap _
  exact (List.perm_ext_iff_of_nodup (Graph.nodup_keys _) hsound.modified).mpr fun _ =>
    p.mem_keys_modified

/-- No exchange touches what a handle of a removed part stands for. -/
theorem behind?_removed (hr : r.graph.Intact w) (hdiff : diff.Separate r.graph) {k : Kind}
    {name : String} {h : k.Handle} (hh : (draft.removed.entries k).get? name = some h) :
    w'.behind? (k.slot h) = p.selected.behind? (k.slot h) := by
  have hkey := p.hselected.named _ (Graph.mem_keys.mpr ⟨h, hh⟩)
  have hother : ∀ x ∈ p.merged.exchanges p.modified.graph, k.slot h ≠ x.target := by
    intro x hx heq
    obtain ⟨hlive, hnext⟩ := Graph.mem_exchanges.mp hx
    have hmod := p.mem_keys_modified.mp (Graph.mem_keys.mpr ⟨_, hnext⟩)
    have hadded := p.hadded.progress.built
    have hmodified := p.hmodified.progress.built.world.toRecalls
    -- a handle made by the selection is newer than all that are exchanged
    rcases p.hselected.handles k name h hh with hempty | hold
    · rw [heq] at hempty
      have hknown : ∃ y, p.modified.world.behind? x.target = some y := by
        rcases p.hmerged.get?_cases hlive with hlive | ⟨-, hlive⟩
        · exact (hadded.intact.recalls hmodified).known _ _ _ hlive
        · exact (hr.recalls p.extends_modified.toRecalls).known _ _ _ hlive
      obtain ⟨y, hy⟩ := hknown
      rw [hempty] at hy
      cases hy
    · rcases p.hmerged.get?_cases hlive with hlive | ⟨-, hlive⟩
      · exact apart_of_built hr (.refl w) hadded _ _ _ _ _ _ hold hlive heq
      · obtain ⟨rfl, rfl⟩ := hr.apart _ _ _ _ _ _ hold hlive heq
        exact hdiff.modified_removed _ hmod hkey
  rw [p.hexchanged.others hother, p.hmerged.world.behind?_eq]

/-- What is selected is what the running graph had under the keys that the diff removes. -/
theorem removed_perm (hr : r.graph.Intact w) (hdiff : diff.Separate r.graph)
    (hlive : ∀ key ∈ diff.removed.keys, key ∈ r.graph.keys) :
    (draft.removed.resources w').Perm (diff.removed.keys.filterMap (r.graph.resource? w)) := by
  have hmem : ∀ key, key ∈ draft.removed.keys ↔ key ∈ diff.removed.keys := by
    intro key
    constructor
    · exact p.hselected.named key
    · exact fun hkey => (p.mem_keys_removed hr (hlive key hkey)).mpr hkey
  -- the handles were made anew, but stand for what the old ones did
  have hsame : diff.removed.keys.filterMap (r.graph.resource? w) =
      diff.removed.keys.filterMap (draft.removed.resource? w') := by
    refine List.filterMap_congr fun key hkey => ?_
    obtain ⟨k, name⟩ := key
    obtain ⟨h, hh⟩ := Graph.mem_keys.mp (hlive _ hkey)
    obtain ⟨b, hb⟩ := hr.known _ _ h hh
    have hbacking : r.graph.backing? p.modified.world k name = some b :=
      Graph.backing?_eq_some_iff.mpr ⟨h, hh, p.extends_modified.behind _ _ hb⟩
    obtain ⟨h', hh', hbehind⟩ := Graph.backing?_eq_some_iff.mp
      (p.hselected.serves k name b hkey hbacking)
    rw [Graph.resource?_of_get? hh, Graph.resource?_of_get? hh', hb,
      p.behind?_removed hr hdiff hh', hbehind]
  rw [hsame]
  exact Graph.resources_perm hdiff.removed hmem w'

/-- What ran and what was delivered is what runs, what is retired and what is removed. -/
theorem balance (hr : r.graph.Intact w) (hsound : diff.Sound r.graph)
    (hnew : ∀ y ∈ p.ys, y.resource ∉ r.graph.resources w) {w'' : World} (hw : w'.Quiet w'') :
    (r.graph.resources w ++ (p.xs ++ p.ys).map Delivery.resource).Perm
      (draft.graph.resources w'' ++ (p.retired ++ draft.removed.resources w')) := by
  have hafter := (p.moved hr hsound hw).resources_perm hsound
  have hclosed := (p.retired_perm hr hsound hnew).append
    (p.removed_perm hr hsound.separate hsound.removed_live)
  refine ((Graph.resources_split hsound w).append_right _).trans ?_
  refine List.Perm.trans ?_ (hafter.append hclosed).symm
  simp only [List.append_assoc]
  refine List.Perm.append_left _ ?_
  rw [← List.append_assoc]
  exact List.perm_append_comm

end LocalRobot.Preparation

end RobotHost
