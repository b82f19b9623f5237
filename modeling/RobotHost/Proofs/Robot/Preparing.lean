import RobotHost.Proofs.Graph.Merging
import RobotHost.Proofs.Graph.Selecting
import RobotHost.Robot.Basic

/-!
# What preparing comes to

A preparation that succeeds went through five stages: two builds, a selection and two merges
(`Preparation`). One that fails has left graphs behind after one of three stages (`Abandoned`), and
has closed them again.

The draft is a graph of handles that stand for something, and only what the diff modifies has come
behind handles that were there before.
-/

namespace RobotHost

open RobotHost.Graph (Apart)

/-! ## Graphs that are discarded -/

theorem World.discard_quiet (h : Host) (gs : List Graph) (w : World) :
    w.Quiet (discard h gs w).2 := by
  induction gs generalizing w with
  | nil => exact .refl w
  | cons g rest ih => exact (Graph.close_quiet h g w).trans (ih _)

/-- The graphs that are built for a diff: what it adds, and then what it modifies, unless the first
cannot be built. They may be incomplete. -/
def Diff.staged (d : Diff) (env : Environment) (w : World) : List Graph :=
  match Build.config env d.added ⟨{}, w⟩ with
  | .error _ added => [added.graph]
  | .ok () added =>
    [added.graph, (stateAfter (Build.modified env d.modified ⟨{}, added.world⟩)).graph]

namespace LocalRobot

/-! ## Preparations that fail -/

/-- What a preparation leaves behind that fails: graphs and the world around them. -/
inductive Abandoned (env : Environment) (diff : Diff) (w : World) : List Graph → World → Prop
  | added {done : List Item} {xs : List Delivery} {s : Site} (hdone : done <+: diff.added.items)
    (hxs : List.Forall₂ Item.Delivers done xs) (hs : Progress env w xs s) :
    Abandoned env diff w [s.graph] s.world
  | modified {xs ys : List Delivery} {done : List Item} {s t : Site}
    (hs : Build.Complete env w diff.added.processes diff.added.items diff.added.functions xs s)
    (hdone : done <+: diff.modified.items) (hys : List.Forall₂ Item.Delivers done ys)
    (ht : Progress env s.world ys t) : Abandoned env diff w [s.graph, t.graph] t.world
  | merge {xs ys : List Delivery} {s t : Site} {u : World}
    (hs : Build.Complete env w diff.added.processes diff.added.items diff.added.functions xs s)
    (ht : Build.Complete env s.world diff.modified.processes diff.modified.items
      diff.modified.functions ys t)
    (hu : t.world.Extends u) (hlog : World.Logs Event.Plain t.world u) :
    Abandoned env diff w [s.graph, t.graph] u

/-- A preparation that fails has only added to the world by then. -/
theorem Abandoned.extends {env : Environment} {diff : Diff} {w u : World} {gs : List Graph}
    (h : Abandoned env diff w gs u) : w.Extends u := by
  cases h with
  | added _ _ hs => exact hs.built.world
  | modified hs _ _ ht => exact hs.progress.built.world.trans ht.built.world
  | merge hs ht hu _ =>
    exact (hs.progress.built.world.trans ht.progress.built.world).trans hu

/-! ## Preparations that succeed -/

/-- The stages of a preparation that succeeds. -/
structure Preparation (env : Environment) (r : LocalRobot) (diff : Diff) (w : World)
    (draft : Draft) (w' : World) where
  xs : List Delivery
  ys : List Delivery
  added : Site
  modified : Site
  selected : World
  merged : Graph
  joined : World
  exchanged : Graph
  buildAdded : Build.config env diff.added ⟨{}, w⟩ = .ok () added
  buildModified : Build.modified env diff.modified ⟨{}, added.world⟩ = .ok () modified
  hadded : Build.Complete env w diff.added.processes diff.added.items diff.added.functions xs added
  hmodified : Build.Complete env added.world diff.modified.processes diff.modified.items
    diff.modified.functions ys modified
  select : r.graph.select env.host diff.removed modified.world = .ok draft.removed selected
  hselected : Graph.Selected r.graph modified.world diff.removed draft.removed selected
  hmerged : Graph.Added r.graph added.graph selected draft.replacedByAdded merged joined
  hexchanged : Graph.Modified env.host merged modified.graph joined draft.replacedByModified
    exchanged w'
  graph : draft.graph = exchanged.mergeRemove draft.removed

/-- Handles that are new to the world are apart from those of a graph that was there before. -/
theorem apart_of_built {g : Graph} {u w : World} {xs : List Delivery} {s : Site} (hg : g.Intact u)
    (hu : u.Recalls w) (hs : Built w xs s) : g.Apart s.graph := by
  intro k name h k' name' h' hh hh' heq
  obtain ⟨x, hx⟩ := hg.known k name h hh
  have hnone := hs.fresh k' name' h' hh'
  rw [← heq, hu.behind _ _ hx] at hnone
  cases hnone

/-- A merge that succeeds went through a selection and two merges, as long as the graphs that are
merged have no handle in common. -/
theorem merge_ok {h : Host} {r : LocalRobot} {diff : Diff} {added modified : Graph} {w w' : World}
    {draft : Draft} (hr : r.graph.Intact w) (hadded : added.Intact w)
    (hmodified : modified.Intact w)
    (hnew : r.graph.Apart added) (hnext : r.graph.Apart modified) (hapart : added.Apart modified)
    (hmerge : r.merge h diff added modified w = .ok draft w') :
    ∃ u merged v exchanged, r.graph.select h diff.removed w = .ok draft.removed u ∧
      Graph.Selected r.graph w diff.removed draft.removed u ∧
      Graph.Added r.graph added u draft.replacedByAdded merged v ∧
      Graph.Modified h merged modified v draft.replacedByModified exchanged w' ∧
      draft.graph = exchanged.mergeRemove draft.removed := by
  obtain ⟨removed, u, hselect, hmerge⟩ := bind_eq_ok.mp hmerge
  obtain ⟨⟨replaced, merged⟩, v, hjoin, hmerge⟩ := bind_eq_ok.mp hmerge
  obtain ⟨⟨replaced', exchanged⟩, v', hexchange, hpure⟩ := bind_eq_ok.mp hmerge
  obtain ⟨rfl, rfl⟩ := pure_eq_ok.mp hpure
  have hselected := Graph.select_ok hr hselect
  have hwires := hselected.world.toRecalls
  have hlive := hadded.recalls hwires
  have hmerged := Graph.mergeAdd_ok hlive.processNamed (adaptExcept_eq_ok.mp hjoin)
  -- a handle of the merged graph is one of the two that went into it
  have hapart' : merged.Apart modified := by
    intro k name x k' name' y hx
    rcases hmerged.get?_cases hx with hx | ⟨-, hx⟩
    · exact hapart k name x k' name' y hx
    · exact hnext k name x k' name' y hx
  have hexchanged := Graph.mergeModify_ok (hmerged.intact (hr.recalls hwires) hlive hnew.aligned)
    ((hmodified.recalls hwires).recalls hmerged.world.extends.toRecalls) hapart'.aligned hexchange
  exact ⟨u, merged, v, exchanged, hselect, hselected, hmerged, hexchanged, rfl⟩

/-- A preparation that succeeds has gone through all stages. -/
theorem prepare_ok {env : Environment} {r : LocalRobot} {diff : Diff} {w w' : World} {draft : Draft}
    (hr : r.graph.Intact w) (h : r.prepare env diff w = .ok draft w') :
    Nonempty (Preparation env r diff w draft w') := by
  unfold prepare at h
  cases hadd : Build.config env diff.added ⟨{}, w⟩ with
  | error e s =>
    rw [hadd] at h
    cases h
  | ok _ added =>
    cases hmodify : Build.modified env diff.modified ⟨{}, added.world⟩ with
    | error e s =>
      simp only [hadd, hmodify] at h
      cases h
    | ok _ modified =>
      cases hmerge : r.merge env.host diff added.graph modified.graph modified.world with
      | error e s =>
        simp only [hadd, hmodify, hmerge] at h
        cases h
      | ok draft' w'' =>
        simp only [hadd, hmodify, hmerge] at h
        cases h
        obtain ⟨xs, hxs⟩ := Build.staged_ok (Build.config_eq diff.added ▸ hadd)
        obtain ⟨ys, hys⟩ := Build.staged_ok (Build.modified_eq diff.modified ▸ hmodify)
        have hbuilt := hxs.progress.built
        have hbuilt' := hys.progress.built
        -- each build makes its handles anew, so that they are apart from all that came before
        obtain ⟨selected, merged, joined, exchanged, hselect, hselected, hmerged, hexchanged,
          hgraph⟩ := merge_ok (hr.recalls (hbuilt.world.trans hbuilt'.world).toRecalls)
            (hbuilt.intact.recalls hbuilt'.world.toRecalls) hbuilt'.intact
            (apart_of_built hr (.refl w) hbuilt)
            (apart_of_built hr hbuilt.world.toRecalls hbuilt')
            (apart_of_built hbuilt.intact (.refl _) hbuilt') hmerge
        exact ⟨⟨xs, ys, added, modified, selected, merged, joined, exchanged, hadd, hmodify, hxs,
          hys, hselect, hselected, hmerged, hexchanged, hgraph⟩⟩

/-- A merge that fails has selected parts and started processes, and no more. -/
theorem merge_error {h : Host} {r : LocalRobot} {diff : Diff} {added modified : Graph}
    {w w' : World} {e : RobotError} (hr : r.graph.Intact w)
    (hmerge : r.merge h diff added modified w = .error e w') :
    ¬e.OfTeardown ∧ w.Extends w' ∧ World.Logs Event.Plain w w' := by
  have hwires : ∀ {u : World}, w.Wires u → World.Logs Event.Plain w u := fun hu =>
    .of_log_eq hu.sameLog
  -- any of the three may fail: the selection, the addition or the exchange
  rcases bind_eq_error.mp hmerge with hselect | ⟨removed, u, hselect, hmerge⟩
  · obtain ⟨hu, he⟩ := Graph.select_error hselect
    exact ⟨he, hu.toExtends, hwires hu⟩
  have hu := (Graph.select_ok hr hselect).world
  rcases bind_eq_error.mp hmerge with hjoin | ⟨⟨replaced, merged⟩, v, hjoin, hmerge⟩
  · obtain ⟨e', hadd, rfl⟩ := adaptExcept_eq_error.mp hjoin
    have hstart := Graph.mergeAdd_error hadd
    exact ⟨id, hu.toExtends.trans hstart.extends, (hwires hu).trans hstart.plain⟩
  have hjoined : u.Launches v := by
    obtain ⟨x, y, hadd, hpure⟩ := bind_eq_ok.mp (adaptExcept_eq_ok.mp hjoin)
    obtain ⟨-, rfl⟩ := pure_eq_ok.mp hpure
    exact (ProcessManager.addAll_launches h r.graph.manager added.manager).of_ok hadd
  rcases bind_eq_error.mp hmerge with hexchange | ⟨_, _, -, hpure⟩
  · obtain ⟨hstart, he⟩ := Graph.mergeModify_error hexchange
    exact ⟨he, (hu.toExtends.trans hjoined.extends).trans hstart.extends,
      ((hwires hu).trans hjoined.plain).trans hstart.plain⟩
  · cases hpure

/-- A preparation that fails discards just the graphs that were built for the diff. -/
theorem prepare_error_staged {env : Environment} {r : LocalRobot} {diff : Diff} {w w' : World}
    {e : RobotError} (hr : r.graph.Intact w) (h : r.prepare env diff w = .error e w') :
    ¬e.OfTeardown ∧ ∃ u, Abandoned env diff w (diff.staged env w) u ∧
      w' = (World.discard env.host (diff.staged env w) u).2 := by
  unfold prepare at h
  unfold Diff.staged
  cases hadd : Build.config env diff.added ⟨{}, w⟩ with
  | error e' s =>
    rw [hadd] at h
    cases h
    obtain ⟨he, done, xs, hdone, hxs, hs⟩ := Build.staged_error (Build.config_eq diff.added ▸ hadd)
    exact ⟨he, _, .added hdone hxs hs, rfl⟩
  | ok _ added =>
    obtain ⟨xs, hxs⟩ := Build.staged_ok (Build.config_eq diff.added ▸ hadd)
    cases hmodify : Build.modified env diff.modified ⟨{}, added.world⟩ with
    | error e' s =>
      simp only [hadd, hmodify] at h
      cases h
      obtain ⟨he, done, ys, hdone, hys, hs⟩ :=
        Build.staged_error (Build.modified_eq diff.modified ▸ hmodify)
      simp only [stateAfter, hmodify]
      exact ⟨he, _, .modified hxs hdone hys hs, rfl⟩
    | ok _ modified =>
      obtain ⟨ys, hys⟩ := Build.staged_ok (Build.modified_eq diff.modified ▸ hmodify)
      cases hmerge : r.merge env.host diff added.graph modified.graph modified.world with
      | ok draft u =>
        simp only [hadd, hmodify, hmerge] at h
        cases h
      | error e' u =>
        simp only [hadd, hmodify, hmerge] at h
        cases h
        have hworld : w.Extends modified.world :=
          hxs.progress.built.world.trans hys.progress.built.world
        obtain ⟨he, hu, hlog⟩ := merge_error (hr.recalls hworld.toRecalls) hmerge
        simp only [stateAfter, hmodify]
        exact ⟨he, _, .merge hxs hys hu hlog, rfl⟩

/-- A preparation that fails discards what it has built, and its error is none of closing. -/
theorem prepare_error {env : Environment} {r : LocalRobot} {diff : Diff} {w w' : World}
    {e : RobotError} (hr : r.graph.Intact w) (h : r.prepare env diff w = .error e w') :
    ¬e.OfTeardown ∧ ∃ gs u, Abandoned env diff w gs u ∧ w' = (World.discard env.host gs u).2 := by
  obtain ⟨he, u, habandoned, hw⟩ := prepare_error_staged hr h
  exact ⟨he, _, u, habandoned, hw⟩

end LocalRobot

end RobotHost
