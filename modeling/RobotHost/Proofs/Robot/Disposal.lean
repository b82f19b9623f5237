import RobotHost.Proofs.Graph.Issuing
import RobotHost.Proofs.Robot.Transferring

/-!
# Everything is closed once

The books of a run balance (`LocalRobot.Balanced`): what the environment has issued since the run
began is what the running graph holds and what was closed, each resource once. Whatever step is
taken and whether or not it fails, they balance again (`LocalRobot.balanced_reconfigure`): a step
that fails closes what it had built, and one that succeeds closes what it retires and removes.

So in a fresh environment nothing that runs is ever closed, and once the robot is closed everything
was closed once (`LocalRobot.closed_once`).
-/

namespace RobotHost

open scoped List

/-! ## Discarding and retiring -/

section Closings

variable {w₀ w w' : World}

/-- To discard graphs closes all that they hold. -/
theorem World.discard_closes (hw₀ : w₀.Whole) (h : Host) {gs : List Graph}
    (hgs : ∀ x ∈ gs.flatMap (Graph.resources · w), x.Rooted w₀) (hw : w₀.Recalls w) :
    Closes w₀ (gs.flatMap (Graph.resources · w)) w (discard h gs w).2 := by
  induction gs generalizing w with
  | nil => exact .of_closings_eq w₀ rfl
  | cons g rest ih =>
    rw [List.flatMap_cons] at hgs ⊢
    have hfirst := g.close_closes hw₀ h (fun x hx => hgs x (List.mem_append_left _ hx)) hw
    have hquiet := g.close_quiet h w
    -- to close the first graph moves nothing behind the handles of the others
    have hsame : rest.flatMap (Graph.resources · (g.close h w).2) =
        rest.flatMap (Graph.resources · w) :=
      List.flatMap_congr fun other _ => other.resources_congr hquiet.behind?_eq
    have hrest := ih (w := (g.close h w).2) (fun x hx => by
      rw [hsame] at hx
      exact hgs x (List.mem_append_right _ hx)) (hw.trans hquiet.extends.toRecalls)
    rw [hsame] at hrest
    exact hfirst.trans hrest

/-- To exchange parts closes what was behind the handles before. -/
theorem Graph.Modified.closes (hw₀ : w₀.Whole) {h : Host} {g next g' : Graph}
    {replaced : List (Ref .process)} (hm : Modified h g next w replaced g' w')
    (hrooted : ∀ x ∈ (g.exchanges next).filterMap (Exchange.retired? w), x.Rooted w₀)
    (hw : w₀.Recalls w) (hsafe : ∀ x ∈ g.exchanges next, w₀.behind? x.target = none) :
    World.Closes w₀ ((g.exchanges next).filterMap (Exchange.retired? w)) w w' := by
  obtain ⟨w₁, w₂, hstart, hexchanged, rfl⟩ := hm.world
  have hsame : w₂.closings = w.closings := by
    rw [← hstart.closings, World.closings, World.closings, hexchanged.log]
  have hrecalls := hexchanged.recalls (hw.trans hstart.extends.toRecalls) hsafe
  exact (World.Closes.of_closings_eq w₀ hsame).trans
    (World.retire_closes hw₀ h hrooted hrecalls)

end Closings

namespace LocalRobot

/-! ## What is left of a preparation that fails -/

section Abandoned

variable {env : Environment} {w₀ w u : World} {ds : List Resource}

/-- What was delivered for a preparation that fails is what the graphs hold that it leaves. -/
theorem Abandoned.issued (hw₀ : w₀.Whole) (henv : env.Fresh w₀) {diff : Diff}
    (hadded : diff.added.keys.Nodup) (hmodified : diff.modified.keys.Nodup) {gs : List Graph}
    (hw : w₀.Issued w ds) (h : Abandoned env diff w gs u) :
    u.closings = w.closings ∧ ∃ new, w₀.Issued u (ds ++ new) ∧
      new.Perm (gs.flatMap (Graph.resources · u)) := by
  cases h with
  | @added done xs s hdone hxs hs =>
    have hbuilt := hs.built
    refine ⟨hbuilt.closings, _, hs.issued hw₀ henv hw, ?_⟩
    simp only [List.flatMap_cons, List.flatMap_nil, List.append_nil]
    exact (hbuilt.resources_perm (nodup_keys_of_begun hdone hxs hadded)).symm
  | @modified xs ys done s t hs hdone hys ht =>
    have hbuilt := hs.progress.built
    have hbuilt' := ht.built
    have hissued := ht.issued hw₀ henv (hs.progress.issued hw₀ henv hw)
    refine ⟨hbuilt'.closings.trans hbuilt.closings, _, List.append_assoc .. ▸ hissued, ?_⟩
    simp only [List.flatMap_cons, List.flatMap_nil, List.append_nil]
    -- the first graph holds what it held when the second was begun
    rw [hbuilt.intact.resources_recalls hbuilt'.world.toRecalls]
    exact (hbuilt.resources_perm (hs.keys ▸ hadded)).symm.append
      (hbuilt'.resources_perm (nodup_keys_of_begun hdone hys hmodified)).symm
  | @merge xs ys s t u hs ht hu hlog =>
    have hbuilt := hs.progress.built
    have hbuilt' := ht.progress.built
    have hissued := (ht.progress.issued hw₀ henv (hs.progress.issued hw₀ henv hw)).recalled
      hu.toRecalls (hlog.mono fun _ he => he.delivers)
    refine ⟨?_, _, List.append_assoc .. ▸ hissued, ?_⟩
    · rw [(hlog.mono fun _ he => he.closes).closings, hbuilt'.closings, hbuilt.closings]
    · simp only [List.flatMap_cons, List.flatMap_nil, List.append_nil]
      rw [hbuilt.intact.resources_recalls (hbuilt'.world.trans hu).toRecalls,
        hbuilt'.intact.resources_recalls hu.toRecalls]
      exact (hbuilt.resources_perm (hs.keys ▸ hadded)).symm.append
        (hbuilt'.resources_perm (ht.keys ▸ hmodified)).symm

end Abandoned

/-! ## The books -/

/-- What was issued since the world `w₀` is what a graph holds and what was closed, and the handles
of the graph are newer than that world. -/
structure Balanced (w₀ w : World) (g : Graph) (ds zs : List Resource) : Prop where
  intact : g.Intact w
  own : ∀ k name h, (g.entries k).get? name = some h → w₀.behind? (k.slot h) = none
  issued : w₀.Issued w ds
  closes : World.Closes w₀ zs w₀ w
  perm : ds.Perm (g.resources w ++ zs)

section Books

variable {env : Environment} {w₀ w u : World} {g : Graph} {ds zs new : List Resource}

/-- The books of a run that has not begun. -/
theorem balanced_empty (w₀ : World) : Balanced w₀ w₀ {} [] [] where
  intact := Graph.intact_empty w₀
  own := by
    intro k name h hh
    rw [Graph.entries_empty] at hh
    cases hh
  issued := .refl w₀
  closes := .of_closings_eq w₀ rfl
  perm := by
    have hnil : ({} : Graph).resources w₀ = [] := rfl
    rw [hnil, List.append_nil]

/-- What the graph holds was issued. -/
theorem Balanced.mem_issued (h : Balanced w₀ w g ds zs) {x : Resource}
    (hx : x ∈ g.resources w) : x ∈ ds :=
  h.perm.mem_iff.mpr (List.mem_append_left _ hx)

/-- What was closed is what was issued and is not held. -/
theorem Balanced.not_mem_closed (h : Balanced w₀ w g ds zs) {x : Resource}
    (hx : x ∈ g.resources w) : x ∉ zs := by
  intro hmem
  have hdistinct := h.perm.nodup_iff.mp h.issued.distinct
  exact (List.nodup_append.mp hdistinct).2.2 x hx x hmem rfl

/-- The books balance whatever happens that neither delivers nor closes anything. -/
theorem Balanced.extends (h : Balanced w₀ w g ds zs) (hw : w.Extends u) (hlog : u.log = w.log) :
    Balanced w₀ u g ds zs where
  intact := h.intact.recalls hw.toRecalls
  own := h.own
  issued := h.issued.recalled hw.toRecalls (.of_log_eq hlog)
  closes := by
    have hsame : u.closings = w.closings := by rw [World.closings, World.closings, hlog]
    exact List.append_nil zs ▸ h.closes.trans (.of_closings_eq w₀ hsame)
  perm := by
    rw [h.intact.resources_recalls hw.toRecalls]
    exact h.perm

/-- The books balance once what was delivered in vain is discarded. -/
theorem Balanced.discard (hw₀ : w₀.Whole) (host : Host) (h : Balanced w₀ w g ds zs)
    (hw : w.Recalls u) (hclosings : u.closings = w.closings) (hissued : w₀.Issued u (ds ++ new))
    {gs : List Graph} (hperm : new.Perm (gs.flatMap (Graph.resources · u))) :
    Balanced w₀ (World.discard host gs u).2 g (ds ++ new)
      (zs ++ gs.flatMap (Graph.resources · u)) := by
  have hquiet := World.discard_quiet host gs u
  have hafter := hw.trans hquiet.extends.toRecalls
  have hrooted : ∀ x ∈ gs.flatMap (Graph.resources · u), x.Rooted w₀ := fun x hx =>
    hissued.rooted x (List.mem_append_right _ (hperm.mem_iff.mpr hx))
  have hdiscard := World.discard_closes hw₀ host hrooted hissued.recalls
  refine ⟨h.intact.recalls hafter, h.own, hissued.recalled hquiet.extends.toRecalls hquiet.logs,
    ?_, ?_⟩
  · have hbefore := h.closes.trans (World.Closes.of_closings_eq w₀ hclosings)
    exact (List.append_nil zs ▸ hbefore).trans hdiscard
  · rw [h.intact.resources_recalls hafter, ← List.append_assoc]
    exact h.perm.append hperm

end Books

/-! ## Steps -/

section Steps

variable {env : Environment} {w₀ w w' : World} {ds zs : List Resource}

/-- A build in the books. -/
theorem balanced_start (hw₀ : w₀.Whole) (henv : env.Fresh w₀) {c : Config} {r : LocalRobot}
    (hkeys : c.keys.Nodup) (h : start env c w₀ = .ok r w) : ∃ ds, Balanced w₀ w r.graph ds [] := by
  obtain ⟨-, xs, hcomplete⟩ := start_ok h
  have hbuilt := hcomplete.progress.built
  have hissued := hcomplete.progress.issued hw₀ henv (World.Issued.refl w₀)
  refine ⟨xs.map Delivery.resource, hbuilt.intact, hbuilt.fresh, hissued,
    .of_closings_eq w₀ hbuilt.closings, ?_⟩
  rw [List.append_nil]
  exact (hbuilt.resources_perm (hcomplete.keys ▸ hkeys)).symm

/-- A build that fails leaves nothing that is not closed. -/
theorem balanced_start_error (hw₀ : w₀.Whole) (henv : env.Fresh w₀) {c : Config} {e : RobotError}
    (hkeys : c.keys.Nodup) (h : start env c w₀ = .error e w) :
    ∃ ds zs, Balanced w₀ w {} ds zs := by
  obtain ⟨done, xs, s, hdone, hxs, hs, rfl⟩ := start_error h
  have hbuilt := hs.built
  have hperm : (xs.map Delivery.resource).Perm
      ([s.graph].flatMap (Graph.resources · s.world)) := by
    simp only [List.flatMap_cons, List.flatMap_nil, List.append_nil]
    exact (hbuilt.resources_perm (nodup_keys_of_begun hdone hxs hkeys)).symm
  exact ⟨_, _, (balanced_empty w₀).discard hw₀ env.host hbuilt.world.toRecalls hbuilt.closings
    (hs.issued hw₀ henv (.refl w₀)) hperm⟩

/-- A preparation that fails closes what was built for it, and the robot's graph is not touched. -/
theorem balanced_prepare_error (hw₀ : w₀.Whole) (henv : env.Fresh w₀) {r : LocalRobot}
    {diff : Diff} {e : RobotError} (hsound : diff.Sound r.graph)
    (hr : Balanced w₀ w r.graph ds zs) (h : r.prepare env diff w = .error e w') :
    ∃ ds zs, Balanced w₀ w' r.graph ds zs := by
  obtain ⟨-, gs, u, habandoned, rfl⟩ := prepare_error hr.intact h
  obtain ⟨hclosings, new, hissued, hperm⟩ :=
    habandoned.issued hw₀ henv hsound.added hsound.modified hr.issued
  exact ⟨_, _, hr.discard hw₀ env.host habandoned.extends.toRecalls hclosings hissued hperm⟩

namespace Preparation

variable {r : LocalRobot} {diff : Diff} {draft : Draft} (p : Preparation env r diff w draft w')

include p

/-- The handles of the merged graph are as new as those of the running one. -/
theorem own_merged (hr : Balanced w₀ w r.graph ds zs) {k : Kind} {name : String} {h : k.Handle}
    (hh : (p.merged.entries k).get? name = some h) : w₀.behind? (k.slot h) = none := by
  rcases p.hmerged.get?_cases hh with hh | ⟨-, hh⟩
  · exact hr.issued.recalls.empty (p.hadded.progress.built.fresh k name h hh)
  · exact hr.own k name h hh

/-- Up to the exchange, what was built for both halves of a diff has been issued. -/
theorem issued_modified (hw₀ : w₀.Whole) (henv : env.Fresh w₀) (hr : Balanced w₀ w r.graph ds zs) :
    w₀.Issued p.modified.world (ds ++ (p.xs ++ p.ys).map Delivery.resource) := by
  have hadded := p.hadded.progress.issued hw₀ henv hr.issued
  rw [List.map_append, ← List.append_assoc]
  exact p.hmodified.progress.issued hw₀ henv hadded

/-- No exchange writes to a handle of the world before. -/
theorem safe (hr : Balanced w₀ w r.graph ds zs) :
    ∀ x ∈ p.merged.exchanges p.modified.graph, w₀.behind? x.target = none :=
  fun _ hx => p.own_merged hr (Graph.mem_exchanges.mp hx).1

/-- What the whole preparation has issued. -/
theorem issued (hw₀ : w₀.Whole) (henv : env.Fresh w₀) (hr : Balanced w₀ w r.graph ds zs) :
    w₀.Issued w' (ds ++ (p.xs ++ p.ys).map Delivery.resource) := by
  have hmodified := p.issued_modified hw₀ henv hr
  have hjoined := hmodified.recalls.trans p.extends_joined.toRecalls
  have hselected : World.Logs (fun e => e.delivers? = none) p.modified.world p.selected :=
    .of_log_eq p.hselected.world.sameLog
  refine hmodified.unchanged (p.hexchanged.recalls hjoined (p.safe hr))
    ((hselected.trans p.hmerged.world.logs).trans p.hexchanged.logs) ?_
  rw [p.hexchanged.drivers]
  exact p.extends_joined.drivers

/-- What was delivered for the diff is nothing that ran before. -/
theorem not_mem_resources (hw₀ : w₀.Whole) (henv : env.Fresh w₀)
    (hr : Balanced w₀ w r.graph ds zs) : ∀ y ∈ p.ys, y.resource ∉ r.graph.resources w := by
  intro y hy hmem
  have hdistinct := (p.issued_modified hw₀ henv hr).distinct
  have hnew : y.resource ∈ (p.xs ++ p.ys).map Delivery.resource :=
    List.mem_map_of_mem (List.mem_append_right _ hy)
  exact (List.nodup_append.mp hdistinct).2.2 _ (hr.mem_issued hmem) _ hnew rfl

/-- Nothing is closed before the last step of the preparation, which closes what is retired. -/
theorem closes_retired (hw₀ : w₀.Whole) (henv : env.Fresh w₀) (hdiff : diff.Separate r.graph)
    (hr : Balanced w₀ w r.graph ds zs) : World.Closes w₀ p.retired w w' := by
  -- neither the builds nor the selection nor the additions close anything
  have hjoined : p.joined.closings = w.closings := by
    have hselected : p.selected.closings = p.modified.world.closings := by
      rw [World.closings, World.closings, p.hselected.world.sameLog]
    rw [p.hmerged.world.closings, hselected, p.hmodified.progress.built.closings,
      p.hadded.progress.built.closings]
  have hrooted : ∀ x ∈ p.retired, x.Rooted w₀ := fun x hx =>
    hr.issued.rooted x (hr.mem_issued (p.held_of_retired hr.intact hdiff hx))
  have hrecalls := (p.issued_modified hw₀ henv hr).recalls.trans p.extends_joined.toRecalls
  exact (World.Closes.of_closings_eq w₀ hjoined).trans
    (p.hexchanged.closes hw₀ hrooted hrecalls (p.safe hr))

/-- What is selected to be closed is something that the running graph had. -/
theorem held_of_removed (hr : r.graph.Intact w) (hdiff : diff.Separate r.graph)
    (hlive : ∀ key ∈ diff.removed.keys, key ∈ r.graph.keys) {x : Resource}
    (hx : x ∈ draft.removed.resources w') : x ∈ r.graph.resources w :=
  Graph.mem_resources_of_mem_filterMap ((p.removed_perm hr hdiff hlive).mem_iff.mp hx)

/-- All in all this closes what is retired and what is removed. -/
theorem closes (hw₀ : w₀.Whole) (henv : env.Fresh w₀) (hdiff : diff.Separate r.graph)
    (hlive : ∀ key ∈ diff.removed.keys, key ∈ r.graph.keys) (hr : Balanced w₀ w r.graph ds zs)
    {w'' : World} {outcome : Except RobotError Unit}
    (hfinish : draft.finish env.host w' = (outcome, w'')) :
    World.Closes w₀ (p.retired ++ draft.removed.resources w') w w'' := by
  obtain ⟨⟨m, hclosed⟩, -⟩ := Draft.finish_spec env.host p.hselected.idle w'
  have hclosed : w'' = ({ draft.removed with manager := m }.close env.host w').2 := by
    rw [← hclosed, hfinish]
  -- whoever manages the processes, the parts to close are those that were removed
  have hremoved : ({ draft.removed with manager := m } : Graph).resources w' =
      draft.removed.resources w' := rfl
  have hrooted : ∀ x ∈ draft.removed.resources w', x.Rooted w₀ := fun x hx =>
    hr.issued.rooted x (hr.mem_issued (p.held_of_removed hr.intact hdiff hlive hx))
  have hcloses : World.Closes w₀ (draft.removed.resources w') w' w'' := by
    rw [hclosed, ← hremoved]
    exact Graph.close_closes hw₀ env.host (hremoved ▸ hrooted) (p.issued hw₀ henv hr).recalls
  exact (p.closes_retired hw₀ henv hdiff hr).trans hcloses

end Preparation

/-- A step that succeeds closes what it retires and what it removes, and the rest goes on. -/
theorem balanced_finish (hw₀ : w₀.Whole) (henv : env.Fresh w₀) {r : LocalRobot} {diff : Diff}
    {draft : Draft} {w'' : World} {outcome : Except RobotError Unit} (hsound : diff.Sound r.graph)
    (hr : Balanced w₀ w r.graph ds zs) (hprepare : r.prepare env diff w = .ok draft w')
    (hfinish : draft.finish env.host w' = (outcome, w'')) :
    ∃ ds zs, Balanced w₀ w'' draft.graph ds zs := by
  obtain ⟨p⟩ := prepare_ok hr.intact hprepare
  have hquiet := Draft.finish_quiet env.host p.hselected.idle w'
  rw [hfinish] at hquiet
  have hissued := p.issued hw₀ henv hr
  have hbalance := p.balance hr.intact hsound (p.not_mem_resources hw₀ henv hr) hquiet
  have hcloses := p.closes hw₀ henv hsound.separate hsound.removed_live hr hfinish
  refine ⟨_, zs ++ (p.retired ++ draft.removed.resources w'),
    (p.intact hr.intact).recalls hquiet.extends.toRecalls,
    fun k name h hh => p.own_merged hr (p.get?_merged hh),
    hissued.recalled hquiet.extends.toRecalls hquiet.logs,
    hr.closes.trans hcloses, ?_⟩
  -- what was delivered is held or closed, before as after
  calc ds ++ (p.xs ++ p.ys).map Delivery.resource
    _ ~ (r.graph.resources w ++ zs) ++ (p.xs ++ p.ys).map Delivery.resource :=
      hr.perm.append_right _
    _ ~ (r.graph.resources w ++ (p.xs ++ p.ys).map Delivery.resource) ++ zs := by
      rw [List.append_assoc, List.append_assoc]
      exact List.perm_append_comm.append_left _
    _ ~ (draft.graph.resources w'' ++ (p.retired ++ draft.removed.resources w')) ++ zs :=
      hbalance.append_right _
    _ ~ draft.graph.resources w'' ++ (zs ++ (p.retired ++ draft.removed.resources w')) := by
      rw [List.append_assoc]
      exact List.perm_append_comm.append_left _

/-- The books balance again after each step by a diff that fits. -/
theorem balanced_reconfigure (hw₀ : w₀.Whole) (henv : env.Fresh w₀) {r r' : LocalRobot}
    {c : Config} {diff : Diff} {outcome : Except RobotError Unit} (hsound : diff.Sound r.graph)
    (hr : Balanced w₀ w r.graph ds zs)
    (h : r.reconfigure env c diff w = (outcome, r', w')) :
    ∃ ds zs, Balanced w₀ w' r'.graph ds zs := by
  rcases reconfigure_cases h with ⟨-, -, rfl, rfl⟩ | ⟨-, e, hprepare, -, rfl⟩ |
    ⟨-, draft, u, hprepare, rfl, hfinish⟩
  · exact ⟨ds, zs, hr⟩
  · exact balanced_prepare_error hw₀ henv hsound hr hprepare
  · exact balanced_finish hw₀ henv hsound hr hprepare hfinish

end Steps

/-! ## Runs -/

/-- Runs that begin with a robot that is started in the world `w₀`, and go on by diffs that fit. In
between others may use what there is. -/
inductive Run (env : Environment) (w₀ : World) : LocalRobot → World → Prop
  | start {c : Config} {r : LocalRobot} {w : World} (hkeys : c.keys.Nodup)
    (h : start env c w₀ = .ok r w) : Run env w₀ r w
  | reconfigure {r r' : LocalRobot} {c : Config} {diff : Diff} {w w' : World}
    {outcome : Except RobotError Unit} (hrun : Run env w₀ r w) (hsound : diff.Sound r.graph)
    (h : r.reconfigure env c diff w = (outcome, r', w')) : Run env w₀ r' w'
  | elapse {r : LocalRobot} {w w' : World} (hrun : Run env w₀ r w) (h : w.Extends w')
    (hlog : w'.log = w.log) : Run env w₀ r w'

/-- The books balance after every run, by induction on its steps. -/
theorem Run.balanced {env : Environment} {w₀ w : World} {r : LocalRobot} (hw₀ : w₀.Whole)
    (henv : env.Fresh w₀) (h : Run env w₀ r w) : ∃ ds zs, Balanced w₀ w r.graph ds zs := by
  induction h with
  | start hkeys h =>
    obtain ⟨ds, hr⟩ := balanced_start hw₀ henv hkeys h
    exact ⟨ds, [], hr⟩
  | reconfigure _ hsound h ih =>
    obtain ⟨ds, zs, hr⟩ := ih
    exact balanced_reconfigure hw₀ henv hsound hr h
  | elapse _ h hlog ih =>
    obtain ⟨ds, zs, hr⟩ := ih
    exact ⟨ds, zs, hr.extends h hlog⟩

/-- The books in terms of the log. -/
theorem Balanced.log {w₀ w : World} {g : Graph} {ds zs : List Resource}
    (h : Balanced w₀ w g ds zs) : ∃ es, w.log = w₀.log ++ es ∧ es.filterMap Event.delivers? = ds ∧
      ∀ x ∈ ds, (es.filterMap Event.closes?).count x = zs.count x := by
  obtain ⟨es, hes⟩ := h.issued.recalls.log
  obtain ⟨cs, hcs, hcount⟩ := h.closes
  have hdelivered : w₀.delivered ++ es.filterMap Event.delivers? = w₀.delivered ++ ds := by
    rw [← h.issued.delivered, World.delivered_append hes.symm]
  have hclosed : w₀.closings ++ es.filterMap Event.closes? = w₀.closings ++ cs := by
    rw [← hcs, World.closings_append hes.symm]
  refine ⟨es, hes.symm, List.append_cancel_left hdelivered, fun x hx => ?_⟩
  rw [List.append_cancel_left hclosed]
  exact hcount x (h.issued.own x hx)

/-- Once a robot is closed, all is closed that was issued. -/
theorem Balanced.close {w₀ w : World} (hw₀ : w₀.Whole) (host : Host) {r : LocalRobot}
    {ds zs : List Resource} (h : Balanced w₀ w r.graph ds zs) :
    Balanced w₀ (r.close host w).2 {} ds (zs ++ r.graph.resources w) := by
  have hquiet := r.graph.close_quiet host w
  have hrooted : ∀ x ∈ r.graph.resources w, x.Rooted w₀ := fun x hx =>
    h.issued.rooted x (h.mem_issued hx)
  refine ⟨Graph.intact_empty _, (balanced_empty w₀).own,
    h.issued.recalled hquiet.extends.toRecalls hquiet.logs,
    h.closes.trans (Graph.close_closes hw₀ host hrooted h.issued.recalls), ?_⟩
  exact h.perm.trans List.perm_append_comm

/-- If no graph holds anything, all was closed once. -/
theorem Balanced.settled {w₀ w : World} {ds zs : List Resource} (h : Balanced w₀ w {} ds zs) :
    ∃ es, w.log = w₀.log ++ es ∧ Event.Settled es := by
  obtain ⟨es, hlog, hds, hcount⟩ := h.log
  have hperm : ds.Perm zs := h.perm
  refine ⟨es, hlog, fun x hx => ?_⟩
  rw [hds] at hx
  rw [hcount x hx, ← hperm.count_eq]
  exact List.count_eq_one_of_mem h.issued.distinct hx

/-- In a fresh environment whatever is delivered is closed once in the end, be it that a robot does
not start, or that it is closed after any run. Until then nothing is closed that the robot
serves. -/
theorem closed_once {env : Environment} {w₀ : World} (hw₀ : w₀.Whole) (henv : env.Fresh w₀) :
    (∀ c e w, c.keys.Nodup → start env c w₀ = .error e w →
      ∃ es, w.log = w₀.log ++ es ∧ Event.Settled es) ∧
    ∀ r w, Run env w₀ r w →
      (∃ es, w.log = w₀.log ++ es ∧ ∀ k name x, r.graph.backing? w k name = some x →
        x.resource ∈ es.filterMap Event.delivers? ∧ x.resource ∉ es.filterMap Event.closes?) ∧
      ∃ es, (r.close env.host w).2.log = w₀.log ++ es ∧ Event.Settled es := by
  constructor
  · intro c e w hkeys h
    obtain ⟨ds, zs, hbalanced⟩ := balanced_start_error hw₀ henv hkeys h
    exact hbalanced.settled
  · intro r w hrun
    obtain ⟨ds, zs, hbalanced⟩ := hrun.balanced hw₀ henv
    refine ⟨?_, (hbalanced.close hw₀ env.host).settled⟩
    obtain ⟨es, hlog, hds, hcount⟩ := hbalanced.log
    refine ⟨es, hlog, fun k name x hx => ?_⟩
    have hmem : x.resource ∈ r.graph.resources w := Graph.mem_resources.mpr ⟨k, name, x, hx, rfl⟩
    have hissued := hbalanced.mem_issued hmem
    refine ⟨hds ▸ hissued, List.count_eq_zero.mp ?_⟩
    rw [hcount _ hissued]
    exact List.count_eq_zero.mpr (hbalanced.not_mem_closed hmem)

end LocalRobot

/-- The empty world holds nothing. -/
theorem World.not_holds_empty (x : Resource) : ¬({} : World).Holds x := by
  rintro ⟨s, b, hb, -⟩
  cases s <;> cases hb

theorem World.whole_empty : ({} : World).Whole where
  drivers := fun _ h => absurd h (not_holds_empty _)
  connections := fun _ h => absurd h (not_holds_empty _)
  robots := fun _ _ h => by cases h

theorem Sample.environment_fresh : Sample.environment.Fresh {} where
  factory := by
    intro w b d _ h
    exact absurd h (Simulated.make_ne_existing b d)
  connector := by
    intro w address c _ h
    have hanswer : (if .connection (.robot ⟨w.log.length⟩) ∈ w.delivered then
      .error ("no answer from " ++ address) else .ok (.robot ⟨w.log.length⟩) :
        Except String Connection) = .ok c := h
    split at hanswer
    · cases hanswer
    · next hnew =>
      cases hanswer
      exact ⟨hnew, World.not_holds_empty _, trivial⟩

theorem LocalRobot.closed_once_sample :
    ({} : World).Whole ∧ Sample.environment.Fresh {} ∧
      Run Sample.environment {} Sample.reconfigured.2.1 Sample.reconfigured.2.2 ∧
      ∃ es, (Sample.reconfigured.2.1.close Sample.environment.host Sample.reconfigured.2.2).2.log =
        ({} : World).log ++ es ∧ Event.Settled es := by
  have hkeys : Sample.config.keys.Nodup := by decide +kernel
  have hstart : Run Sample.environment {} Sample.started.1 Sample.started.2 :=
    .start hkeys Sample.start_eq
  have hrun := hstart.reconfigure Sample.diff_sound Sample.reconfigured_eq
  exact ⟨World.whole_empty, Sample.environment_fresh, hrun,
    ((closed_once World.whole_empty Sample.environment_fresh).2 _ _ hrun).2⟩

end RobotHost
