import RobotHost.Proofs.Robot.Disposal

/-!
# What is modified but does not run

A diff may modify parts that do not run under their kind. They are built like all others, and then
skipped, as there is no handle that they could come behind. So when the new graph is installed it
serves all that was delivered but for these (`LocalRobot.reconfigure_skips_missing`): in a fresh
environment what was delivered for them is neither served nor closed.
-/

namespace RobotHost

namespace LocalRobot

namespace Preparation

variable {env : Environment} {r : LocalRobot} {diff : Diff} {w w' : World} {draft : Draft}
  (p : Preparation env r diff w draft w')

include p

/-- What the draft holds ran before, or was delivered to be added, or to take the place of a part of
the draft. -/
theorem held_of_graph (hr : r.graph.Intact w) {x : Resource}
    (hx : x ∈ draft.graph.resources w') : x ∈ r.graph.resources w ∨
      x ∈ p.xs.map Delivery.resource ∨
      ∃ y ∈ p.ys, y.key ∈ draft.graph.keys ∧ y.resource = x := by
  have hmerges := p.merges hr
  have hadded := p.hadded.progress.built
  have hmodified := p.hmodified.progress.built
  obtain ⟨k, name, b, hb, rfl⟩ := Graph.mem_resources.mp hx
  obtain ⟨h, hh, hbehind⟩ := Graph.backing?_eq_some_iff.mp hb
  cases hnext : (p.modified.graph.entries k).get? name with
  | some h' =>
    obtain ⟨y, hy, hkey, hbacking⟩ := hmodified.serves k name h' hnext
    rw [hmerges.exchanged k name h h' hh hnext, hbacking] at hbehind
    cases hbehind
    exact Or.inr (Or.inr ⟨y, hy, hkey ▸ Graph.mem_keys.mpr ⟨h, hh⟩, rfl⟩)
  | none =>
    rw [hmerges.kept k name h hh hnext] at hbehind
    -- nothing was exchanged, so it was there already when the draft was merged
    rcases p.hmerged.get?_cases (p.get?_merged hh) with hnew | ⟨-, hlive⟩
    · obtain ⟨z, hz, -, hbacking⟩ := hadded.serves k name h hnew
      rw [hmodified.world.behind _ _ hbacking] at hbehind
      cases hbehind
      exact Or.inr (Or.inl (List.mem_map_of_mem hz))
    · obtain ⟨b', hb'⟩ := hr.known k name h hlive
      rw [p.extends_modified.behind _ _ hb'] at hbehind
      cases hbehind
      exact Or.inl (Graph.mem_resources.mpr
        ⟨k, name, b, Graph.backing?_eq_some_iff.mpr ⟨h, hlive, hb'⟩, rfl⟩)

/-- What was delivered for a part that does not run is new, and neither held nor closed. -/
theorem skipped {w₀ w'' : World} {ds zs : List Resource} {outcome : Except RobotError Unit}
    (hw₀ : w₀.Whole) (henv : env.Fresh w₀) (hr : Balanced w₀ w r.graph ds zs)
    (hdiff : diff.Separate r.graph) (hlive : ∀ key ∈ diff.removed.keys, key ∈ r.graph.keys)
    (hfinish : draft.finish env.host w' = (outcome, w'')) {y : Delivery} (hy : y ∈ p.ys)
    (hmissing : y.key ∉ r.graph.keys) : y.resource ∉ draft.graph.resources w' ∧
      ∃ cs, w''.closings = w.closings ++ cs ∧ y.resource ∉ cs := by
  have hissued := p.issued_modified hw₀ henv hr
  have hnew := p.not_mem_resources hw₀ henv hr y hy
  have hdistinct := (List.nodup_append.mp hissued.distinct).2.1
  have hkey : y.key ∈ diff.modified.keys := by
    rw [show diff.modified.keys = p.ys.map Delivery.key from p.hmodified.keys]
    exact List.mem_map_of_mem hy
  constructor
  · intro hheld
    -- it would have run before, or been added, or come in under a name that was there
    rcases p.held_of_graph hr.intact hheld with hran | hadded | ⟨y', hy', hserved, heq⟩
    · exact hnew hran
    · rw [List.map_append] at hdistinct
      exact (List.nodup_append.mp hdistinct).2.2 _ hadded _ (List.mem_map_of_mem hy) rfl
    · obtain rfl := List.inj_on_of_nodup_map hdistinct (List.mem_append_right _ hy')
        (List.mem_append_right _ hy) heq
      rcases (p.mem_keys_graph hr.intact hdiff.added_removed).mp hserved with ⟨hran, -⟩ | hadded
      · exact hmissing hran
      · exact hdiff.added_modified _ hadded hkey
  · obtain ⟨cs, hcs, hcount⟩ := p.closes hw₀ henv hdiff hlive hr hfinish
    refine ⟨cs, hcs, List.count_eq_zero.mp ?_⟩
    -- what is closed is what was retired or removed, and both ran before
    have hmem : y.resource ∈ ds ++ (p.xs ++ p.ys).map Delivery.resource :=
      List.mem_append_right _ (List.mem_map_of_mem (List.mem_append_right _ hy))
    rw [hcount _ (hissued.own _ hmem), List.count_eq_zero, List.mem_append, not_or]
    exact ⟨fun hretired => hnew (p.held_of_retired hr.intact hdiff hretired),
      fun hremoved => hnew (p.held_of_removed hr.intact hdiff hlive hremoved)⟩

end Preparation

/-- When a new graph is installed it serves all that was delivered for what the diff adds, and for
what it modifies and what runs. What was delivered to modify parts that do not run is served by
nobody in a fresh environment, and it is not closed either. -/
theorem reconfigure_skips_missing {env : Environment} {r r' : LocalRobot} {c : Config} {diff : Diff}
    {w w' : World} {outcome : Except RobotError Unit} (hr : Reachable env r w)
    (hdiff : diff.Separate r.graph) (h : r.reconfigure env c diff w = (outcome, r', w'))
    (hinstalls : Installs outcome) :
    ∃ xs ys es, List.Forall₂ Item.Delivers diff.added.items xs ∧
      List.Forall₂ Item.Delivers diff.modified.items ys ∧ w'.log = w.log ++ es ∧
      es.filterMap Event.delivers? = (xs ++ ys).map Delivery.resource ∧
      (∀ x ∈ xs, x.resource ∈ r'.graph.resources w') ∧
      (∀ y ∈ ys, y.key ∈ r.graph.keys → y.resource ∈ r'.graph.resources w') ∧
      ∀ w₀, w₀.Whole → env.Fresh w₀ → Run env w₀ r w →
        (∀ key ∈ diff.removed.keys, key ∈ r.graph.keys) → ∀ y ∈ ys, y.key ∉ r.graph.keys →
        y.resource ∉ r'.graph.resources w' ∧ y.resource ∉ es.filterMap Event.closes? := by
  rcases reconfigure_cases h with ⟨hempty, rfl, rfl, rfl⟩ | ⟨-, e, hprepare, rfl, -⟩ |
    ⟨-, draft, u, hprepare, rfl, hfinish⟩
  · obtain ⟨hadded, hmodified, -⟩ := moved_of_isEmpty hempty r.graph w'
    exact ⟨[], [], [], hadded, hmodified, by simp, rfl, by simp, by simp, by simp⟩
  -- what ends the preparation is no failure of a teardown
  · exact absurd (hinstalls e rfl) (prepare_error hr.intact hprepare).1
  · obtain ⟨p⟩ := prepare_ok hr.intact hprepare
    have hquiet := Draft.finish_quiet env.host p.hselected.idle u
    rw [hfinish] at hquiet
    have hheld : ∀ {x : Delivery}, (∃ h, (draft.graph.entries x.kind).get? x.name = some h ∧
        w'.behind? (x.kind.slot h) = some x.backing) → x.resource ∈ draft.graph.resources w' :=
      fun hx => Graph.mem_resources.mpr ⟨_, _, _, Graph.backing?_eq_some_iff.mpr hx, rfl⟩
    have hdelivered := World.delivered_of_deliveries (hquiet.logs.deliveries.trans p.deliveries)
    obtain ⟨es, hes⟩ := p.log.trans hquiet.extends.log
    rw [World.delivered_append hes.symm, List.append_cancel_left_eq] at hdelivered
    refine ⟨p.xs, p.ys, es, p.hadded.items, p.hmodified.items, hes.symm, hdelivered,
      fun x hx => hheld (p.serves_added hr.intact hdiff hquiet hx), fun y hy hlive => ?_,
      fun w₀ hw₀ henv hrun hremoved y hy hmissing => ?_⟩
    · obtain ⟨h, -, hserved⟩ := p.serves_modified hr.intact hdiff hquiet hy hlive
      exact hheld ⟨h, hserved⟩
    · obtain ⟨ds, zs, hbalanced⟩ := hrun.balanced hw₀ henv
      obtain ⟨hnot, cs, hcs, hopen⟩ :=
        p.skipped hw₀ henv hbalanced hdiff hremoved hfinish hy hmissing
      rw [World.closings_append hes.symm, List.append_cancel_left_eq] at hcs
      rw [Graph.resources_congr draft.graph hquiet.behind?_eq, hcs]
      exact ⟨hnot, hopen⟩

end LocalRobot

/-! ## An arm that does not run -/

namespace Sample

def oneArmed : Config where
  components := [{ name := "hand", type := .arm }]

/-- Another arm in place of the one that runs, and in place of one that does not. -/
def rearming : Diff where
  modified :=
    { components := [{ name := "hand", type := .arm }, { name := "ghost", type := .arm }] }

theorem rearming_separate (g : Graph) : rearming.Separate g where
  added := by decide
  modified := by decide +kernel
  removed := by decide
  added_modified := nofun
  added_removed := nofun
  modified_removed := by decide +kernel
  new := nofun

theorem rearmed : ∃ r w r' w', LocalRobot.start environment oneArmed {} = .ok r w ∧
    r.reconfigure environment oneArmed rearming w = (.ok (), r', w') ∧
    r.graph.keys = [(.driver (.part .arm), "hand")] ∧
    r'.graph.resources w' = [.driver ⟨1⟩] ∧
    w'.log = [.constructed (.part .arm) "hand" (some ⟨0⟩),
      .constructed (.part .arm) "hand" (some ⟨1⟩), .constructed (.part .arm) "ghost" (some ⟨2⟩),
      .closed ⟨0⟩] := by
  obtain ⟨r, w, hstart, hrun⟩ := exists_start environment oneArmed {}
    (P := fun r w =>
      let x := r.reconfigure environment oneArmed rearming w
      x.1.isOk && decide (r.graph.keys = [(.driver (.part .arm), "hand")] ∧
        x.2.1.graph.resources x.2.2 = [.driver ⟨1⟩] ∧
        x.2.2.log = [.constructed (.part .arm) "hand" (some ⟨0⟩),
          .constructed (.part .arm) "hand" (some ⟨1⟩), .constructed (.part .arm) "ghost" (some ⟨2⟩),
          .closed ⟨0⟩])) (by decide +kernel)
  rcases hmove : r.reconfigure environment oneArmed rearming w with ⟨_ | ⟨⟩, r', w'⟩
  · simp [hmove, Except.isOk, Except.toBool] at hrun
  · simp only [hmove, Bool.and_eq_true, decide_eq_true_eq] at hrun
    exact ⟨r, w, r', w', hstart, hmove, hrun.2⟩

end Sample

namespace LocalRobot

theorem reconfigure_skips_missing_sample : ∃ r w r' w', Reachable Sample.environment r w ∧
    Sample.rearming.Separate r.graph ∧
    r.reconfigure Sample.environment Sample.oneArmed Sample.rearming w = (.ok (), r', w') ∧
    ∃ ys es, List.Forall₂ Item.Delivers Sample.rearming.modified.items ys ∧ w'.log = w.log ++ es ∧
      ∀ y ∈ ys, (y.key ∈ r.graph.keys → y.resource ∈ r'.graph.resources w') ∧
        (y.key ∉ r.graph.keys → y.resource ∉ es.filterMap Event.closes?) := by
  obtain ⟨r, w, r', w', hstart, hmove, -⟩ := Sample.rearmed
  have hrun : Run Sample.environment {} r w := .start (by decide +kernel) hstart
  obtain ⟨xs, ys, es, -, hys, hlog, -, -, hserved, hskipped⟩ :=
    reconfigure_skips_missing (.start hstart) (Sample.rearming_separate r.graph) hmove installs_ok
  exact ⟨r, w, r', w', .start hstart, Sample.rearming_separate r.graph, hmove, ys, es, hys, hlog,
    fun y hy => ⟨hserved y hy, fun hmissing => (hskipped {} World.whole_empty
      Sample.environment_fresh hrun nofun y hy hmissing).2⟩⟩

/-- An arm that does not run is modified, and what is made for it is lost. -/
theorem reconfigure_loses_arm : ∃ r w r' w', Reachable Sample.environment r w ∧
    Sample.rearming.Separate r.graph ∧
    r.reconfigure Sample.environment Sample.oneArmed Sample.rearming w = (.ok (), r', w') ∧
    .driver ⟨2⟩ ∈ w'.delivered ∧ .driver ⟨2⟩ ∉ r'.graph.resources w' ∧
    .driver ⟨2⟩ ∉ w'.closings := by
  obtain ⟨r, w, r', w', hstart, hmove, -, hheld, hlog⟩ := Sample.rearmed
  refine ⟨r, w, r', w', .start hstart, Sample.rearming_separate r.graph, hmove, ?_, ?_, ?_⟩
  · rw [World.delivered, hlog]
    decide
  · rw [hheld]
    decide
  · rw [World.closings, hlog]
    decide

end LocalRobot

end RobotHost
