import RobotHost.Proofs.Graph.Teardown
import RobotHost.Proofs.Robot.Reconfiguring

/-!
# What a reconfiguration that fails closes

A reconfiguration that fails closes the graphs that it has built (`LocalRobot.Leftover`), wholesale:
every driver and every connection that was delivered for it. A driver is a new one each time, but a
connector may well answer an address with a connection that the robot has already. Such a
connection is closed with the rest, and with it whatever the robot at its other end holds.

That is the only way for something to be closed that the robot goes on to serve
(`LocalRobot.failure_closes_delivered`).
-/

namespace RobotHost

/-- The only event that closes a resource. -/
theorem Event.eq_closing {e : Event} {x : Resource} (h : e.closes? = some x) : e = x.closing := by
  cases e <;> cases h <;> rfl

/-! ## Graphs that are discarded -/

section Discard

variable {w w' : World}

theorem Graph.disposes_iff (g : Graph) (h : w.Quiet w') {e : Event} :
    g.Disposes w' e ↔ g.Disposes w e := by
  unfold Graph.Disposes
  simp only [g.resources_congr h.behind?_eq, h.disposes_iff]

/-- To discard graphs does no more than what they lead to. -/
theorem World.discard_disposes (h : Host) (gs : List Graph) (w : World) :
    Logs (fun e => ∃ g ∈ gs, g.Disposes w e) w (discard h gs w).2 := by
  induction gs generalizing w with
  | nil => exact .refl _ w
  | cons g rest ih =>
    have hquiet := g.close_quiet h w
    refine ((g.close_disposes h w).mono fun e he => ⟨g, List.mem_cons_self, he⟩).trans
      ((ih _).mono ?_)
    rintro e ⟨other, hother, he⟩
    exact ⟨other, List.mem_cons_of_mem _ hother, (other.disposes_iff hquiet).mp he⟩

/-- To discard graphs stops all their processes and closes all their parts. -/
theorem World.discard_notes (h : Host) {gs : List Graph} (hgs : ∀ g ∈ gs, g.manager.Keyed w) :
    Notes (gs.flatMap fun g => g.manager.processes.values.map .stopped ++
      (g.resources w).map Resource.closing) w (discard h gs w).2 := by
  induction gs generalizing w with
  | nil => exact notes_nil (List.prefix_refl _)
  | cons g rest ih =>
    have hquiet := g.close_quiet h w
    have hfirst := g.close_notes h (hgs g List.mem_cons_self)
    have hrest := ih (w := (g.close h w).2) fun other hother =>
      (hgs other (List.mem_cons_of_mem _ hother)).recalls hquiet.extends.toRecalls
    simp only [Graph.resources_congr _ hquiet.behind?_eq] at hrest
    exact hfirst.trans hrest

end Discard

namespace LocalRobot

/-! ## What is left of a preparation that fails -/

/-- The graphs that a preparation has built when it fails: they are new, they hold what was
delivered, and so far nothing was closed or stopped. -/
structure Leftover (env : Environment) (diff : Diff) (w : World) (zs : List Delivery)
    (gs : List Graph) (u : World) : Prop where
  world : w.Extends u
  deliveries : u.deliveries = w.deliveries ++ zs.map Delivery.event
  closings : u.closings = w.closings
  stoppings : u.stoppings = w.stoppings
  answered : ∀ z ∈ zs, ∃ v v', w.Extends v ∧ z.AnsweredBy env v v'
  intact : ∀ g ∈ gs, g.Intact u
  hired : ∀ g ∈ gs, ∀ p ∈ g.manager.processes.values, w.processes.get? p = none
  held : ∀ x ∈ gs.flatMap (Graph.resources · u), x ∈ zs.map Delivery.resource
  all : diff.added.keys.Nodup → diff.modified.keys.Nodup →
    ∀ x ∈ zs.map Delivery.resource, x ∈ gs.flatMap (Graph.resources · u)

variable {env : Environment} {diff : Diff} {w u : World} {gs : List Graph}

/-- The leftover of a build that ends early. -/
theorem leftover_of_begun {items done : List Item} {xs : List Delivery} {s : Site}
    (hdone : done <+: items) (hxs : List.Forall₂ Item.Delivers done xs) (hs : Progress env w xs s)
    (hitems : diff.added.keys.Nodup → diff.modified.keys.Nodup →
      (items.filterMap Item.key?).Nodup) :
    Leftover env diff w xs [s.graph] s.world := by
  have hbuilt := hs.built
  refine ⟨hbuilt.world, hbuilt.deliveries, hbuilt.closings, hbuilt.stoppings, hs.answered, ?_, ?_,
    ?_, ?_⟩
  · simpa using hbuilt.intact
  · simpa using fun p => hbuilt.new_process
  · simpa using fun x => hbuilt.mem_delivered
  · intro hadded hmodified x hx
    have hkeys := nodup_keys_of_begun hdone hxs (hitems hadded hmodified)
    simpa using (hbuilt.resources_perm hkeys).mem_iff.mpr hx

/-- What graphs hold that were built is not changed by what comes after. -/
theorem Leftover.resources_append {v : World} {xs : List Delivery} {fs : List Graph}
    (h : Leftover env diff w xs fs v) (hu : v.Extends u) :
    (fs ++ gs).flatMap (Graph.resources · u) =
      fs.flatMap (Graph.resources · v) ++ gs.flatMap (Graph.resources · u) := by
  rw [List.flatMap_append]
  congr 1
  exact List.flatMap_congr fun g hg => (h.intact g hg).resources_recalls hu.toRecalls

/-- What was left of one build and what is left of a later one are left of both. -/
theorem Leftover.append {v : World} {xs ys : List Delivery} {fs : List Graph}
    (h : Leftover env diff w xs fs v) (h' : Leftover env diff v ys gs u) :
    Leftover env diff w (xs ++ ys) (fs ++ gs) u where
  world := h.world.trans h'.world
  deliveries := by rw [h'.deliveries, h.deliveries, List.map_append, List.append_assoc]
  closings := h'.closings.trans h.closings
  stoppings := h'.stoppings.trans h.stoppings
  answered := by
    intro z hz
    rcases List.mem_append.mp hz with hz | hz
    · exact h.answered z hz
    · obtain ⟨t, t', ht, hanswer⟩ := h'.answered z hz
      exact ⟨t, t', h.world.trans ht, hanswer⟩
  intact := by
    intro g hg
    rcases List.mem_append.mp hg with hg | hg
    · exact (h.intact g hg).recalls h'.world.toRecalls
    · exact h'.intact g hg
  hired := by
    intro g hg p hp
    rcases List.mem_append.mp hg with hg | hg
    · exact h.hired g hg p hp
    · exact h.world.noProcess (h'.hired g hg p hp)
  -- what the first graphs hold is still behind their handles in the last world
  held := by
    intro x hx
    rw [h.resources_append h'.world, List.mem_append] at hx
    rw [List.map_append, List.mem_append]
    exact hx.imp (h.held x) (h'.held x)
  all := by
    intro hadded hmodified x hx
    rw [List.map_append, List.mem_append] at hx
    rw [h.resources_append h'.world, List.mem_append]
    exact hx.imp (h.all hadded hmodified x) (h'.all hadded hmodified x)

/-- Selecting parts and starting processes leaves nothing behind. -/
theorem leftover_of_plain (hw : w.Extends u) (hlog : World.Logs Event.Plain w u) :
    Leftover env diff w [] [] u where
  world := hw
  deliveries := by
    rw [(hlog.mono fun _ he => he.delivers).deliveries, List.map_nil, List.append_nil]
  closings := (hlog.mono fun _ he => he.closes).closings
  stoppings := (hlog.mono fun _ he => he.stops).stoppings
  answered := by simp
  intact := by simp
  hired := by simp
  held := by simp
  all := by simp

/-- Wherever a preparation fails, its graphs hold all that was delivered for it. -/
theorem Abandoned.leftover (h : Abandoned env diff w gs u) : ∃ zs, Leftover env diff w zs gs u := by
  have hwhole : ∀ {xs s}, Build.Complete env w diff.added.processes diff.added.items
      diff.added.functions xs s → Leftover env diff w xs [s.graph] s.world := fun hs =>
    leftover_of_begun (List.prefix_refl _) hs.items hs.progress fun hadded _ => hadded
  cases h with
  | added hdone hxs hs => exact ⟨_, leftover_of_begun hdone hxs hs fun hadded _ => hadded⟩
  | modified hs hdone hys ht =>
    exact ⟨_, (hwhole hs).append (leftover_of_begun hdone hys ht fun _ hmodified => hmodified)⟩
  | merge hs ht hu hlog =>
    have hnext := leftover_of_begun (List.prefix_refl _) ht.items ht.progress
      fun (_ : diff.added.keys.Nodup) hmodified => hmodified
    exact ⟨_, (hwhole hs).append (hnext.append (leftover_of_plain hu hlog))⟩

/-- A preparation that failed and was undone: what the log tells up to the failure, and what it
tells of the leftovers that were closed. -/
structure Undone (env : Environment) (diff : Diff) (w : World) (zs : List Delivery)
    (es fs : List Event) (w' : World) : Prop where
  leftover : ∃ u, Leftover env diff w zs (diff.staged env w) u ∧ u.Quiet w'
  log : w'.log = w.log ++ (es ++ fs)
  delivered : es.filterMap Event.delivers? = zs.map Delivery.resource
  closed : es.filterMap Event.closes? = []
  stopped : es.filterMap Event.stops? = []
  undelivered : fs.filterMap Event.delivers? = []
  disposes : ∀ f ∈ fs, ∃ g ∈ diff.staged env w, g.Disposes w' f
  notes : ∀ g ∈ diff.staged env w, (∀ p ∈ g.manager.processes.values, .stopped p ∈ fs) ∧
    ∀ x ∈ g.resources w', x.closing ∈ fs

namespace Undone

variable {zs : List Delivery} {es fs : List Event} {w' : World}

/-- While leftovers are closed, nothing more is delivered. -/
theorem delivers (h : Undone env diff w zs es fs w') :
    (es ++ fs).filterMap Event.delivers? = zs.map Delivery.resource := by
  rw [List.filterMap_append, h.delivered, h.undelivered, List.append_nil]

/-- What the graphs held that were closed was delivered. -/
theorem mem_delivers (h : Undone env diff w zs es fs w') {g : Graph} (hg : g ∈ diff.staged env w)
    {x : Resource} (hx : x ∈ g.resources w') : x ∈ (es ++ fs).filterMap Event.delivers? := by
  obtain ⟨u, hleft, hquiet⟩ := h.leftover
  rw [g.resources_congr hquiet.behind?_eq] at hx
  rw [h.delivers]
  exact hleft.held x (List.mem_flatMap.mpr ⟨g, hg, hx⟩)

end Undone

/-- A preparation that fails closes each graph that it has built. -/
theorem undone_of_prepare {r : LocalRobot} {e : RobotError} {w' : World} (hr : r.graph.Intact w)
    (h : r.prepare env diff w = .error e w') : ∃ zs es fs, Undone env diff w zs es fs w' := by
  obtain ⟨-, u, habandoned, rfl⟩ := prepare_error_staged hr h
  obtain ⟨zs, hleft⟩ := habandoned.leftover
  have hquiet := World.discard_quiet env.host (diff.staged env w) u
  obtain ⟨es, hes⟩ := hleft.world.log
  obtain ⟨fs, hfs, hdisposes⟩ := World.discard_disposes env.host (diff.staged env w) u
  obtain ⟨fs', hfs', hnotes⟩ := World.discard_notes env.host fun g hg =>
    (hleft.intact g hg).processNamed
  obtain ⟨fs'', hfs'', hundelivered⟩ := hquiet.logs
  -- all three tell of the same events
  rw [hfs] at hfs' hfs''
  cases List.append_cancel_left hfs'
  cases List.append_cancel_left hfs''
  refine ⟨zs, es, fs, ⟨u, hleft, hquiet⟩, by rw [hfs, ← hes, List.append_assoc], ?_, ?_, ?_, ?_, ?_,
    ?_⟩
  · have hdelivered := World.delivered_of_deliveries hleft.deliveries
    rw [World.delivered_append hes.symm] at hdelivered
    exact List.append_cancel_left hdelivered
  · have hclosings := hleft.closings
    rw [World.closings_append hes.symm] at hclosings
    exact List.append_right_eq_self.mp hclosings
  · have hstoppings := hleft.stoppings
    rw [World.stoppings_append hes.symm] at hstoppings
    exact List.append_right_eq_self.mp hstoppings
  · exact List.filterMap_eq_nil_iff.mpr hundelivered
  · intro f hf
    obtain ⟨g, hg, hdispose⟩ := hdisposes f hf
    exact ⟨g, hg, (g.disposes_iff hquiet).mpr hdispose⟩
  · intro g hg
    have hall : ∀ f ∈ g.manager.processes.values.map Event.stopped ++
        (g.resources u).map Resource.closing, f ∈ fs := fun f hf =>
      hnotes f (List.mem_flatMap.mpr ⟨g, hg, hf⟩)
    rw [g.resources_congr hquiet.behind?_eq]
    refine ⟨fun p hp => hall _ (List.mem_append_left _ (List.mem_map_of_mem hp)), fun x hx =>
      hall _ (List.mem_append_right _ (List.mem_map_of_mem hx))⟩

/-- Only a preparation that fails is reported by an error that is not about teardown. -/
theorem undone_of_error {r r' : LocalRobot} {c : Config} {w' : World} {e : RobotError}
    (hr : r.graph.Intact w) (h : r.reconfigure env c diff w = (.error e, r', w'))
    (he : ¬e.OfTeardown) : ∃ zs es fs, Undone env diff w zs es fs w' := by
  rcases reconfigure_cases h with ⟨-, hok, -, -⟩ | ⟨-, e', hprepare, -, -⟩ |
    ⟨-, draft, u, hprepare, -, hfinish⟩
  · cases hok
  · exact undone_of_prepare hr hprepare
  · obtain ⟨p⟩ := prepare_ok hr hprepare
    exact absurd ((Draft.finish_spec env.host p.hselected.idle u).2 e (by rw [hfinish])) he

end LocalRobot

/-! ## What is closed by a failure -/

/-- A factory that makes none of the drivers that a graph has. -/
structure Environment.Renews (env : Environment) (g : Graph) (w : World) : Prop where
  known : ∀ d, .driver d ∈ g.resources w → d.index < w.drivers.size
  factory : ∀ u b d, w.Recalls u → env.factory u b = .ok (.existing d) →
    .driver d ∉ g.resources w

/-- What such a factory has delivered is no driver of the graph. -/
theorem Environment.Renews.not_mem {env : Environment} {g : Graph} {w v v' : World}
    (henv : env.Renews g w) (hv : w.Extends v) {z : Delivery} (hz : z.AnsweredBy env v v')
    {d : Ref .driver} (hd : z.resource = .driver d) : .driver d ∉ g.resources w := by
  cases z with
  | remote c connection => cases hd
  | driver name b d' =>
    cases hd
    rcases hz with hold | ⟨new, -, hnext, -⟩
    · exact henv.factory v b d hv.toRecalls hold
    · intro hmem
      have hknown := henv.known d hmem
      rw [hnext] at hknown
      exact Nat.lt_irrefl _ (Nat.lt_of_lt_of_le hknown hv.drivers)

namespace LocalRobot

variable {env : Environment} {diff : Diff} {w : World}

/-- A reconfiguration that fails closes nothing of what the robot serves, unless it was given a
connection that leads there. If names are distinct it closes all that it was given, so also a
connection that the robot had already. -/
theorem failure_closes_delivered {r r' : LocalRobot} {c : Config} {w' : World} {e : RobotError}
    (hr : Reachable env r w) (henv : env.Renews r.graph w)
    (h : r.reconfigure env c diff w = (.error e, r', w')) (he : ¬e.OfTeardown) :
    ∃ es, w'.log = w.log ++ es ∧
      (∀ k name b, r.graph.backing? w k name = some b →
        b.resource ∈ es.filterMap Event.closes? →
          ∃ c, .connection c ∈ es.filterMap Event.delivers? ∧
            w'.Disposes (.connection c) b.resource.closing) ∧
      (diff.added.keys.Nodup → diff.modified.keys.Nodup →
        ∀ x ∈ es.filterMap Event.delivers?, x ∈ es.filterMap Event.closes?) := by
  obtain ⟨zs, es, fs, hundone⟩ := undone_of_error hr.intact h he
  obtain ⟨u, hleft, hquiet⟩ := hundone.leftover
  have hcloses : (es ++ fs).filterMap Event.closes? = fs.filterMap Event.closes? := by
    rw [List.filterMap_append, hundone.closed, List.nil_append]
  refine ⟨es ++ fs, hundone.log, fun k name b hb hclosed => ?_, fun hadded hmodified x hx => ?_⟩
  · rw [hcloses] at hclosed
    obtain ⟨f, hf, hbf⟩ := List.mem_filterMap.mp hclosed
    rw [Event.eq_closing hbf] at hf
    obtain ⟨g, hg, ⟨p, -, hp⟩ | ⟨x, hx, hdisposes⟩⟩ := hundone.disposes _ hf
    · have hnone := b.resource.closes?_closing
      rw [hp] at hnone
      cases hnone
    have hheld := hundone.mem_delivers hg hx
    cases x with
    | connection c => exact ⟨c, hheld, hdisposes⟩
    -- a driver that was delivered is not one that is served
    | driver d =>
      rw [hundone.delivers] at hheld
      obtain ⟨z, hz, hzd⟩ := List.mem_map.mp hheld
      obtain ⟨v, v', hv, hanswer⟩ := hleft.answered z hz
      have hlive : b.resource ∈ r.graph.resources w := Graph.mem_resources.mpr ⟨k, name, b, hb, rfl⟩
      have hsame := b.resource.closes?_closing
      rw [hdisposes.of_driver] at hsame
      rw [← Option.some.inj hsame] at hlive
      exact absurd hlive (henv.not_mem hv hanswer hzd)
  · rw [hundone.delivers] at hx
    rw [hcloses]
    obtain ⟨g, hg, hxg⟩ := List.mem_flatMap.mp (hleft.all hadded hmodified x hx)
    rw [← g.resources_congr hquiet.behind?_eq] at hxg
    exact List.mem_filterMap.mpr ⟨_, (hundone.notes g hg).2 x hxg, x.closes?_closing⟩

end LocalRobot

/-! ## A connection that is given twice -/

namespace Sample

/-- Simulated drivers, and one and the same robot whenever its address is called. -/
def sharing : Environment := Simulated.environment host (.ofList [("far:80", .robot ⟨0⟩)])

/-- A world with one robot that answers. -/
def answering : World := { robots := Table.push {} {} }

def attached : Config where
  remotes := [{ name := "away", address := "far:80" }]

/-- The same robot under another name, and a camera that cannot be made. -/
def attachingAgain : Diff where
  added :=
    { remotes := [{ name := "again", address := "far:80" }]
      components := [{ name := "eye", type := .camera, model := "real" }] }

theorem attached_again : ∃ r w e r' w', LocalRobot.start sharing attached answering = .ok r w ∧
    r.reconfigure sharing {} attachingAgain w = (.error e, r', w') ∧ ¬e.OfTeardown ∧
    r.graph.resources w = [.connection (.robot ⟨0⟩)] ∧
    w'.log = w.log ++ [.connected "far:80" (some (.robot ⟨0⟩)),
      .constructed (.part .camera) "eye" none, .hungUp (.robot ⟨0⟩)] := by
  obtain ⟨r, w, hstart, hrun⟩ := exists_start sharing attached answering
    (P := fun r w =>
      let x := r.reconfigure sharing {} attachingAgain w
      (match x.1 with
      | .error (.construct _ _ _) => true
      | _ => false) &&
        decide (r.graph.resources w = [.connection (.robot ⟨0⟩)] ∧
          x.2.2.log = w.log ++ [.connected "far:80" (some (.robot ⟨0⟩)),
            .constructed (.part .camera) "eye" none, .hungUp (.robot ⟨0⟩)])) (by decide +kernel)
  rcases hmove : r.reconfigure sharing {} attachingAgain w with ⟨outcome, r', w'⟩
  simp only [hmove, Bool.and_eq_true, decide_eq_true_eq] at hrun
  obtain ⟨hconstruct, hlive, hlog⟩ := hrun
  split at hconstruct
  · exact ⟨r, w, _, r', w', hstart, hmove, id, hlive, hlog⟩
  · cases hconstruct

theorem sharing_renews {g : Graph} {w : World} (hg : g.resources w = [.connection (.robot ⟨0⟩)]) :
    sharing.Renews g w where
  known := by
    intro d hd
    simp [hg] at hd
  factory := by
    intro u b d _ h
    exact absurd h (Simulated.make_ne_existing b d)

end Sample

namespace LocalRobot

theorem failure_closes_delivered_sample : ∃ r w e r' w', Reachable Sample.sharing r w ∧
    Sample.sharing.Renews r.graph w ∧
    r.reconfigure Sample.sharing {} Sample.attachingAgain w = (.error e, r', w') ∧
    ¬e.OfTeardown ∧ ∃ es, w'.log = w.log ++ es ∧
      ∀ x ∈ es.filterMap Event.delivers?, x ∈ es.filterMap Event.closes? := by
  obtain ⟨r, w, e, r', w', hstart, hmove, he, hlive, -⟩ := Sample.attached_again
  have henv := Sample.sharing_renews hlive
  obtain ⟨es, hlog, -, hall⟩ := failure_closes_delivered (.start hstart) henv hmove he
  exact ⟨r, w, e, r', w', .start hstart, henv, hmove, he, es, hlog,
    hall (by decide +kernel) (by decide +kernel)⟩

/-- A robot fails to take up a camera, and hangs up on the remote robot that it goes on to serve. -/
theorem failure_closes_shared_connection : ∃ r w e r' w', Reachable Sample.sharing r w ∧
    Sample.sharing.Renews r.graph w ∧
    r.reconfigure Sample.sharing {} Sample.attachingAgain w = (.error e, r', w') ∧
    ¬e.OfTeardown ∧ ∃ k name b es, r.graph.backing? w k name = some b ∧ w'.log = w.log ++ es ∧
      b.resource ∈ es.filterMap Event.closes? := by
  obtain ⟨r, w, e, r', w', hstart, hmove, he, hlive, hlog⟩ := Sample.attached_again
  have hmem : .connection (.robot ⟨0⟩) ∈ r.graph.resources w := by
    rw [hlive]
    exact List.mem_singleton.mpr rfl
  obtain ⟨k, name, b, hb, hconnection⟩ := Graph.mem_resources.mp hmem
  refine ⟨r, w, e, r', w', .start hstart, Sample.sharing_renews hlive, hmove, he, k, name, b, _, hb,
    hlog, ?_⟩
  rw [hconnection]
  decide

end LocalRobot

end RobotHost
