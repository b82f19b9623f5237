import RobotHost.Proofs.Robot.Failing
import RobotHost.Proofs.Robot.Matching

/-!
# What is selected besides a graph's own parts

To select the parts that a configuration names is to look for their names, and drivers are looked
for behind remotes as well. So a driver is selected that the graph itself does not have if one of
its remotes leads to it. It goes on being found through the graph when what was selected is taken
out, and is closed when what was selected is closed.

Apart from that a selection takes just what the graph has of what is named, and leaves no trace of
it in the graph (`Graph.select_exact`).
-/

namespace RobotHost

namespace Graph

variable {g f : Graph} {c : Config} {w w' : World}

/-- Of what a configuration names the graph itself has all drivers that are found. -/
def Owns (g : Graph) (w : World) (c : Config) : Prop :=
  ∀ k name h, (.driver k, name) ∈ c.keys → g.find? w (.driver k) name = some h →
    (.driver k, name) ∈ g.keys

/-- In a linked world all drivers are selected that are named and found. -/
theorem Selected.mem_keys_driver (hg : g.Intact w) (hw : w.Linked) (hs : Selected g w c f w')
    {k : DriverKind} {name : String} : (.driver k, name) ∈ f.keys ↔
      (.driver k, name) ∈ c.keys ∧ ∃ h, g.find? w (.driver k) name = some h := by
  constructor
  · intro hkey
    obtain ⟨h', hh'⟩ := mem_keys.mp hkey
    obtain ⟨hnamed, h, hh, -⟩ := hs.drivers k name h' hh'
    exact ⟨hnamed, h, hh⟩
  · rintro ⟨hnamed, h, hh⟩
    obtain ⟨x, hx⟩ := hg.find?_known hw hh
    exact hs.found k name h x hnamed hh hx

/-- A remote robot is selected if the configuration names it and the graph has it. -/
theorem Selected.mem_keys_remote (hs : Selected g w c f w') {name : String} :
    (.remote, name) ∈ f.keys ↔ (.remote, name) ∈ c.keys ∧ (.remote, name) ∈ g.keys := by
  simp only [mem_keys, hs.remotes, exists_and_left]

/-- What was selected of a graph that has all that is found serves what the graph does. -/
theorem Selected.backing?_own (hg : g.Intact w) (hs : Selected g w c f w') (howns : g.Owns w c)
    {k : Kind} {name : String} {x : Backing} (hx : f.backing? w' k name = some x) :
    g.backing? w k name = some x := by
  obtain ⟨h', hh', hbehind⟩ := backing?_eq_some_iff.mp hx
  match k with
  | .remote =>
    have hown := ((hs.remotes name h').mp hh').2
    obtain ⟨y, hy⟩ := hg.known _ _ _ hown
    rw [hs.world.behind _ _ hy] at hbehind
    cases hbehind
    exact backing?_eq_some_iff.mpr ⟨h', hown, hy⟩
  | .driver k =>
    obtain ⟨hnamed, h, hh, hcopies⟩ := hs.drivers k name h' hh'
    -- the handle that was found is the graph's own
    obtain ⟨own, hown⟩ := mem_keys.mp (howns k name h hnamed hh)
    rw [find?_of_get? hown] at hh
    cases hh
    obtain ⟨y, hy⟩ := hg.known _ _ _ hown
    rw [hcopies.behind y hy] at hbehind
    cases hbehind
    exact backing?_eq_some_iff.mpr ⟨h, hown, hy⟩

/-- What is left of a graph when others are taken out serves what it did. -/
theorem Intact.backing?_mergeRemove (hg : g.Intact w) (hw : w.Recalls w') {k : Kind} {name : String}
    {x : Backing} (hx : (g.mergeRemove f).backing? w' k name = some x) :
    (k, name) ∉ f.keys ∧ g.backing? w k name = some x := by
  obtain ⟨h, hh, hbehind⟩ := backing?_eq_some_iff.mp hx
  rw [get?_mergeRemove] at hh
  split at hh
  · cases hh
  · next hname =>
    refine ⟨fun hkey => hname ((NameMap.mem_names_iff _).mpr (mem_keys.mp hkey)), ?_⟩
    rw [← hg.backing?_recalls hw]
    exact backing?_eq_some_iff.mpr ⟨h, hh, hbehind⟩

/-- No process is managed any more that was selected and taken out. -/
theorem Selected.not_mem_processes (hg : g.Intact w) (hs : Selected g w c f w') {p : Ref .process}
    (hp : p ∈ f.manager.processes.values) : p ∉ (g.mergeRemove f).manager.processes.values := by
  rw [NameMap.mem_values_iff] at hp ⊢
  rintro ⟨id', hrest⟩
  obtain ⟨id, hid⟩ := hp
  have hrest : (g.manager.processes.eraseAll f.manager.processes.names).get? id' = some p := hrest
  rw [NameMap.get?_eraseAll] at hrest
  split at hrest
  · cases hrest
  · next hname =>
    -- a process goes by one id only
    have hown := ((hs.processes id p).mp hid).2
    have hsame := hg.processNamed.processId hrest
    rw [hg.processNamed.processId hown] at hsame
    exact hname (hsame ▸ (NameMap.mem_names_iff _).mpr ⟨p, hid⟩)

/-- If no process is named twice and all types name kinds of drivers, a selection succeeds. Of
remotes, functions and processes it takes those that the graph has and that are named, and of
drivers those that are named and that the graph has or that lie behind its remotes. If none lies
there under a name that is selected, none is found under it once the selection is taken out. If the
graph itself has all that is found, the selection is just of what it has and what is named, and
holds nothing that is left in the graph, as long as the graph holds nothing twice. -/
theorem select_exact (h : Host) (hg : g.Intact w) (hw : w.Linked) (hids : c.processIds.Nodup)
    (htypes : ∀ x ∈ c.components, x.type.driverKind? ≠ none) :
    ∃ f w', g.select h c w = .ok f w' ∧ Selected g w c f w' ∧
      (∀ k name, (.driver k, name) ∈ f.keys ↔ (.driver k, name) ∈ c.keys ∧
        ((.driver k, name) ∈ g.keys ∨ ∃ x, g.beyond? w (.driver k) name = some x)) ∧
      (∀ k name, (k, name) ∈ f.keys → g.beyond? w k name = none →
        (g.mergeRemove f).find? w' k name = none) ∧
      (∀ p ∈ f.manager.processes.values, p ∉ (g.mergeRemove f).manager.processes.values) ∧
      (g.Owns w c → (∀ key, key ∈ f.keys ↔ key ∈ c.keys ∧ key ∈ g.keys) ∧
        ((g.resources w).Nodup → ∀ x ∈ f.resources w', x ∉ (g.mergeRemove f).resources w')) := by
  obtain ⟨f, w', hselect⟩ := exists_select_eq_ok h hg.processNamed hids htypes
  have hs := select_ok hg hselect
  refine ⟨f, w', hselect, hs, fun k name => ?_, fun k name hkey hnone => ?_, fun p hp =>
    hs.not_mem_processes hg hp, fun howns => ⟨fun key => ?_, fun hnodup x hx hrest => ?_⟩⟩
  · rw [hs.mem_keys_driver hg hw, exists_find?_iff]
  · exact find?_mergeRemove hkey ((beyond?_wires hs.world).trans hnone)
  · obtain ⟨k, name⟩ := key
    match k with
    | .remote => exact hs.mem_keys_remote
    | .driver k =>
      rw [hs.mem_keys_driver hg hw]
      refine and_congr_right fun hnamed => ⟨fun ⟨x, hx⟩ => howns k name x hnamed hx, fun hkey => ?_⟩
      exact exists_find?_iff.mpr (Or.inl hkey)
  · obtain ⟨k, name, b, hb, rfl⟩ := mem_resources.mp hx
    obtain ⟨k', name', b', hb', heq⟩ := mem_resources.mp hrest
    obtain ⟨hgone, hb'⟩ := hg.backing?_mergeRemove hs.world.toRecalls hb'
    -- one resource has one key, and this one was taken out of the rest
    have hsame := eq_of_resource_eq hnodup hb' (hs.backing?_own hg howns hb) heq
    rw [hsame] at hgone
    obtain ⟨own, hown, -⟩ := backing?_eq_some_iff.mp hb
    exact hgone (mem_keys.mpr ⟨own, hown⟩)

end Graph

/-! ## A robot behind another -/

namespace Sample

def armed : Config where
  components := [{ name := "hand", type := .arm }]

/-- A robot with an arm. -/
def far : Site := stateAfter (Build.config sharing armed ⟨{}, {}⟩)

theorem far_built : ({} : World).Extends far.world ∧ far.graph.Intact far.world := by
  unfold far
  cases hbuild : Build.config sharing armed ⟨{}, {}⟩ with
  | ok _ s =>
    obtain ⟨xs, hcomplete⟩ := Build.staged_ok (Build.config_eq _ ▸ hbuild)
    exact ⟨hcomplete.progress.built.world, hcomplete.progress.built.intact⟩
  | error e s =>
    obtain ⟨-, done, xs, -, -, hs⟩ := Build.staged_error (Build.config_eq _ ▸ hbuild)
    exact ⟨hs.built.world, hs.built.intact⟩

/-- A world in which that robot answers. -/
def inhabited : World := { far.world with robots := far.world.robots.push far.graph }

theorem inhabited_linked : inhabited.Linked :=
  (World.linked_empty.recalls far_built.1.toRecalls).push far_built.2

/-- A robot with a camera that the other one is attached to. -/
def watching : Config where
  remotes := attached.remotes
  components := [{ name := "eye", type := .camera }]

def wanted : Config where
  components := [{ name := "eye", type := .camera }, { name := "hand", type := .arm }]

theorem wanted_selected : ∃ r w f w', LocalRobot.start sharing watching inhabited = .ok r w ∧
    r.graph.select host wanted w = .ok f w' ∧
    (.driver (.part .arm), "hand") ∉ r.graph.keys ∧ (.driver (.part .arm), "hand") ∈ f.keys ∧
    ((r.graph.mergeRemove f).find? w' (.driver (.part .arm)) "hand").bind
      (w'.actual? (.driver (.part .arm))) = some ⟨0⟩ ∧
    (f.close host w').2.closings = [.driver ⟨0⟩, .driver ⟨1⟩] := by
  obtain ⟨r, w, hstart, hrun⟩ := exists_start sharing watching inhabited
    (P := fun r w => match r.graph.select host wanted w with
      | .ok f w' => decide ((.driver (.part .arm), "hand") ∉ r.graph.keys ∧
          (.driver (.part .arm), "hand") ∈ f.keys ∧
          ((r.graph.mergeRemove f).find? w' (.driver (.part .arm)) "hand").bind
            (w'.actual? (.driver (.part .arm))) = some ⟨0⟩ ∧
          (f.close host w').2.closings = [.driver ⟨0⟩, .driver ⟨1⟩])
      | .error _ _ => false) (by decide +kernel)
  cases hselect : r.graph.select host wanted w with
  | ok f w' =>
    rw [hselect] at hrun
    exact ⟨r, w, f, w', hstart, hselect, of_decide_eq_true hrun⟩
  | error e w' =>
    rw [hselect] at hrun
    cases hrun

end Sample

namespace Graph

theorem select_exact_sample : ∃ r w f w', LocalRobot.Reachable Sample.sharing r w ∧
    r.graph.select Sample.host Sample.wanted w = .ok f w' ∧
    ∃ x, r.graph.beyond? w (.driver (.part .arm)) "hand" = some x := by
  obtain ⟨r, w, f, w', hstart, hselect, hforeign, htaken, -⟩ := Sample.wanted_selected
  obtain ⟨-, xs, hcomplete⟩ := LocalRobot.start_ok hstart
  have hlinked := Sample.inhabited_linked.recalls hcomplete.progress.built.world.toRecalls
  obtain ⟨f', u, hselect', -, hkeys, -⟩ := select_exact Sample.host
    (LocalRobot.Reachable.start hstart).intact hlinked (c := Sample.wanted) (by decide) (by decide)
  rw [hselect] at hselect'
  cases hselect'
  refine ⟨r, w, f, w', .start hstart, hselect, ?_⟩
  exact ((hkeys _ _).mp htaken).2.resolve_left hforeign

/-- The arm of a remote robot is selected and is closed with the selection, but is still found
through the graph that the selection was taken out of. -/
theorem select_takes_foreign_part : ∃ r w f w', LocalRobot.Reachable Sample.sharing r w ∧
    r.graph.select Sample.host Sample.wanted w = .ok f w' ∧
    (.driver (.part .arm), "hand") ∈ f.keys ∧ (.driver (.part .arm), "hand") ∉ r.graph.keys ∧
    ∃ x d, (r.graph.mergeRemove f).find? w' (.driver (.part .arm)) "hand" = some x ∧
      w'.actual? (.driver (.part .arm)) x = some d ∧
      .driver d ∈ (f.close Sample.host w').2.closings := by
  obtain ⟨r, w, f, w', hstart, hselect, hforeign, htaken, hfound, hclosed⟩ :=
    Sample.wanted_selected
  obtain ⟨x, hx, hd⟩ := Option.bind_eq_some_iff.mp hfound
  refine ⟨r, w, f, w', .start hstart, hselect, htaken, hforeign, x, ⟨0⟩, hx, hd, ?_⟩
  rw [hclosed]
  decide

end Graph

end RobotHost
