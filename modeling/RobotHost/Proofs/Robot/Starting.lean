import RobotHost.Proofs.Config.Ordering
import RobotHost.Proofs.Graph.Overwriting
import RobotHost.Proofs.Robot.Disposal

/-!
# What is left of what was delivered to a start

A configuration that was checked has components of distinct names, but nothing keeps two remote
robots or two boards from having the same name. All of them are built, and the later one takes the
place of the earlier one. So a robot that starts serves what is latest under its name, and one that
does not start closes just that (`LocalRobot.start_keeps_latest`). What it took the place of is
nowhere served and never closed.
-/

namespace RobotHost

/-! ## Names of a configuration -/

/-- A component goes under its own name, to no place of a remote robot or a board. -/
theorem Item.component_key {c : Component} {key : Kind × String}
    (h : (Item.component c).key? = some key) :
    key.2 = c.name ∧ ¬(key.1 = .remote ∨ key.1 = .driver .board) := by
  obtain ⟨k, hk, rfl⟩ := Option.map_eq_some_iff.mp h
  refine ⟨rfl, ?_⟩
  rintro (hremote | hboard)
  · cases hremote
  · obtain rfl : k = .board := Kind.driver.inj hboard
    cases htype : c.type <;> simp [htype, ComponentType.driverKind?] at hk

namespace Config

variable {c : Config}

/-- The keys of the components. -/
def componentKeys (c : Config) : List (Kind × String) :=
  ((Build.providersFirst c.components).map Item.component).filterMap Item.key?

/-- The parts of a configuration are its remote robots, its boards and then its components. -/
theorem keys_eq (c : Config) : c.keys = c.remotes.map (fun r => (.remote, r.name)) ++
    c.boards.map (fun b => (.driver .board, b.name)) ++ c.componentKeys := by
  have hremotes : (c.remotes.map Item.remote).filterMap Item.key? =
      c.remotes.map fun r => (.remote, r.name) := by
    rw [List.filterMap_map, ← List.filterMap_eq_map]
    rfl
  have hboards : (c.boards.map fun b => Item.board b.name (.ok b)).filterMap Item.key? =
      c.boards.map fun b => (.driver .board, b.name) := by
    rw [List.filterMap_map, ← List.filterMap_eq_map]
    rfl
  rw [keys, items, List.filterMap_append, List.filterMap_append, hremotes, hboards, componentKeys]

theorem kind_of_mem_componentKeys {key : Kind × String} (h : key ∈ c.componentKeys) :
    ¬(key.1 = .remote ∨ key.1 = .driver .board) := by
  obtain ⟨i, hi, hkey⟩ := List.mem_filterMap.mp h
  obtain ⟨x, -, rfl⟩ := List.mem_map.mp hi
  exact (Item.component_key hkey).2

/-- Components of distinct names have distinct keys. -/
theorem nodup_componentKeys (hnames : (c.components.map Component.name).Nodup) :
    c.componentKeys.Nodup := by
  have hperm := (Build.providersFirst_perm c.components).map Component.name
  refine List.pairwise_filterMap.mpr (List.pairwise_map.mpr ?_)
  refine (List.pairwise_map.mp (hperm.nodup_iff.mpr hnames)).imp
    fun hne key hkey key' hkey' heq => hne ?_
  rw [← (Item.component_key hkey).1, ← (Item.component_key hkey').1, heq]

/-- Only remote robots and boards can be declared twice. -/
theorem nodup_keys_filter (hnames : (c.components.map Component.name).Nodup) :
    (c.keys.filter fun key => ¬(key.1 = .remote ∨ key.1 = .driver .board)).Nodup := by
  rw [keys_eq, List.filter_append, List.filter_append, List.filter_eq_nil_iff.mpr (by simp),
    List.filter_eq_nil_iff.mpr (by simp), List.nil_append, List.nil_append]
  exact (nodup_componentKeys hnames).filter _

/-- If remote robots have distinct names, boards and components as well, no key comes twice. -/
theorem nodup_keys (hremotes : (c.remotes.map RemoteConfig.name).Nodup)
    (hboards : (c.boards.map BoardConfig.name).Nodup)
    (hnames : (c.components.map Component.name).Nodup) : c.keys.Nodup := by
  have hpair : ∀ (k : Kind) (names : List String), names.Nodup →
      (names.map fun name => (k, name)).Nodup := fun k names h =>
    h.map fun _ _ heq => (Prod.mk.inj heq).2
  have hr := hpair .remote _ hremotes
  have hb := hpair (.driver .board) _ hboards
  rw [List.map_map] at hr hb
  rw [keys_eq]
  -- a key has its kind with it, so remotes, boards and components do not meet
  refine List.nodup_append.mpr ⟨List.nodup_append.mpr ⟨hr, hb, ?_⟩, nodup_componentKeys hnames, ?_⟩
  · rintro x hx y hy rfl
    obtain ⟨_, -, rfl⟩ := List.mem_map.mp hx
    obtain ⟨_, -, heq⟩ := List.mem_map.mp hy
    cases heq
  · rintro x hx y hy rfl
    refine kind_of_mem_componentKeys hy ?_
    rcases List.mem_append.mp hx with hx | hx
    · obtain ⟨_, -, rfl⟩ := List.mem_map.mp hx
      exact .inl rfl
    · obtain ⟨_, -, rfl⟩ := List.mem_map.mp hx
      exact .inr rfl

end Config

/-! ## Robots that start, and robots that do not -/

namespace LocalRobot

open Delivery

section Latest

variable {c : Config} {done : List Item} {xs : List Delivery}

/-- Only a remote robot or a board is ever overwritten. -/
theorem overwritten_of_not_latest (hnames : (c.components.map Component.name).Nodup)
    (hdone : done <+: c.items) (hxs : List.Forall₂ Item.Delivers done xs) {x : Delivery}
    (hx : x ∈ xs) (hlost : x ∉ latest xs) : x.kind = .remote ∨ x.kind = .driver .board := by
  by_contra hkind
  have hkeys : (xs.map key).Sublist c.keys := by
    rw [← keys_of_delivers hxs]
    exact hdone.sublist.filterMap _
  have honce := (c.nodup_keys_filter hnames).sublist (hkeys.filter _)
  rw [List.filter_map] at honce
  refine hlost (mem_latest_of_unique hx fun y hy hkey => ?_)
  have hkind' : ¬(y.kind = .remote ∨ y.kind = .driver .board) := by
    rwa [show y.kind = x.kind from congrArg Prod.fst hkey]
  exact List.inj_on_of_nodup_map honce (List.mem_filter.mpr ⟨hy, decide_eq_true hkind'⟩)
    (List.mem_filter.mpr ⟨hx, decide_eq_true hkind⟩) hkey

/-- Where the names of each section are distinct, nothing is overwritten. -/
theorem latest_of_distinct (hnames : (c.components.map Component.name).Nodup)
    (hremotes : (c.remotes.map RemoteConfig.name).Nodup)
    (hboards : (c.boards.map BoardConfig.name).Nodup) (hdone : done <+: c.items)
    (hxs : List.Forall₂ Item.Delivers done xs) : latest xs = xs :=
  latest_eq_self (nodup_keys_of_begun hdone hxs (c.nodup_keys hremotes hboards hnames))

end Latest

/-- Deliveries of a fresh environment can be told by what was delivered. -/
theorem mem_latest_iff {xs : List Delivery} (hxs : (xs.map Delivery.resource).Nodup) {x : Delivery}
    (hx : x ∈ xs) : x.resource ∈ (latest xs).map Delivery.resource ↔ x ∈ latest xs := by
  refine ⟨fun hmem => ?_, fun hmem => List.mem_map_of_mem hmem⟩
  obtain ⟨y, hy, heq⟩ := List.mem_map.mp hmem
  rwa [← List.inj_on_of_nodup_map hxs ((latest_sublist xs).subset hy) hx heq]

/-- In a fresh environment, of all that is delivered to the start of a robot with a checked
configuration what is latest under its key is served, or closed if the robot does not start. The
rest is neither served nor closed; this can happen to remote robots and boards that share a name
with others, and to nothing else. -/
theorem start_keeps_latest {env : Environment} {w₀ : World} (hw₀ : w₀.Whole) (henv : env.Fresh w₀)
    {c c' : Config} {fromCloud : Bool} (hc : c.ensure fromCloud = (.ok (), c')) :
    (∀ r w, start env c' w₀ = .ok r w → ∃ xs, List.Forall₂ Item.Delivers c'.items xs ∧
      w.delivered = w₀.delivered ++ xs.map Delivery.resource ∧ w.closings = w₀.closings ∧
      ∀ x ∈ xs, x.resource ∈ r.graph.resources w ↔ x ∈ latest xs) ∧
    (∀ e w, start env c' w₀ = .error e w → ∃ done xs cs, done <+: c'.items ∧
      List.Forall₂ Item.Delivers done xs ∧
      w.delivered = w₀.delivered ++ xs.map Delivery.resource ∧ w.closings = w₀.closings ++ cs ∧
      ∀ x ∈ xs, (x ∈ latest xs → cs.count x.resource = 1) ∧
        (x ∉ latest xs → x.resource ∉ cs)) ∧
    ∀ done xs, done <+: c'.items → List.Forall₂ Item.Delivers done xs →
      (∀ x ∈ xs, x ∉ latest xs → x.kind = .remote ∨ x.kind = .driver .board) ∧
      ((c'.remotes.map RemoteConfig.name).Nodup → (c'.boards.map BoardConfig.name).Nodup →
        latest xs = xs) := by
  have hnames := (c.ensured hc).1
  refine ⟨fun r w h => ?_, fun e w h => ?_, fun done xs hdone hxs =>
    ⟨fun x hx hlost => overwritten_of_not_latest hnames hdone hxs hx hlost,
      fun hremotes hboards => latest_of_distinct hnames hremotes hboards hdone hxs⟩⟩
  · obtain ⟨-, xs, hcomplete⟩ := start_ok h
    have hissued := hcomplete.progress.issued hw₀ henv (.refl w₀)
    refine ⟨xs, hcomplete.items, hissued.delivered, hcomplete.progress.built.closings,
      fun x hx => ?_⟩
    rw [hcomplete.progress.resources_perm_latest.mem_iff]
    exact mem_latest_iff hissued.distinct hx
  · obtain ⟨done, xs, s, hdone, hxs, hs, rfl⟩ := start_error h
    have hissued := hs.issued hw₀ henv (.refl w₀)
    have hheld := hs.resources_perm_latest
    have hquiet := World.discard_quiet env.host [s.graph] s.world
    have hrooted : ∀ x ∈ [s.graph].flatMap (Graph.resources · s.world), x.Rooted w₀ := by
      intro x hx
      rw [List.flatMap_singleton] at hx
      exact hissued.rooted x (hs.built.mem_delivered hx)
    obtain ⟨cs, hcs, hcount⟩ := World.discard_closes hw₀ env.host hrooted hissued.recalls
    rw [List.flatMap_singleton] at hcount
    have hclosed : ∀ x ∈ xs, cs.count x.resource =
        ((latest xs).map Delivery.resource).count x.resource := fun x hx =>
      (hcount _ (hissued.own _ (List.mem_map_of_mem hx))).trans (hheld.count_eq _)
    refine ⟨done, xs, cs, hdone, hxs, ?_, ?_, fun x hx => ⟨fun hlatest => ?_, fun hlost => ?_⟩⟩
    · rw [hquiet.logs.delivered]
      exact hissued.delivered
    · rw [hcs, hs.built.closings]
    · have hdistinct := hissued.distinct.sublist ((latest_sublist xs).map Delivery.resource)
      rw [hclosed x hx]
      exact List.count_eq_one_of_mem hdistinct (List.mem_map_of_mem hlatest)
    · rw [← List.count_eq_zero, hclosed x hx, List.count_eq_zero,
        mem_latest_iff hissued.distinct hx]
      exact hlost

end LocalRobot

/-! ## Two boards of one name -/

namespace Sample

/-- Two boards, and a camera that cannot be made. -/
def doubled : Config where
  boards := [{ name := "pins" }, { name := "pins" }]
  components := [{ name := "eye", type := .camera, model := "real" }]

theorem doubled_ensured : doubled.ensure false = (.ok (), doubled) := rfl

theorem doubled_fails : ∃ e w, LocalRobot.start environment doubled {} = .error e w ∧
    w.log = [.constructed .board "pins" (some ⟨0⟩), .constructed .board "pins" (some ⟨1⟩),
      .constructed (.part .camera) "eye" none, .closed ⟨1⟩] := by
  have hlog : (stateAfter (LocalRobot.start environment doubled {})).log =
      [.constructed .board "pins" (some ⟨0⟩), .constructed .board "pins" (some ⟨1⟩),
        .constructed (.part .camera) "eye" none, .closed ⟨1⟩] := by decide +kernel
  cases hstart : LocalRobot.start environment doubled {} with
  | error e w =>
    rw [hstart] at hlog
    exact ⟨e, w, rfl, hlog⟩
  | ok r w =>
    -- nothing is closed where a robot starts
    rw [hstart] at hlog
    obtain ⟨-, xs, hcomplete⟩ := LocalRobot.start_ok hstart
    have hclosings : w.closings = [] := hcomplete.progress.built.closings
    rw [World.closings, show w.log = _ from hlog] at hclosings
    cases hclosings

end Sample

namespace LocalRobot

open Delivery

theorem start_keeps_latest_sample : ({} : World).Whole ∧ Sample.environment.Fresh {} ∧
    Sample.doubled.ensure false = (.ok (), Sample.doubled) ∧
    ∃ e w xs, start Sample.environment Sample.doubled {} = .error e w ∧
      w.delivered = xs.map Delivery.resource ∧
      ∀ x ∈ xs, x ∉ latest xs → x.resource ∉ w.closings := by
  obtain ⟨e, w, hstart, -⟩ := Sample.doubled_fails
  obtain ⟨-, hfailed, -⟩ :=
    start_keeps_latest World.whole_empty Sample.environment_fresh Sample.doubled_ensured
  obtain ⟨done, xs, cs, -, -, hdelivered, hclosings, hall⟩ := hfailed e w hstart
  refine ⟨World.whole_empty, Sample.environment_fresh, Sample.doubled_ensured, e, w, xs, hstart,
    hdelivered, fun x hx hlost => ?_⟩
  rw [hclosings]
  exact (hall x hx).2 hlost

/-- Of two boards with one name only the later is closed when the robot does not start. -/
theorem start_loses_board : Sample.environment.Fresh {} ∧
    Sample.doubled.ensure false = (.ok (), Sample.doubled) ∧
    ∃ e w, start Sample.environment Sample.doubled {} = .error e w ∧
      .driver ⟨0⟩ ∈ w.delivered ∧ .driver ⟨0⟩ ∉ w.closings := by
  obtain ⟨e, w, hstart, hlog⟩ := Sample.doubled_fails
  refine ⟨Sample.environment_fresh, Sample.doubled_ensured, e, w, hstart, ?_, ?_⟩
  · rw [World.delivered, hlog]
    decide
  · rw [World.closings, hlog]
    decide

end LocalRobot

end RobotHost
