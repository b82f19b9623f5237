import Mathlib.Data.List.Perm.Basic
import Mathlib.Logic.Relation
import RobotHost.Config.Basic
import RobotHost.Proofs.Config.Visiting

/-!
# Components in build order

A list of components has a build order exactly if its names are distinct, all dependencies exist and
no component depends on itself over others. The order has each of the components once, and each one
after all it depends on.

* `buildOrder_checked`, `buildOrder_eq_visitAll` and `buildOrder_outcome` say what the checks and
  the walk come to.
* `buildOrder_sorts` says what a build order is, `exists_buildOrder_iff` when there is one, and
  `buildOrder_exact` puts them together.
* `Config.ensured` says what this means for a configuration that has been checked.
-/

namespace RobotHost

/-- No name is found to come again exactly if all are distinct, among themselves and from those
seen before. -/
theorem firstRepeated?_eq_none {seen names : List String} :
    firstRepeated? seen names = none ↔ names.Nodup ∧ ∀ n ∈ names, n ∉ seen := by
  induction names generalizing seen with
  | nil => simp [firstRepeated?]
  | cons n names ih =>
    rw [firstRepeated?]
    by_cases hseen : n ∈ seen
    · rw [if_pos (List.contains_iff_mem.mpr hseen)]
      simp [hseen]
    · rw [if_neg (by simpa using hseen), ih, List.nodup_cons]
      simp only [List.mem_cons, not_or]
      constructor
      · rintro ⟨hnodup, hall⟩
        refine ⟨⟨fun hn => (hall n hn).1 rfl, hnodup⟩, ?_⟩
        -- the first name was not seen; of the others it is known from the rest of the list
        rintro m (rfl | hm)
        · exact hseen
        · exact (hall m hm).2
      · rintro ⟨⟨hn, hnodup⟩, hall⟩
        exact ⟨hnodup, fun m hm => ⟨fun heq => hn (heq ▸ hm), hall m (.inr hm)⟩⟩

namespace Component

variable {cs out : List Component}

theorem find?_isNone {name : String} :
    (find? cs name).isNone = true ↔ name ∉ cs.map Component.name := by
  rw [find?, Option.isNone_iff_eq_none, List.find?_eq_none, List.mem_map]
  simp

/-- No dependency is found to be missing exactly if all are names of components. -/
theorem missingDependency?_eq_none {todo : List Component} :
    missingDependency? cs todo = none ↔
      ∀ c ∈ todo, ∀ d ∈ c.dependsOn, d ∈ cs.map Component.name := by
  induction todo with
  | nil => simp [missingDependency?]
  | cons c todo ih =>
    rw [missingDependency?, List.forall_mem_cons, ← ih]
    cases hmissing : c.dependsOn.find? fun d => (find? cs d).isNone with
    | some d =>
      have hd : d ∉ cs.map Component.name :=
        find?_isNone.mp (by simpa using List.find?_some hmissing)
      have hmem := List.mem_of_find?_eq_some hmissing
      simp only [reduceCtorEq, false_iff, not_and_or]
      exact .inl fun hall => hd (hall d hmem)
    | none =>
      have hnone := List.find?_eq_none.mp hmissing
      have hall : ∀ d ∈ c.dependsOn, d ∈ cs.map Component.name := fun d hd =>
        not_not.mp fun hmem => hnone d hd (find?_isNone.mpr hmem)
      exact ⟨fun h => ⟨hall, h⟩, fun h => h.2⟩

/-- In an ordered list a component stands after what it depends on. -/
theorem Ordered.idxOf_lt (h : Ordered cs) (hnames : (cs.map Component.name).Nodup) {a b : String}
    (hab : DependsOn cs a b) :
    (cs.map Component.name).idxOf b < (cs.map Component.name).idxOf a := by
  obtain ⟨c, hc, rfl, hb⟩ := hab
  obtain ⟨done, rest, rfl⟩ := List.append_of_mem hc
  have hdone := h done c rest rfl b hb
  rw [List.map_append, List.map_cons] at hnames ⊢
  have hself : c.name ∉ done.map Component.name := fun hmem =>
    (List.nodup_append.mp hnames).2.2 _ hmem _ List.mem_cons_self rfl
  rw [List.idxOf_append_of_mem hdone, List.idxOf_append_of_notMem hself, List.idxOf_cons_self]
  exact List.idxOf_lt_length_of_mem hdone

/-- What can be put in order has no cycle. -/
theorem Ordered.acyclic (h : Ordered cs) (hnames : (cs.map Component.name).Nodup) :
    Acyclic cs := by
  intro a hloop
  have hlt : ∀ b, Relation.TransGen (DependsOn cs) a b →
      (cs.map Component.name).idxOf b < (cs.map Component.name).idxOf a := by
    intro b hb
    induction hb with
    | single hab => exact h.idxOf_lt hnames hab
    | tail _ hbc ih => exact (h.idxOf_lt hnames hbc).trans ih
  exact (hlt a hloop).false

/-- The front of an ordered list is ordered. -/
theorem Ordered.front {front back : List Component} (h : Ordered (front ++ back)) :
    Ordered front := by
  rintro done c rest rfl
  exact h done c (rest ++ back) (by simp)

/-- With distinct names, an ordered part of a list has all that its components need. -/
theorem Ordered.mem_of_needs (h : Ordered out) (hnames : (cs.map Component.name).Nodup)
    (hout : out ⊆ cs) {a b : String} (ha : a ∈ out.map Component.name)
    (hab : Relation.TransGen (DependsOn cs) a b) : b ∈ out.map Component.name := by
  have hstep : ∀ a b, a ∈ out.map Component.name → DependsOn cs a b →
      b ∈ out.map Component.name := by
    rintro a b ha ⟨c, hc, rfl, hb⟩
    obtain ⟨c', hc', hname⟩ := List.mem_map.mp ha
    obtain rfl := List.inj_on_of_nodup_map hnames (hout hc') hc hname
    obtain ⟨done, rest, rfl⟩ := List.append_of_mem hc'
    rw [List.map_append]
    exact List.mem_append_left _ (h done c' rest rfl b hb)
  induction hab with
  | single hab => exact hstep _ _ ha hab
  | tail _ hbc ih => exact hstep _ _ ih hbc

/-- What depends on what does not depend on the order of the components. -/
theorem DependsOn.of_perm (hperm : out.Perm cs) {a b : String} (h : DependsOn cs a b) :
    DependsOn out a b := by
  obtain ⟨c, hc, hname, hb⟩ := h
  exact ⟨c, hperm.mem_iff.mpr hc, hname, hb⟩

/-- The checks before the walk: names are distinct and dependencies exist. -/
theorem buildOrder_checked (h : buildOrder cs = .ok out) :
    (cs.map Component.name).Nodup ∧ Known cs := by
  rw [buildOrder] at h
  split at h
  · cases h
  · next hnames =>
    split at h
    · cases h
    · next hknown =>
      exact ⟨(firstRepeated?_eq_none.mp hnames).1, missingDependency?_eq_none.mp hknown⟩

/-- A walk over all components that lists them all has put them in order. -/
theorem Listed.perm (hnames : (cs.map Component.name).Nodup) {w : Walk}
    (h : Listed cs [] {} (cs.map Component.name) w) : w.listed.Perm cs := by
  have hnodup := h.walked.once
  refine (List.perm_ext_iff_of_nodup hnodup.of_map hnames.of_map).mpr fun c => ?_
  refine ⟨fun hc => h.walked.listed hc, fun hc => ?_⟩
  obtain ⟨c', hc', heq⟩ := List.mem_map.mp (h.all c.name (List.mem_map_of_mem hc))
  rwa [← List.inj_on_of_nodup_map hnames (h.walked.listed hc') hc heq]

/-- With distinct names and no dependency missing, all is left to the walk. -/
theorem buildOrder_eq_visitAll (hnames : (cs.map Component.name).Nodup) (hknown : Known cs) :
    buildOrder cs = (visitAll cs cs {}).map Walk.listed := by
  have hrepeated : firstRepeated? [] (cs.map Component.name) = none :=
    firstRepeated?_eq_none.mpr ⟨hnames, by simp⟩
  have hmissing : missingDependency? cs cs = none := missingDependency?_eq_none.mpr hknown
  rw [buildOrder, hrepeated]
  simp only [hmissing]

/-- With distinct names and no dependency missing, the components are put in order or there is a
cycle. -/
theorem buildOrder_outcome (hnames : (cs.map Component.name).Nodup) (hknown : Known cs) :
    Outcome (fun out => out.Perm cs ∧ Ordered out) (ReportsCycle cs) (buildOrder cs) := by
  rw [buildOrder_eq_visitAll hnames hknown]
  have hall := visitAll_outcome hknown (List.Subset.refl cs) Walked.start
  cases hwalk : visitAll cs cs {} with
  | error e => rwa [hwalk] at hall
  | ok w =>
    rw [hwalk] at hall
    exact ⟨Listed.perm hnames hall, hall.walked.ordered⟩

/-- What is found is the components in order. -/
theorem buildOrder_sorts (h : buildOrder cs = .ok out) : out.Perm cs ∧ Ordered out := by
  obtain ⟨hnames, hknown⟩ := buildOrder_checked h
  have houtcome := buildOrder_outcome hnames hknown
  rwa [h] at houtcome

/-- A build order is missed only for a name that comes twice, a missing dependency or a cycle. -/
theorem exists_buildOrder_iff : (∃ out, buildOrder cs = .ok out) ↔
    (cs.map Component.name).Nodup ∧ Known cs ∧ Acyclic cs := by
  constructor
  · rintro ⟨out, hout⟩
    obtain ⟨hnames, hknown⟩ := buildOrder_checked hout
    obtain ⟨hperm, hordered⟩ := buildOrder_sorts hout
    have hacyclic := hordered.acyclic ((hperm.map _).nodup_iff.mpr hnames)
    exact ⟨hnames, hknown, fun a h =>
      hacyclic a (Relation.TransGen.mono (fun _ _ => .of_perm hperm) _ _ h)⟩
  · rintro ⟨hnames, hknown, hacyclic⟩
    have h := buildOrder_outcome hnames hknown
    cases hout : buildOrder cs with
    | ok out => exact ⟨out, rfl⟩
    | error e =>
      rw [hout] at h
      obtain ⟨names, -, hcycle⟩ := h
      exact absurd hacyclic hcycle.not_acyclic

/-- Build order is found exactly for distinct names, existing dependencies and no cycles; it has the
components it was given, each once, and each after all it depends on. -/
theorem buildOrder_exact (cs : List Component) :
    ((∃ out, buildOrder cs = .ok out) ↔
      (cs.map Component.name).Nodup ∧ Known cs ∧ Acyclic cs) ∧
    ∀ out, buildOrder cs = .ok out → out.Perm cs ∧ Ordered out :=
  ⟨exists_buildOrder_iff, fun _ => buildOrder_sorts⟩

/-- Some of the components of an ordered list are in order among themselves. -/
theorem Ordered.mem_of_filter (h : Ordered cs) (hnames : (cs.map Component.name).Nodup)
    {p : Component → Bool} {done rest : List Component} {c d : Component}
    (hsplit : cs.filter p = done ++ c :: rest) (hd : d ∈ cs) (hp : p d)
    (hdep : d.name ∈ c.dependsOn) : d ∈ done := by
  obtain ⟨front, back, rfl, rfl, hback⟩ := List.filter_eq_append_iff.mp hsplit
  obtain ⟨skipped, tail, rfl, hskipped, -, -⟩ := List.filter_eq_cons_iff.mp hback
  rw [← List.append_assoc] at h hnames hd
  obtain ⟨d', hd', hname⟩ := List.mem_map.mp (h _ c tail rfl _ hdep)
  obtain rfl := List.inj_on_of_nodup_map hnames (List.mem_append_left _ hd') hd hname
  rcases List.mem_append.mp hd' with hfront | hmem
  · exact List.mem_filter.mpr ⟨hfront, hp⟩
  · exact absurd hp (hskipped _ hmem)

end Component

/-- A configuration is checked only once its components have been put in build order. -/
theorem Config.ensure_ordered {c c' : Config} {fromCloud : Bool}
    (h : c.ensure fromCloud = (.ok (), c')) :
    ∃ d : Config, Component.buildOrder d.components = .ok c'.components := by
  rw [ensure] at h
  split at h
  · cases h
  · next d _ =>
    split at h
    · cases h
    · split at h
      · cases h
      -- the checks that come after the ordering change nothing
      · next d' hd' =>
        obtain rfl : d' = c' := congrArg Prod.snd h
        rw [ensureOrder] at hd'
        cases hout : Component.buildOrder d.components with
        | error e =>
          rw [hout] at hd'
          cases hd'
        | ok out =>
          rw [hout] at hd'
          cases hd'
          exact ⟨d, hout⟩

/-- A configuration that was checked has components of distinct names, in build order. -/
theorem Config.ensured {c c' : Config} {fromCloud : Bool} (h : c.ensure fromCloud = (.ok (), c')) :
    (c'.components.map Component.name).Nodup ∧ Component.Ordered c'.components := by
  obtain ⟨d, hout⟩ := ensure_ordered h
  obtain ⟨hperm, hordered⟩ := Component.buildOrder_sorts hout
  exact ⟨(hperm.map _).nodup_iff.mpr (Component.buildOrder_checked hout).1, hordered⟩

end RobotHost
