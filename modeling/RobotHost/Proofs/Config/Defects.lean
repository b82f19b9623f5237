import RobotHost.Proofs.Config.Ordering

/-!
# Why components have no build order

Three defects keep components from being put in order. A name that comes twice is reported before a
dependency that is missing, and that before a cycle. Of several names or dependencies it is the first
that is reported (`Repeats`, `Lacks`): components are gone through in the given order, and what each
depends on in the order of its declaration. Of a cycle just its members are reported, each with the
one that it depends on after it (`IsCycle`).

`buildOrder_defects` says so of all lists of components.
-/

namespace RobotHost

/-- A name that is found to come again is the first that does. -/
theorem firstRepeated?_eq_some {seen names : List String} {n : String}
    (h : firstRepeated? seen names = some n) :
    ∃ before after, names = before ++ n :: after ∧ before.Nodup ∧ (∀ m ∈ before, m ∉ seen) ∧
      (n ∈ before ∨ n ∈ seen) := by
  induction names generalizing seen with
  | nil => cases h
  | cons m names ih =>
    rw [firstRepeated?] at h
    by_cases hseen : m ∈ seen
    · rw [if_pos (List.contains_iff_mem.mpr hseen)] at h
      cases h
      exact ⟨[], names, rfl, List.nodup_nil, by simp, .inr hseen⟩
    · rw [if_neg (by simpa using hseen)] at h
      obtain ⟨before, after, rfl, hnodup, hnew, hagain⟩ := ih h
      have hm : m ∉ before := fun hmem => hnew m hmem List.mem_cons_self
      refine ⟨m :: before, after, rfl, List.nodup_cons.mpr ⟨hm, hnodup⟩, ?_, ?_⟩
      · intro k hk
        rcases List.mem_cons.mp hk with rfl | hk
        · exact hseen
        · exact fun hmem => hnew k hk (List.mem_cons_of_mem _ hmem)
      · -- the name was seen among the ones before, or is the one put in front of them
        rcases hagain with hagain | hagain
        · exact .inl (List.mem_cons_of_mem _ hagain)
        · rcases List.mem_cons.mp hagain with rfl | hagain
          · exact .inl List.mem_cons_self
          · exact .inr hagain

namespace Component

variable {cs : List Component}

/-- This component is the first whose name has come before. -/
def Repeats (cs : List Component) (c : Component) : Prop :=
  ∃ done rest, cs = done ++ c :: rest ∧ (done.map Component.name).Nodup ∧
    c.name ∈ done.map Component.name

/-- This dependency of a component is the first that names no component of the list. -/
structure Lacks (cs : List Component) (c : Component) (d : String) : Prop where
  missing : d ∉ cs.map Component.name
  /-- The components before have what they depend on, and so has the component before `d`. -/
  first : ∃ done rest before after, cs = done ++ c :: rest ∧ c.dependsOn = before ++ d :: after ∧
    (∀ b ∈ done, ∀ e ∈ b.dependsOn, e ∈ cs.map Component.name) ∧
    ∀ e ∈ before, e ∈ cs.map Component.name

/-- A dependency that is found to be missing is the first that is. -/
theorem missingDependency?_eq_some {todo : List Component} {name d : String}
    (h : missingDependency? cs todo = some (name, d)) :
    d ∉ cs.map Component.name ∧ ∃ c done rest before after, c.name = name ∧
      todo = done ++ c :: rest ∧ c.dependsOn = before ++ d :: after ∧
      (∀ b ∈ done, ∀ e ∈ b.dependsOn, e ∈ cs.map Component.name) ∧
      ∀ e ∈ before, e ∈ cs.map Component.name := by
  have hknown : ∀ e, (find? cs e).isSome = true → e ∈ cs.map Component.name := by
    intro e he
    obtain ⟨c, hc⟩ := Option.isSome_iff_exists.mp he
    obtain ⟨hmem, rfl⟩ := find?_eq_some hc
    exact List.mem_map_of_mem hmem
  induction todo with
  | nil => cases h
  | cons c todo ih =>
    rw [missingDependency?] at h
    cases hfind : c.dependsOn.find? fun d => (find? cs d).isNone with
    -- the first component lacks one, and the ones before it in its list are known
    | some e =>
      simp only [hfind, Option.some.injEq, Prod.mk.injEq] at h
      obtain ⟨rfl, rfl⟩ := h
      obtain ⟨hmissing, before, after, hsplit, hbefore⟩ := List.find?_eq_some_iff_append.mp hfind
      exact ⟨find?_isNone.mp hmissing, c, [], todo, before, after, rfl, rfl, hsplit, by simp,
        fun e he => hknown e (by simpa using hbefore e he)⟩
    | none =>
      simp only [hfind] at h
      obtain ⟨hmissing, c', done, rest, before, after, rfl, rfl, hsplit, hdone, hbefore⟩ := ih h
      refine ⟨hmissing, c', c :: done, rest, before, after, rfl, rfl, hsplit, ?_, hbefore⟩
      intro b hb
      rcases List.mem_cons.mp hb with rfl | hb
      · intro e he
        have hsome := List.find?_eq_none.mp hfind e he
        exact hknown e (by simpa [Option.isSome_iff_ne_none] using hsome)
      · exact hdone b hb

/-- Where names repeat, the first repetition is what is found. -/
theorem exists_repeats (h : ¬(cs.map Component.name).Nodup) :
    ∃ c, Repeats cs c ∧ firstRepeated? [] (cs.map Component.name) = some c.name := by
  cases hfirst : firstRepeated? [] (cs.map Component.name) with
  | none => exact absurd (firstRepeated?_eq_none.mp hfirst).1 h
  | some n =>
    obtain ⟨before, after, hsplit, hnodup, -, hagain⟩ := firstRepeated?_eq_some hfirst
    obtain ⟨done, tail, rfl, rfl, htail⟩ := List.map_eq_append_iff.mp hsplit
    obtain ⟨c, rest, rfl, rfl, -⟩ := List.map_eq_cons_iff.mp htail
    exact ⟨c, ⟨done, rest, rfl, hnodup, hagain.resolve_right List.not_mem_nil⟩, rfl⟩

/-- Where dependencies are missing, the first of them is what is found, with the component that has
it. -/
theorem exists_lacks (h : ¬Known cs) :
    ∃ c d, Lacks cs c d ∧ missingDependency? cs cs = some (c.name, d) := by
  cases hfirst : missingDependency? cs cs with
  | none => exact absurd (missingDependency?_eq_none.mp hfirst) h
  | some x =>
    obtain ⟨name, d⟩ := x
    obtain ⟨hmissing, c, done, rest, before, after, rfl, hsplit⟩ :=
      missingDependency?_eq_some hfirst
    exact ⟨c, d, ⟨hmissing, done, rest, before, after, hsplit⟩, rfl⟩

/-- Components with names that come twice are refused for the first such name. Else, with
dependencies that are missing, they are refused for the first of these, under the path of the
component that declares it. Else, if some component depends on itself over others, they are refused
for a cycle, of which just the members are named. -/
theorem buildOrder_defects (cs : List Component) :
    (¬(cs.map Component.name).Nodup →
      ∃ c, Repeats cs c ∧ buildOrder cs = .error (.duplicateName c.name)) ∧
    ((cs.map Component.name).Nodup → ¬Known cs →
      ∃ c d, Lacks cs c d ∧ buildOrder cs = .error (.missingDependency c.name d) ∧
        (ConfigError.missingDependency c.name d).message =
          "error validating " ++ quoted ("components." ++ c.name) ++ ": dependency " ++ quoted d ++
            " does not exist") ∧
    ((cs.map Component.name).Nodup → Known cs → ¬Acyclic cs →
      ∃ names, IsCycle cs names ∧ buildOrder cs = .error (.circularDependency names)) := by
  refine ⟨fun hrepeated => ?_, fun hnames hunknown => ?_, fun hnames hknown hcyclic => ?_⟩
  · obtain ⟨c, hc, hfirst⟩ := exists_repeats hrepeated
    refine ⟨c, hc, ?_⟩
    rw [buildOrder, hfirst]
  · obtain ⟨c, d, hd, hfirst⟩ := exists_lacks hunknown
    refine ⟨c, d, hd, ?_, rfl⟩
    have hnone : firstRepeated? [] (cs.map Component.name) = none :=
      firstRepeated?_eq_none.mpr ⟨hnames, by simp⟩
    rw [buildOrder, hnone]
    simp only [hfirst]
  -- the walk ends in an order or with a cycle, and there is no order
  · have houtcome := buildOrder_outcome hnames hknown
    cases hout : buildOrder cs with
    | ok out => exact absurd (exists_buildOrder_iff.mp ⟨out, hout⟩).2.2 hcyclic
    | error e =>
      rw [hout] at houtcome
      obtain ⟨names, rfl, hcycle⟩ := houtcome
      exact ⟨names, hcycle, rfl⟩

namespace Sample

def part (name : String) (dependsOn : List String) : Component :=
  { name := name, type := .provider, dependsOn := dependsOn }

/-- All three defects. -/
def repeated : List Component := [part "a" ["ghost"], part "loop" ["loop"], part "a" []]

/-- Two dependencies that are missing, the first of them behind a cycle. -/
def lacking : List Component := [part "loop" ["loop", "ghost"], part "a" ["spirit"]]

/-- A cycle with a way that leads into it. -/
def circular : List Component := [part "entry" ["x"], part "x" ["y"], part "y" ["x"]]

end Sample

/-- Each defect hides those that are looked for later, and the way into a cycle is not part of it. -/
theorem buildOrder_defects_sample :
    (∃ c, Repeats Sample.repeated c ∧ c.name = "a" ∧
      buildOrder Sample.repeated = .error (.duplicateName "a")) ∧
    (∃ c, Lacks Sample.lacking c "ghost" ∧ c.name = "loop" ∧
      buildOrder Sample.lacking = .error (.missingDependency "loop" "ghost")) ∧
    IsCycle Sample.circular ["x", "y"] ∧
      buildOrder Sample.circular = .error (.circularDependency ["x", "y"]) := by
  refine ⟨?_, ?_, ?_⟩
  · obtain ⟨c, hc, herror⟩ := (buildOrder_defects Sample.repeated).1 (by decide)
    have hrun : buildOrder Sample.repeated = .error (.duplicateName "a") := rfl
    rw [hrun] at herror
    simp only [Except.error.injEq, ConfigError.duplicateName.injEq] at herror
    exact ⟨c, hc, herror.symm, hrun⟩
  · obtain ⟨c, d, hd, herror, -⟩ := (buildOrder_defects Sample.lacking).2.1 (by decide)
      (by unfold Known; decide)
    have hrun : buildOrder Sample.lacking = .error (.missingDependency "loop" "ghost") := rfl
    rw [hrun] at herror
    simp only [Except.error.injEq, ConfigError.missingDependency.injEq] at herror
    obtain ⟨hname, rfl⟩ := herror
    exact ⟨c, hd, hname.symm, hrun⟩
  · have hx : DependsOn Sample.circular "x" "y" :=
      ⟨Sample.part "x" ["y"], by simp [Sample.circular], rfl, List.mem_cons_self⟩
    have hy : DependsOn Sample.circular "y" "x" :=
      ⟨Sample.part "y" ["x"], by simp [Sample.circular], rfl, List.mem_cons_self⟩
    obtain ⟨names, hcycle, herror⟩ := (buildOrder_defects Sample.circular).2.2 (by decide)
      (by unfold Known; decide) fun hacyclic => hacyclic "x" (.tail (.single hx) hy)
    have hrun : buildOrder Sample.circular = .error (.circularDependency ["x", "y"]) := rfl
    rw [hrun] at herror
    simp only [Except.error.injEq, ConfigError.circularDependency.injEq] at herror
    exact ⟨herror ▸ hcycle, hrun⟩

end Component

end RobotHost
