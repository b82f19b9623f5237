import RobotHost.Config.Order
import Mathlib.Data.List.Chain
import Mathlib.Data.List.Nodup
import Mathlib.Data.List.Perm.Subperm

/-!
# Visiting the components of a list

A walk enters a component, lists all that it depends on and then the component itself. At any time
the names it has entered are those of its path and those it has listed; what is listed comes after
all it depends on. So a walk that comes to its end has listed what it set out for, and a walk that
stops has come back to its path, where each component depends on the next: it has found a cycle.

* `visit_outcome` says so of a single visit, from any place of a walk.
* `visitAll_outcome` says so of a walk over all components.
-/

namespace RobotHost

/-- A result that is as stated, whether it is a value or an error. -/
def Outcome {ε α : Type} (good : α → Prop) (bad : ε → Prop) : Except ε α → Prop
  | .ok a => good a
  | .error e => bad e

/-- If each of two steps ends as it should, so do both in turn. -/
theorem Outcome.bind {ε α β : Type} {good : α → Prop} {good' : β → Prop} {bad : ε → Prop}
    {x : Except ε α} {f : α → Except ε β} (hx : Outcome good bad x)
    (hf : ∀ a, good a → Outcome good' bad (f a)) : Outcome good' bad (x >>= f) := by
  cases x with
  | ok a => exact hf a hx
  | error e => exact hx

theorem Outcome.imp {ε α : Type} {good good' : α → Prop} {bad : ε → Prop} {x : Except ε α}
    (hx : Outcome good bad x) (h : ∀ a, good a → good' a) : Outcome good' bad x := by
  cases x with
  | ok a => exact h a hx
  | error e => exact hx

/-- A fold keeps what every step keeps; `done` holds the elements that have been folded in. -/
theorem Outcome.foldlM {ε σ α : Type} {P : List α → σ → Prop} {bad : ε → Prop}
    {f : σ → α → Except ε σ} (xs : List α)
    (step : ∀ done s, P done s → ∀ x ∈ xs, Outcome (P (done ++ [x])) bad (f s x)) :
    ∀ done s, P done s → Outcome (P (done ++ xs)) bad (xs.foldlM f s) := by
  induction xs with
  | nil =>
    intro done s h
    rwa [List.append_nil]
  | cons x xs ih =>
    intro done s h
    rw [List.foldlM_cons, List.append_cons]
    refine (step done s h x List.mem_cons_self).bind fun s' h' => ?_
    exact ih (fun done s h y hy => step done s h y (List.mem_cons_of_mem _ hy)) _ _ h'

namespace Component

variable {cs : List Component} {path : List String} {name : String} {w : Walk}

/-! ## What a component depends on -/

/-- A component named `a` of the list declares that it depends on `b`. -/
def DependsOn (cs : List Component) (a b : String) : Prop :=
  ∃ c ∈ cs, c.name = a ∧ b ∈ c.dependsOn

/-- Every dependency is the name of a component in the list. -/
def Known (cs : List Component) : Prop := ∀ c ∈ cs, ∀ d ∈ c.dependsOn, d ∈ cs.map Component.name

/-- No component depends on itself, directly or over others. -/
def Acyclic (cs : List Component) : Prop := ∀ a, ¬ Relation.TransGen (DependsOn cs) a a

/-- Distinct names, each depending on the next and the last one on the first. -/
def IsCycle (cs : List Component) (names : List String) : Prop :=
  ∃ first rest, names = first :: rest ∧ names.Nodup ∧
    (names ++ [first]).IsChain (DependsOn cs)

/-- Every component comes after all it depends on. -/
def Ordered (cs : List Component) : Prop :=
  ∀ done c rest, cs = done ++ c :: rest → ∀ d ∈ c.dependsOn, d ∈ done.map Component.name

theorem find?_eq_some {c : Component} (h : find? cs name = some c) : c ∈ cs ∧ c.name = name :=
  ⟨List.mem_of_find?_eq_some h, by simpa using List.find?_some h⟩

theorem find?_isSome (h : name ∈ cs.map Component.name) : ∃ c, find? cs name = some c := by
  obtain ⟨c, hc, rfl⟩ := List.mem_map.mp h
  exact Option.isSome_iff_exists.mp (List.find?_isSome.mpr ⟨c, hc, by simp⟩)

/-- Who takes part in a cycle depends on itself. -/
theorem IsCycle.not_acyclic {names : List String} (h : IsCycle cs names) : ¬ Acyclic cs := by
  obtain ⟨first, rest, rfl, -, hchain⟩ := h
  intro hacyclic
  have hpairs := (hchain.imp fun a b hab => Relation.TransGen.single hab).pairwise
  rw [List.cons_append] at hpairs
  exact hacyclic first (List.rel_of_pairwise_cons hpairs (by simp))

theorem ordered_nil : Ordered [] := by
  intro done c rest h
  simp at h

/-- A component can be listed when all it depends on is listed. -/
theorem Ordered.concat {c : Component} (h : Ordered cs)
    (hc : ∀ d ∈ c.dependsOn, d ∈ cs.map Component.name) : Ordered (cs ++ [c]) := by
  intro done c' rest heq
  rcases List.eq_nil_or_concat rest with rfl | ⟨rest', last, rfl⟩
  · obtain ⟨rfl, hlast⟩ := List.append_inj' heq rfl
    obtain rfl : c = c' := by simpa using hlast
    exact hc
  · rw [List.concat_eq_append, ← List.cons_append, ← List.append_assoc] at heq
    obtain ⟨rfl, -⟩ := List.append_inj' heq rfl
    exact h done c' rest' rfl

/-! ## A walk on its way -/

/-- Names that a walk can have entered one after the other: none comes twice, and each depends on
the next. -/
structure Trail (cs : List Component) (path : List String) : Prop where
  distinct : path.Nodup
  chain : path.IsChain (DependsOn cs)
  known : path ⊆ cs.map Component.name

namespace Trail

theorem nil : Trail cs [] := ⟨List.nodup_nil, .nil, List.nil_subset _⟩

/-- A path goes on with a name that is not on it. -/
theorem concat (h : Trail cs path) (hnew : name ∉ path)
    (hchain : (path ++ [name]).IsChain (DependsOn cs)) (hknown : name ∈ cs.map Component.name) :
    Trail cs (path ++ [name]) where
  distinct := by
    rw [← List.concat_eq_append]
    exact List.Nodup.concat hnew h.distinct
  chain := hchain
  known := List.append_subset.mpr ⟨h.known, by simpa using hknown⟩

/-- The front of a trail is a trail. -/
theorem front {before after : List String} (h : Trail cs (before ++ after)) : Trail cs before where
  distinct := h.distinct.of_append_left
  chain := h.chain.left_of_append
  known := (List.append_subset.mp h.known).1

/-- A trail leads on to whatever its last component depends on. -/
theorem isChain_concat {c : Component} {d : String} (h : Trail cs (path ++ [c.name])) (hc : c ∈ cs)
    (hd : d ∈ c.dependsOn) : (path ++ [c.name] ++ [d]).IsChain (DependsOn cs) := by
  refine List.isChain_append.mpr ⟨h.chain, .singleton _, ?_⟩
  simpa using ⟨c, hc, rfl, hd⟩

/-- There are not more names than components. -/
theorem length_le (h : Trail cs path) : path.length ≤ cs.length := by
  simpa using (List.subperm_of_subset h.distinct h.known).length_le

/-- To come back to a name is to close a cycle. -/
theorem isCycle (h : Trail cs path) (hchain : (path ++ [name]).IsChain (DependsOn cs))
    (hname : name ∈ path) : IsCycle cs (path.dropWhile (· ≠ name)) := by
  obtain ⟨before, after, rfl, hbefore⟩ := List.eq_append_cons_of_mem hname
  have hdrop : (before ++ name :: after).dropWhile (· ≠ name) = name :: after := by
    rw [List.dropWhile_append_of_pos]
    · simp
    · intro a ha
      simpa using fun heq : a = name => hbefore (heq ▸ ha)
  rw [hdrop]
  refine ⟨name, after, rfl, List.Nodup.of_append_right h.distinct, ?_⟩
  rw [List.append_assoc] at hchain
  exact hchain.right_of_append

end Trail

/-- A walk that is on its way, with the path it has come: it has entered what is on the path and
what it has listed, and everything listed stands after what it depends on. -/
structure Walked (cs : List Component) (path : List String) (w : Walk) : Prop where
  entered : ∀ n, n ∈ w.entered ↔ n ∈ path ∨ n ∈ w.listed.map Component.name
  apart : ∀ n ∈ path, n ∉ w.listed.map Component.name
  once : (w.listed.map Component.name).Nodup
  listed : w.listed ⊆ cs
  ordered : Ordered w.listed

namespace Walked

theorem start : Walked cs [] {} where
  entered := by simp
  apart := by simp
  once := List.nodup_nil
  listed := List.nil_subset _
  ordered := ordered_nil

/-- Entering a component puts it at the end of the path. -/
theorem enter (h : Walked cs path w) (hnew : name ∉ w.entered) :
    Walked cs (path ++ [name]) { w with entered := name :: w.entered } where
  entered n := by
    rw [List.mem_cons, h.entered, List.mem_append, List.mem_singleton]
    tauto
  apart n hn := by
    rcases List.mem_append.mp hn with hn | hn
    · exact h.apart n hn
    · obtain rfl := List.mem_singleton.mp hn
      exact fun hlisted => hnew ((h.entered n).mpr (.inr hlisted))
  once := h.once
  listed := h.listed
  ordered := h.ordered

/-- Leaving a component lists it. -/
theorem leave {c : Component} (h : Walked cs (path ++ [c.name]) w) (hc : c ∈ cs)
    (hnew : c.name ∉ path) (hdeps : ∀ d ∈ c.dependsOn, d ∈ w.listed.map Component.name) :
    Walked cs path { w with listed := w.listed ++ [c] } where
  entered n := by
    rw [h.entered, List.map_append, List.mem_append, List.mem_append]
    simp only [List.map_cons, List.map_nil]
    tauto
  apart n hn := by
    have hne : n ≠ c.name := fun heq => hnew (heq ▸ hn)
    simpa [hne] using h.apart n (List.mem_append_left _ hn)
  once := by
    rw [List.map_append, List.map_singleton, ← List.concat_eq_append]
    exact List.Nodup.concat (h.apart c.name (by simp)) h.once
  listed := List.append_subset.mpr ⟨h.listed, by simpa using hc⟩
  ordered := h.ordered.concat hdeps

end Walked

/-- What a walk has come to since `w` that was to list some names: it is back on the same path, has
listed them and keeps what was listed. -/
structure Listed (cs : List Component) (path : List String) (w : Walk) (names : List String)
    (w' : Walk) : Prop where
  walked : Walked cs path w'
  kept : w.listed <+: w'.listed
  all : ∀ n ∈ names, n ∈ w'.listed.map Component.name

/-- Names that are listed in two goes are all listed after both. -/
theorem Listed.trans {names more : List String} {w₁ w₂ w₃ : Walk}
    (h₁ : Listed cs path w₁ names w₂) (h₂ : Listed cs path w₂ more w₃) :
    Listed cs path w₁ (names ++ more) w₃ where
  walked := h₂.walked
  kept := h₁.kept.trans h₂.kept
  all n hn := by
    rcases List.mem_append.mp hn with hn | hn
    · exact List.map_subset _ h₂.kept.subset (h₁.all n hn)
    · exact h₂.all n hn

/-- The only error of a walk: it has found a cycle and reports it. -/
def ReportsCycle (cs : List Component) (e : ConfigError) : Prop :=
  ∃ names, e = .circularDependency names ∧ IsCycle cs names

/-- A visit lists the component, or has found a cycle. The induction is on the depth, which does not
run out because it and the path together are one more than there are components. -/
theorem visit_outcome (hcs : Known cs) {depth : Nat} (hpath : Trail cs path)
    (hdepth : path.length + depth = cs.length + 1)
    (hchain : (path ++ [name]).IsChain (DependsOn cs)) (hname : name ∈ cs.map Component.name)
    (hw : Walked cs path w) :
    Outcome (Listed cs path w [name]) (ReportsCycle cs) (visit cs depth path name w) := by
  induction depth generalizing path name w with
  | zero =>
    have := hpath.length_le
    omega
  | succ depth ih =>
    rw [visit]
    by_cases hback : name ∈ path
    · rw [if_pos (List.contains_iff_mem.mpr hback)]
      exact ⟨_, rfl, hpath.isCycle hchain hback⟩
    rw [if_neg (by simpa using hback)]
    obtain ⟨c, hfind⟩ := find?_isSome hname
    obtain ⟨hc, rfl⟩ := find?_eq_some hfind
    simp only [hfind]
    by_cases hentered : c.name ∈ w.entered
    · rw [if_pos (by simpa using hentered)]
      have hlisted := ((hw.entered _).mp hentered).resolve_left hback
      exact ⟨hw, List.prefix_refl _, by simpa using hlisted⟩
    rw [if_neg (by simpa using hentered)]
    have hpath' := hpath.concat hback hchain hname
    -- every dependency is visited from the path that leads to the component
    have hstep : ∀ done w', Listed cs (path ++ [c.name]) { w with entered := c.name :: w.entered }
        done w' → ∀ d ∈ c.dependsOn, Outcome (Listed cs (path ++ [c.name])
          { w with entered := c.name :: w.entered } (done ++ [d])) (ReportsCycle cs)
          (visit cs depth (path ++ [c.name]) d w') := by
      intro done w' hw' d hd
      have hlen : (path ++ [c.name]).length + depth = cs.length + 1 := by
        rw [List.length_append, List.length_singleton]
        omega
      have hchain' := hpath'.isChain_concat hc hd
      exact (ih hpath' hlen hchain' (hcs c hc d hd) hw'.walked).imp fun _ h => hw'.trans h
    have hdeps := Outcome.foldlM _ hstep [] _ ⟨hw.enter hentered, List.prefix_refl _, by simp⟩
    refine hdeps.bind fun w' hw' => ?_
    refine ⟨hw'.walked.leave hc hback hw'.all, hw'.kept.trans (List.prefix_append _ _), ?_⟩
    simp

/-- A walk over components lists all of them, or has found a cycle. -/
theorem visitAll_outcome (hcs : Known cs) {todo : List Component} (htodo : todo ⊆ cs)
    (hw : Walked cs [] w) :
    Outcome (Listed cs [] w (todo.map Component.name)) (ReportsCycle cs) (visitAll cs todo w) := by
  induction todo generalizing w with
  | nil => exact ⟨hw, List.prefix_refl _, by simp⟩
  | cons c todo ih =>
    have hc : c ∈ cs := htodo List.mem_cons_self
    have hrest : todo ⊆ cs := fun x hx => htodo (List.mem_cons_of_mem _ hx)
    have hgo : ∀ w', Listed cs [] w [c.name] w' →
        Outcome (Listed cs [] w ((c :: todo).map Component.name)) (ReportsCycle cs)
          (visitAll cs todo w') := by
      intro w' hw'
      exact (ih hrest hw'.walked).imp fun _ h => hw'.trans h
    rw [visitAll]
    by_cases hentered : c.name ∈ w.entered
    · rw [if_pos (by simpa using hentered)]
      -- nothing is open at the top, so what was entered is listed
      have hlisted := ((hw.entered _).mp hentered).resolve_left List.not_mem_nil
      exact hgo w ⟨hw, List.prefix_refl _, by simpa using hlisted⟩
    · rw [if_neg (by simpa using hentered)]
      exact (visit_outcome hcs .nil (by simp) (.singleton _) (List.mem_map_of_mem hc) hw).bind hgo

end Component

end RobotHost
