import Mathlib.Algebra.Order.BigOperators.Group.List
import Mathlib.Algebra.Order.Ring.Nat
import Mathlib.Logic.Function.Iterate
import RobotHost.Proofs.Config.Ordering

/-!
# The walk step by step

`visit` calls itself, and how deep it may do so is given from outside. `Traversal` is the same walk
without a bound: the visits that are under way are kept in a stack, and `step` does what comes next.
A visit begins, or closes a cycle, or goes on; a component is left when all it depends on has been
visited.

* `Sound` is what every step keeps (`step_sound`), also within the loops over dependencies: there,
  what a component depends on is listed, pending, or awaited from the visit above (`Stacked`).
* `weight` falls with every step (`weight_step`). It counts the components that are not entered, the
  dependencies that are pending and the components that are still to be gone through.
-/

namespace RobotHost

namespace Component

/-- A visit that is under way: the component it has entered, and those of its dependencies that are
still to be visited. -/
structure Visit where
  component : Component
  pending : List String

/-- Where a walk stands. `visits` are under way, the innermost first; when there are none, the
components of `todo` are still to be gone through. -/
inductive Traversal where
  /-- The visit of this name is about to begin. -/
  | visiting (visits : List Visit) (todo : List Component) (w : Walk) (name : String)
  /-- No visit is about to begin: the innermost one that is under way goes on. -/
  | resuming (visits : List Visit) (todo : List Component) (w : Walk)
  | ended (answer : Except ConfigError (List Component))

/-- The names of the components that are being visited, the outermost first. -/
def pathOf (visits : List Visit) : List String := (visits.map fun v => v.component.name).reverse

@[simp] theorem pathOf_nil : pathOf [] = [] := rfl

@[simp] theorem pathOf_cons (v : Visit) (visits : List Visit) :
    pathOf (v :: visits) = pathOf visits ++ [v.component.name] := by
  simp [pathOf]

@[simp] theorem length_pathOf (visits : List Visit) : (pathOf visits).length = visits.length := by
  simp [pathOf]

namespace Traversal

/-- What comes next. A walk that has ended goes no further. -/
def step (cs : List Component) : Traversal → Traversal
  | .resuming [] [] w => .ended (.ok w.listed)
  | .resuming [] (c :: todo) w =>
    if w.entered.contains c.name then .resuming [] todo w else .visiting [] todo w c.name
  | .resuming (⟨c, []⟩ :: visits) todo w =>
    .resuming visits todo { w with listed := w.listed ++ [c] }
  | .resuming (⟨c, d :: pending⟩ :: visits) todo w => .visiting (⟨c, pending⟩ :: visits) todo w d
  | .visiting visits todo w name =>
    if (pathOf visits).contains name then
      .ended (.error (.circularDependency ((pathOf visits).dropWhile (· ≠ name))))
    else
      match find? cs name with
      | none => .resuming visits todo w
      | some c =>
        if w.entered.contains name then .resuming visits todo w
        else .resuming (⟨c, c.dependsOn⟩ :: visits) todo { w with entered := name :: w.entered }
  | .ended answer => .ended answer

/-- Nothing has been entered, and all components are to be gone through. -/
def start (cs : List Component) : Traversal := .resuming [] cs {}

end Traversal

open Traversal

variable {cs todo : List Component} {visits : List Visit} {name : String} {w : Walk}
  {s : Traversal}

/-! ## What a step does -/

namespace Traversal

variable {c : Component}

/-- A component that a walk has met before is not visited again. -/
theorem step_skip (hentered : c.name ∈ w.entered) :
    step cs (.resuming [] (c :: todo) w) = .resuming [] todo w := by
  rw [step, if_pos (List.contains_iff_mem.mpr hentered)]

/-- Otherwise it is visited, with nothing on the path. -/
theorem step_begin (hentered : c.name ∉ w.entered) :
    step cs (.resuming [] (c :: todo) w) = .visiting [] todo w c.name := by
  rw [step, if_neg (by simpa using hentered)]

/-- A name that is on the path closes a cycle, and the walk ends with it. -/
theorem step_back (hback : name ∈ pathOf visits) :
    step cs (.visiting visits todo w name) =
      .ended (.error (.circularDependency ((pathOf visits).dropWhile (· ≠ name)))) := by
  rw [step, if_pos (List.contains_iff_mem.mpr hback)]

/-- A visit that finds its component entered goes back at once. -/
theorem step_entered (hnew : name ∉ pathOf visits) (hfind : find? cs name = some c)
    (hentered : name ∈ w.entered) :
    step cs (.visiting visits todo w name) = .resuming visits todo w := by
  rw [step, if_neg (by simpa using hnew)]
  simp only [hfind]
  rw [if_pos (List.contains_iff_mem.mpr hentered)]

/-- Else the component is entered, and all it depends on is pending. -/
theorem step_enter (hnew : name ∉ pathOf visits) (hfind : find? cs name = some c)
    (hentered : name ∉ w.entered) :
    step cs (.visiting visits todo w name) =
      .resuming (⟨c, c.dependsOn⟩ :: visits) todo { w with entered := name :: w.entered } := by
  rw [step, if_neg (by simpa using hnew)]
  simp only [hfind]
  rw [if_neg (by simpa using hentered)]

end Traversal

/-! ## What every step keeps -/

/-- Visits that are under way: whatever their components depend on is listed, pending, or awaited
from the visit above. -/
inductive Stacked (cs : List Component) (listed : List String) : List String → List Visit → Prop
  | nil {awaited : List String} : Stacked cs listed awaited []
  | cons {awaited pending : List String} {c : Component} {visits : List Visit} (hc : c ∈ cs)
      (hpending : pending ⊆ c.dependsOn) (hvisited : c.dependsOn ⊆ listed ++ awaited ++ pending)
      (houter : Stacked cs listed [c.name] visits) :
      Stacked cs listed awaited (⟨c, pending⟩ :: visits)

namespace Stacked

variable {listed more awaited pending : List String} {c : Component}

/-- Nothing that was listed is missed later. -/
theorem mono (h : Stacked cs listed awaited visits) (hmore : listed ⊆ more) :
    Stacked cs more awaited visits := by
  induction h with
  | nil => exact .nil
  | cons hc hpending hvisited _ ih =>
    refine .cons hc hpending (fun d hd => ?_) ih
    have hd := hvisited hd
    simp only [List.mem_append] at hd ⊢
    exact hd.imp_left fun hd => hd.imp_left fun hd => hmore hd

/-- What was awaited and is listed is awaited no longer. -/
theorem resume (h : Stacked cs listed [name] visits) (hname : name ∈ listed) :
    Stacked cs listed [] visits := by
  cases h with
  | nil => exact .nil
  | cons hc hpending hvisited houter =>
    refine .cons hc hpending (fun d hd => ?_) houter
    have hd := hvisited hd
    simp only [List.mem_append, List.mem_singleton, List.append_nil] at hd ⊢
    rcases hd with (hd | rfl) | hd
    · exact .inl hd
    · exact .inl hname
    · exact .inr hd

/-- The first dependency that is pending is visited next. -/
theorem await {d : String} (h : Stacked cs listed [] (⟨c, d :: pending⟩ :: visits)) :
    Stacked cs listed [d] (⟨c, pending⟩ :: visits) := by
  cases h with
  | cons hc hpending hvisited houter =>
    refine .cons hc (List.subset_of_cons_subset hpending) (fun e he => ?_) houter
    simpa using hvisited he

/-- A component that is entered has all of its dependencies pending. -/
theorem enter (h : Stacked cs listed [c.name] visits) (hc : c ∈ cs) :
    Stacked cs listed [] (⟨c, c.dependsOn⟩ :: visits) :=
  .cons hc (List.Subset.refl _) (List.subset_append_right _ _) h

end Stacked

/-- A walk that is on its way: where it has come to, and what its visits have still to do. -/
structure Underway (cs : List Component) (visits : List Visit) (todo : List Component) (w : Walk)
    (awaited : List String) : Prop where
  todo : todo ⊆ cs
  trail : Trail cs (pathOf visits)
  walked : Walked cs (pathOf visits) w
  stacked : Stacked cs (w.listed.map Component.name) awaited visits

namespace Traversal

/-- What holds wherever a walk stands. -/
def Sound (cs : List Component) : Traversal → Prop
  | .visiting visits todo w name =>
    Underway cs visits todo w [name] ∧ name ∈ cs.map Component.name ∧
      (pathOf visits ++ [name]).IsChain (DependsOn cs)
  | .resuming visits todo w => Underway cs visits todo w []
  | .ended _ => True

/-- A walk is sound before it has begun. -/
theorem sound_start (cs : List Component) : Sound cs (start cs) where
  todo := List.Subset.refl _
  trail := .nil
  walked := .start
  stacked := .nil

/-- A visit that begins closes a cycle, finds its component listed, or enters it. -/
theorem Sound.visit (h : Sound cs (.visiting visits todo w name)) :
    Sound cs (step cs (.visiting visits todo w name)) := by
  obtain ⟨hunder, hname, hchain⟩ := h
  by_cases hback : name ∈ pathOf visits
  · rw [step_back hback]
    exact trivial
  obtain ⟨c, hfind⟩ := find?_isSome hname
  obtain ⟨hc, rfl⟩ := find?_eq_some hfind
  by_cases hentered : c.name ∈ w.entered
  · rw [step_entered hback hfind hentered]
    have hlisted := ((hunder.walked.entered _).mp hentered).resolve_left hback
    exact ⟨hunder.todo, hunder.trail, hunder.walked, hunder.stacked.resume hlisted⟩
  · rw [step_enter hback hfind hentered]
    refine ⟨hunder.todo, ?_, ?_, hunder.stacked.enter hc⟩
    · rw [pathOf_cons]
      exact hunder.trail.concat hback hchain hname
    · rw [pathOf_cons]
      exact hunder.walked.enter hentered

/-- A visit that goes on leaves its component when all it depends on is listed, and begins the visit
of the next dependency otherwise. -/
theorem Sound.resume (hknown : Known cs) (h : Sound cs (.resuming visits todo w)) :
    Sound cs (step cs (.resuming visits todo w)) := by
  obtain ⟨htodo, htrail, hwalked, hstacked⟩ := h
  match visits with
  | [] =>
    match todo with
    | [] => exact trivial
    | c :: todo =>
      obtain ⟨hc, htodo⟩ := List.cons_subset.mp htodo
      by_cases hentered : c.name ∈ w.entered
      · rw [step_skip hentered]
        exact ⟨htodo, htrail, hwalked, .nil⟩
      · rw [step_begin hentered]
        exact ⟨⟨htodo, htrail, hwalked, .nil⟩, List.mem_map_of_mem hc, .singleton _⟩
  | ⟨c, []⟩ :: visits =>
    rw [pathOf_cons] at htrail hwalked
    cases hstacked with
    | cons hc _ hvisited houter =>
      have hdeps : ∀ d ∈ c.dependsOn, d ∈ w.listed.map Component.name := fun d hd => by
        simpa using hvisited hd
      have hnew : c.name ∉ pathOf visits := fun hmem =>
        (List.nodup_append.mp htrail.distinct).2.2 _ hmem _ List.mem_cons_self rfl
      refine ⟨htodo, htrail.front, hwalked.leave hc hnew hdeps, ?_⟩
      refine (houter.mono ?_).resume ?_
      · rw [List.map_append]
        exact List.subset_append_left _ _
      · simp
  | ⟨c, d :: pending⟩ :: visits =>
    have hawait := hstacked.await
    cases hstacked with
    | cons hc hpending _ _ =>
      have hd : d ∈ c.dependsOn := hpending List.mem_cons_self
      refine ⟨⟨htodo, htrail, hwalked, hawait⟩, hknown c hc d hd, ?_⟩
      rw [pathOf_cons] at htrail ⊢
      exact htrail.isChain_concat hc hd

/-- Every step keeps what holds. -/
theorem step_sound (hknown : Known cs) (h : Sound cs s) : Sound cs (step cs s) := by
  cases s with
  | visiting visits todo w name => exact h.visit
  | resuming visits todo w => exact h.resume hknown
  | ended answer => exact trivial

/-- So it holds wherever a walk comes. -/
theorem iterate_sound (hknown : Known cs) (h : Sound cs s) (k : Nat) :
    Sound cs ((step cs)^[k] s) := by
  induction k with
  | zero => exact h
  | succ k ih =>
    rw [Function.iterate_succ_apply']
    exact step_sound hknown ih

/-! ## What is still ahead -/

/-- What the components that are not entered will ask for: a step to leave each of them, and two for
each dependency, to begin a visit and to see what becomes of it. -/
def due (cs : List Component) (entered : List String) : Nat :=
  (cs.map fun c => if c.name ∈ entered then 0 else 2 * c.dependsOn.length + 1).sum

/-- What a walk has ahead of it when no visit is about to begin, with one step for the end. -/
def ahead (cs : List Component) (visits : List Visit) (todo : List Component) (w : Walk) : Nat :=
  due cs w.entered + (visits.map fun v => 2 * v.pending.length + 1).sum + 2 * todo.length + 1

/-- No walk takes more steps than this. -/
def weight (cs : List Component) : Traversal → Nat
  | .visiting visits todo w _ => ahead cs visits todo w + 1
  | .resuming visits todo w => ahead cs visits todo w
  | .ended _ => 0

theorem due_cons_le (cs : List Component) (entered : List String) (n : String) :
    due cs (n :: entered) ≤ due cs entered := by
  refine List.sum_le_sum fun c _ => ?_
  by_cases h : c.name ∈ entered
  · simp [h]
  · rw [if_neg h]
    split <;> omega

/-- To enter a component is to pay for its dependencies. -/
theorem due_enter {c : Component} {entered : List String} (hc : c ∈ cs) (hnew : c.name ∉ entered) :
    due cs (c.name :: entered) + (2 * c.dependsOn.length + 1) ≤ due cs entered := by
  obtain ⟨before, after, rfl⟩ := List.append_of_mem hc
  have hbefore := due_cons_le before entered c.name
  have hafter := due_cons_le after entered c.name
  simp only [due, List.map_append, List.map_cons, List.sum_append, List.sum_cons,
    List.mem_cons_self, if_true, if_neg hnew] at hbefore hafter ⊢
  omega

/-- Before the first step there are two things to do for each dependency, and one for each
component. -/
theorem due_nil (cs : List Component) :
    due cs [] = cs.length + 2 * (cs.map fun c => c.dependsOn.length).sum := by
  induction cs with
  | nil => rfl
  | cons c cs ih =>
    simp only [due, List.not_mem_nil, if_false, List.map_cons, List.sum_cons,
      List.length_cons] at ih ⊢
    omega

/-- Every step leaves less ahead, until the walk has ended. -/
theorem weight_step (cs : List Component) (s : Traversal) :
    weight cs (step cs s) ≤ weight cs s - 1 := by
  match s with
  | .resuming [] [] w => exact Nat.zero_le _
  | .resuming [] (c :: todo) w =>
    rw [step]
    split <;> simp only [weight, ahead, List.length_cons] <;> omega
  | .resuming (⟨c, []⟩ :: visits) todo w =>
    simp only [step, weight, ahead, List.map_cons, List.sum_cons, List.length_nil]
    omega
  | .resuming (⟨c, d :: pending⟩ :: visits) todo w =>
    simp only [step, weight, ahead, List.map_cons, List.sum_cons, List.length_cons]
    omega
  | .visiting visits todo w name =>
    rw [step]
    split
    · exact Nat.zero_le _
    cases hfind : find? cs name with
    | none => exact Nat.le_refl _
    | some c =>
      obtain ⟨hc, rfl⟩ := find?_eq_some hfind
      simp only
      split
      · exact Nat.le_refl _
      · next hnew =>
        -- what the visit brings was counted as ahead
        have hdue := due_enter hc (by simpa using hnew)
        simp only [weight, ahead, List.map_cons, List.sum_cons]
        omega
  | .ended answer => exact Nat.zero_le _

/-- A walk loses weight with each step, as long as it has any. -/
theorem weight_iterate (cs : List Component) (s : Traversal) (k : Nat) :
    weight cs ((step cs)^[k] s) ≤ weight cs s - k := by
  induction k with
  | zero => exact Nat.le_refl _
  | succ k ih =>
    rw [Function.iterate_succ_apply']
    have hstep := weight_step cs ((step cs)^[k] s)
    omega

/-- A walk has ended when nothing is ahead of it. -/
theorem exists_ended_of_weight (h : weight cs s = 0) : ∃ answer, s = .ended answer := by
  cases s with
  | visiting visits todo w name => simp [weight] at h
  | resuming visits todo w => simp [weight, ahead] at h
  | ended answer => exact ⟨answer, rfl⟩

end Traversal

end Component

end RobotHost
