import RobotHost.Proofs.Config.Traversing

/-!
# How deep visits are nested

A walk enters each component once, and follows the dependencies of a component once. So it ends,
whatever cycles there are: after at most three steps for each component and two for each dependency.
Visits are nested no deeper than along a path without repetition, with one more that closes a cycle.

* `visit_leads` says that the steps of a walk come to what `visit` answers.
* `Begun` are the visits that `buildOrder` begins; the steps of a walk go through all of them
  (`Begun.reached`), and none of them runs out of depth.
* `AtEntry` is what holds whenever a visit begins, and `traversal_bounded` puts these together.
-/

namespace RobotHost

namespace Component

open Traversal

variable {cs todo : List Component} {visits : List Visit} {name : String} {w : Walk}
  {s t u : Traversal}

namespace Traversal

/-! ## Where the steps lead -/

/-- Where a walk stands when the visit above the others has come to its answer. -/
def back (visits : List Visit) (todo : List Component) : Except ConfigError Walk → Traversal
  | .ok w => .resuming visits todo w
  | .error e => .ended (.error e)

/-- Some number of steps leads from one place to the other. -/
def Leads (cs : List Component) (s t : Traversal) : Prop := ∃ k, (step cs)^[k] s = t

namespace Leads

theorem refl (s : Traversal) : Leads cs s s := ⟨0, rfl⟩

theorem trans (h : Leads cs s t) (h' : Leads cs t u) : Leads cs s u := by
  obtain ⟨k, rfl⟩ := h
  obtain ⟨k', rfl⟩ := h'
  exact ⟨k' + k, Function.iterate_add_apply _ _ _ _⟩

theorem single (h : step cs s = t) : Leads cs s t := ⟨1, h⟩

/-- One step more at the beginning. -/
theorem head (h : Leads cs (step cs s) t) : Leads cs s t := (single rfl).trans h

theorem sound (hknown : Known cs) (h : Leads cs s t) (hs : Sound cs s) : Sound cs t := by
  obtain ⟨k, rfl⟩ := h
  exact iterate_sound hknown hs k

/-- A walk goes on from the answer of a visit, or has ended with it. -/
theorem bind {visits' : List Visit} {todo' : List Component} {x : Except ConfigError Walk}
    {f : Walk → Except ConfigError Walk} (h : Leads cs s (back visits todo x))
    (hf : ∀ w, x = .ok w → Leads cs (.resuming visits todo w) (back visits' todo' (f w))) :
    Leads cs s (back visits' todo' (x >>= f)) := by
  cases x with
  | ok w => exact h.trans (hf w rfl)
  | error e => exact h

/-- A walk that leads to an answer has come to it when nothing is ahead any more. -/
theorem ended {answer : Except ConfigError (List Component)} (h : Leads cs s (.ended answer)) :
    (step cs)^[weight cs s] s = .ended answer := by
  obtain ⟨k, hk⟩ := h
  have hstays : ∀ n a, (step cs)^[n] (.ended a) = .ended a :=
    fun n a => Function.iterate_fixed rfl n
  have hzero : weight cs ((step cs)^[weight cs s] s) = 0 := by
    have hle := weight_iterate cs s (weight cs s)
    omega
  obtain ⟨answer', hanswer⟩ := exists_ended_of_weight hzero
  -- the walk stays where it has ended, so both numbers of steps come to the same
  have hboth : (.ended answer' : Traversal) = .ended answer :=
    calc .ended answer' = (step cs)^[k] ((step cs)^[weight cs s] s) := by rw [hanswer, hstays]
      _ = (step cs)^[weight cs s] ((step cs)^[k] s) := by
        rw [← Function.iterate_add_apply, Nat.add_comm, Function.iterate_add_apply]
      _ = .ended answer := by rw [hk, hstays]
  rw [hanswer, hboth]

end Leads

/-- The visits of some dependencies, one after the other, lead to where the rest of them is pending,
if each of these visits leads to what `visit` answers. -/
theorem each_leads (hknown : Known cs) {depth : Nat} {c : Component} {done rest : List String}
    (hvisit : ∀ {visits w d}, Sound cs (.visiting visits todo w d) →
      visits.length + depth = cs.length + 1 → Leads cs (.visiting visits todo w d)
        (back visits todo (visit cs depth (pathOf visits) d w)))
    (hdepth : visits.length + (depth + 1) = cs.length + 1)
    (h : Sound cs (.resuming (⟨c, done ++ rest⟩ :: visits) todo w)) :
    Leads cs (.resuming (⟨c, done ++ rest⟩ :: visits) todo w) (back (⟨c, rest⟩ :: visits) todo
      (done.foldlM (fun w d => visit cs depth (pathOf visits ++ [c.name]) d w) w)) := by
  induction done generalizing w with
  | nil => exact .refl _
  | cons d done ih =>
    rw [List.foldlM_cons]
    have hd : Sound cs (.visiting (⟨c, done ++ rest⟩ :: visits) todo w d) := step_sound hknown h
    have hfirst := hvisit hd (by rw [List.length_cons]; omega)
    rw [pathOf_cons] at hfirst
    refine Leads.bind (.head hfirst) fun w' hw' => ih ?_
    rw [hw'] at hfirst
    exact hfirst.sound hknown hd

/-- A visit that begins leads to what `visit` answers, if the depth and the visits that are under
way are together one more than there are components: the depth does not run out, since the
components that are being visited are distinct. -/
theorem visit_leads (hknown : Known cs) {depth : Nat} (h : Sound cs (.visiting visits todo w name))
    (hdepth : visits.length + depth = cs.length + 1) :
    Leads cs (.visiting visits todo w name)
      (back visits todo (visit cs depth (pathOf visits) name w)) := by
  induction depth generalizing visits name w with
  | zero =>
    have hlen := h.1.trail.length_le
    rw [length_pathOf] at hlen
    omega
  | succ depth ih =>
    have hnext := h.visit
    rw [visit]
    by_cases hback : name ∈ pathOf visits
    · rw [if_pos (List.contains_iff_mem.mpr hback)]
      exact .single (step_back hback)
    rw [if_neg (by simpa using hback)]
    obtain ⟨c, hfind⟩ := find?_isSome h.2.1
    obtain ⟨-, rfl⟩ := find?_eq_some hfind
    simp only [hfind]
    by_cases hentered : c.name ∈ w.entered
    · rw [if_pos (List.contains_iff_mem.mpr hentered)]
      exact .single (step_entered hback hfind hentered)
    rw [if_neg (by simpa using hentered)]
    -- the component is entered, all it depends on is visited, and then it is listed
    have henter : step cs (.visiting visits todo w c.name) = _ := step_enter hback hfind hentered
    rw [henter, ← List.append_nil c.dependsOn] at hnext
    have hdeps := each_leads hknown ih hdepth hnext
    rw [List.append_nil] at hdeps
    exact ((Leads.single henter).trans hdeps).bind fun w' _ => .single rfl

/-- The walk over some components leads to where the rest of them is still to be gone through. -/
theorem visitAll_leads (hknown : Known cs) {done rest : List Component}
    (h : Sound cs (.resuming [] (done ++ rest) w)) :
    Leads cs (.resuming [] (done ++ rest) w) (back [] rest (visitAll cs done w)) := by
  induction done generalizing w with
  | nil => exact .refl _
  | cons c done ih =>
    have hnext := step_sound hknown h
    rw [List.cons_append] at hnext ⊢
    rw [visitAll]
    -- a component that was entered is listed by now and is passed over
    by_cases hentered : c.name ∈ w.entered
    · rw [if_pos (List.contains_iff_mem.mpr hentered)]
      have hskip : step cs (.resuming [] (c :: (done ++ rest)) w) = _ := step_skip hentered
      rw [hskip] at hnext
      exact (Leads.single hskip).trans (ih hnext)
    · rw [if_neg (by simpa using hentered)]
      have hbegin : step cs (.resuming [] (c :: (done ++ rest)) w) = _ := step_begin hentered
      rw [hbegin] at hnext
      have hfirst := visit_leads hknown hnext (Nat.zero_add _)
      rw [pathOf_nil] at hfirst
      refine ((Leads.single hbegin).trans hfirst).bind fun w' hw' => ih ?_
      rw [hw'] at hfirst
      exact hfirst.sound hknown hnext

/-- The steps of a walk come to the build order, or to what is wrong. -/
theorem start_leads (hnames : (cs.map Component.name).Nodup) (hknown : Known cs) :
    Leads cs (start cs) (.ended (buildOrder cs)) := by
  have hstart : Sound cs (.resuming [] (cs ++ []) {}) := by
    rw [List.append_nil]
    exact sound_start cs
  have hall := visitAll_leads hknown hstart
  rw [List.append_nil] at hall
  rw [buildOrder_eq_visitAll hnames hknown]
  refine hall.trans ?_
  cases visitAll cs cs {} with
  | ok w => exact .single rfl
  | error e => exact .refl _

end Traversal

/-! ## The visits that begin -/

/-- The visits that `buildOrder` begins, with the depth, the path and the walk that they are given:
those that `visitAll` begins, and of each visit those of the dependencies of its component. -/
inductive Begun (cs : List Component) : Nat → List String → String → Walk → Prop
  | root {done rest : List Component} {c : Component} {w : Walk} (hsplit : cs = done ++ c :: rest)
      (hwalk : visitAll cs done {} = .ok w) (hnew : c.name ∉ w.entered) :
      Begun cs (cs.length + 1) [] c.name w
  | dependency {depth : Nat} {path : List String} {name : String} {w w' : Walk} {c : Component}
      {done rest : List String} {d : String} (hbegun : Begun cs (depth + 1) path name w)
      (hpath : name ∉ path) (hfind : find? cs name = some c) (hnew : name ∉ w.entered)
      (hsplit : c.dependsOn = done ++ d :: rest)
      (hwalk : done.foldlM (fun w e => visit cs depth (path ++ [name]) e w)
        { w with entered := name :: w.entered } = .ok w') :
      Begun cs depth (path ++ [name]) d w'

/-- The steps of a walk go through every visit that `buildOrder` begins. -/
theorem Begun.reached (hknown : Known cs) {depth : Nat} {path : List String}
    (h : Begun cs depth path name w) :
    path.length + depth = cs.length + 1 ∧
      ∃ visits todo, pathOf visits = path ∧
        Leads cs (start cs) (.visiting visits todo w name) := by
  induction h with
  | @root done rest c w hsplit hwalk hnew =>
    have hstart : Sound cs (.resuming [] (done ++ c :: rest) {}) := by
      rw [← hsplit]
      exact sound_start cs
    have hdone := visitAll_leads hknown hstart
    rw [hwalk, ← hsplit] at hdone
    exact ⟨Nat.zero_add _, [], rest, rfl, hdone.trans (.single (step_begin hnew))⟩
  | @dependency depth path name w w' c done rest d hbegun hpath hfind hnew hsplit hwalk ih =>
    obtain ⟨hlen, visits, todo, rfl, hentry⟩ := ih
    obtain ⟨-, rfl⟩ := find?_eq_some hfind
    rw [length_pathOf] at hlen
    have hsound := step_sound hknown (hentry.sound hknown (sound_start cs))
    have henter : step cs (.visiting visits todo w c.name) = _ := step_enter hpath hfind hnew
    rw [henter, hsplit] at hsound
    -- the dependencies before this one are done with when it is begun
    have hdone := each_leads hknown (visit_leads hknown) hlen hsound
    rw [hwalk, ← hsplit, ← henter] at hdone
    refine ⟨?_, ⟨c, rest⟩ :: visits, todo, pathOf_cons _ _, ?_⟩
    · rw [List.length_append, length_pathOf, List.length_singleton]
      omega
    · exact hentry.trans (.head (hdone.trans (.single rfl)))

/-- What holds when the visit of a name begins, from a path and with a walk so far. -/
structure AtEntry (cs : List Component) (path : List String) (name : String) (w : Walk) : Prop where
  distinct : path.Nodup
  known : path ⊆ cs.map Component.name
  /-- Each name of the path depends on the next, and the last one on the name. -/
  chain : (path ++ [name]).IsChain (DependsOn cs)
  entered : path ⊆ w.entered
  /-- What has been entered and left again is listed, with all it depends on, directly or over
  others. -/
  left : ∀ n ∈ w.entered, n ∉ path → n ∈ w.listed.map Component.name ∧
    ∀ d, Relation.TransGen (DependsOn cs) n d → d ∈ w.listed.map Component.name
  listed : w.listed ⊆ cs
  once : (w.listed.map Component.name).Nodup

/-- Where a visit begins in a sound walk, its path and the walk are as on entry: what has been
entered is on the path or has been left, with all that it depends on. -/
theorem Traversal.Sound.atEntry (hnames : (cs.map Component.name).Nodup)
    (h : Sound cs (.visiting visits todo w name)) : AtEntry cs (pathOf visits) name w := by
  obtain ⟨⟨-, htrail, hwalked, -⟩, -, hchain⟩ := h
  refine ⟨htrail.distinct, htrail.known, hchain, fun n hn => (hwalked.entered n).mpr (.inl hn), ?_,
    hwalked.listed, hwalked.once⟩
  intro n hn hpath
  have hlisted := ((hwalked.entered n).mp hn).resolve_left hpath
  exact ⟨hlisted, fun d hd => hwalked.ordered.mem_of_needs hnames hwalked.listed hlisted hd⟩

/-- With distinct names and no dependency missing, a walk is bounded, whatever cycles there are.
When a visit begins, its path and its walk are as `AtEntry` says, and no more visits are under way
than there are components, this one not counted. All visits that `buildOrder` begins are among
these, and none of them runs out of depth. After three steps for each component, two for each
dependency and one more, the walk has ended with the answer of `buildOrder`. -/
theorem traversal_bounded (cs : List Component) (hnames : (cs.map Component.name).Nodup)
    (hknown : Known cs) :
    (∀ k visits todo w name, (step cs)^[k] (start cs) = .visiting visits todo w name →
      AtEntry cs (pathOf visits) name w ∧ visits.length + 1 ≤ cs.length + 1) ∧
    (∀ depth path name w, Begun cs depth path name w → 0 < depth ∧
      ∃ k visits todo, pathOf visits = path ∧
        (step cs)^[k] (start cs) = .visiting visits todo w name) ∧
    (step cs)^[3 * cs.length + 2 * (cs.map fun c => c.dependsOn.length).sum + 1] (start cs) =
      .ended (buildOrder cs) := by
  -- a path has no name twice, so no more visits are open than there are components
  have hdeep : ∀ k visits todo w name, (step cs)^[k] (start cs) = .visiting visits todo w name →
      AtEntry cs (pathOf visits) name w ∧ visits.length ≤ cs.length := by
    intro k visits todo w name hk
    have hsound := iterate_sound hknown (sound_start cs) k
    rw [hk] at hsound
    have hlen := hsound.1.trail.length_le
    rw [length_pathOf] at hlen
    exact ⟨hsound.atEntry hnames, hlen⟩
  refine ⟨fun k visits todo w name hk => ?_, fun depth path name w hbegun => ?_, ?_⟩
  · obtain ⟨hentries, hlen⟩ := hdeep k visits todo w name hk
    exact ⟨hentries, Nat.succ_le_succ hlen⟩
  · obtain ⟨hdepth, visits, todo, rfl, k, hk⟩ := hbegun.reached hknown
    obtain ⟨-, hlen⟩ := hdeep k visits todo w name hk
    rw [length_pathOf] at hdepth
    exact ⟨by omega, k, visits, todo, rfl, hk⟩
  · have hended := (start_leads hnames hknown).ended
    -- at the start all components and all their dependencies are ahead
    have hweight : weight cs (start cs) =
        3 * cs.length + 2 * (cs.map fun c => c.dependsOn.length).sum + 1 := by
      have hdue := due_nil cs
      simp only [start, weight, ahead, hdue, List.map_nil, List.sum_nil]
      omega
    rwa [hweight] at hended

namespace Sample

/-- An arm that needs a base and an eye, and an eye and a lamp that need each other. -/
def looped : List Component := [
  { name := "arm", type := .arm, dependsOn := ["base", "eye"] },
  { name := "base", type := .base },
  { name := "eye", type := .camera, dependsOn := ["lamp"] },
  { name := "lamp", type := .other "lamp", dependsOn := ["eye"] }]

/-- The base is listed, and the arm goes on to the eye. -/
def onward : Walk := ⟨["base", "arm"], [looped[1]]⟩

/-- The lamp has been entered from the eye. -/
def around : Walk := ⟨["lamp", "eye", "base", "arm"], [looped[1]]⟩

end Sample

/-- The eye is visited from the arm, and again from the lamp, where the walk ends. -/
theorem traversal_bounded_sample :
    (∃ k visits todo, pathOf visits = ["arm"] ∧
      (step Sample.looped)^[k] (start Sample.looped) = .visiting visits todo Sample.onward "eye") ∧
    AtEntry Sample.looped ["arm", "eye", "lamp"] "eye" Sample.around ∧
    (step Sample.looped)^[21] (start Sample.looped) =
      .ended (.error (.circularDependency ["eye", "lamp"])) := by
  obtain ⟨hentries, hamong, hended⟩ := traversal_bounded Sample.looped (by decide)
    (by unfold Known; decide)
  have hfirst : Begun Sample.looped 5 [] "arm" {} :=
    .root (List.nil_append Sample.looped).symm rfl List.not_mem_nil
  have hneeds : Sample.looped[0].dependsOn = ["base"] ++ "eye" :: [] := rfl
  have hsecond : Begun Sample.looped 4 ["arm"] "eye" Sample.onward :=
    .dependency hfirst List.not_mem_nil rfl List.not_mem_nil hneeds rfl
  have hagain : (step Sample.looped)^[10] (start Sample.looped) = .visiting
      [⟨Sample.looped[3], []⟩, ⟨Sample.looped[2], []⟩, ⟨Sample.looped[0], []⟩]
      (Sample.looped.drop 1) Sample.around "eye" := rfl
  exact ⟨(hamong _ _ _ _ hsecond).2, (hentries _ _ _ _ _ hagain).1, hended⟩

end Component

end RobotHost
