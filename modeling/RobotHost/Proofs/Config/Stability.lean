import RobotHost.Proofs.Config.Ordering

/-!
# Build order keeps the given order

A walk that begins at a component lists nothing but what that component needs (`visit_needed`). So
when the components of a list have been visited up to one of them, this one is listed, and a later
one that none of them needs is not: it can only come afterwards (`buildOrder_keeps`).

Components that stand after all they depend on keep their places, and to put in order what is in
order changes nothing. `buildOrder_stable` puts this together.
-/

namespace RobotHost

namespace Component

variable {cs out : List Component} {names more : List String} {w w₁ w₂ w₃ : Walk}

/-! ## What a walk lists -/

/-- One of these names is the name itself, or depends on it, directly or over others. -/
def Needed (cs : List Component) (names : List String) (n : String) : Prop :=
  ∃ a ∈ names, Relation.ReflTransGen (DependsOn cs) a n

/-- From one walk to the next nothing was listed but what these names need. -/
def OnlyNeeded (cs : List Component) (names : List String) (w w' : Walk) : Prop :=
  ∀ n ∈ w'.listed.map Component.name, n ∈ w.listed.map Component.name ∨ Needed cs names n

namespace OnlyNeeded

theorem refl (names : List String) (w : Walk) : OnlyNeeded cs names w w := fun _ hn => .inl hn

theorem trans (h : OnlyNeeded cs names w₁ w₂) (h' : OnlyNeeded cs names w₂ w₃) :
    OnlyNeeded cs names w₁ w₃ := by
  intro n hn
  rcases h' n hn with hn | hneeded
  · exact h n hn
  · exact .inr hneeded

/-- What some names need is needed by all that need these. -/
theorem mono (h : OnlyNeeded cs names w₁ w₂) (hmore : ∀ a ∈ names, Needed cs more a) :
    OnlyNeeded cs more w₁ w₂ := by
  intro n hn
  rcases h n hn with hn | ⟨a, ha, han⟩
  · exact .inl hn
  · obtain ⟨b, hb, hba⟩ := hmore a ha
    exact .inr ⟨b, hb, hba.trans han⟩

/-- A component is listed for a name of its own. -/
theorem list (h : OnlyNeeded cs names w₁ w₂) {c : Component} (hc : c.name ∈ names) :
    OnlyNeeded cs names w₁ { w₂ with listed := w₂.listed ++ [c] } := by
  intro n hn
  rw [List.map_append, List.mem_append] at hn
  rcases hn with hn | hn
  · exact h n hn
  · obtain rfl : n = c.name := by simpa using hn
    exact .inr ⟨c.name, hc, .refl⟩

end OnlyNeeded

/-- A visit lists nothing but what the component needs. This holds on any path and for any bound. -/
theorem visit_needed (cs : List Component) (depth : Nat) (path : List String) (name : String)
    (w : Walk) :
    Outcome (OnlyNeeded cs [name] w) (fun _ => True) (visit cs depth path name w) := by
  induction depth generalizing path name w with
  | zero => exact .refl [name] w
  | succ depth ih =>
    rw [visit]
    split
    · exact trivial
    cases hfind : find? cs name with
    | none => exact .refl [name] w
    | some c =>
      obtain ⟨hc, rfl⟩ := find?_eq_some hfind
      simp only
      split
      · exact .refl [c.name] w
      -- what a dependency needs is needed by the component
      have hstep : ∀ (done : List String) v, OnlyNeeded cs [c.name] w v → ∀ d ∈ c.dependsOn,
          Outcome (OnlyNeeded cs [c.name] w) (fun _ => True)
            (visit cs depth (path ++ [c.name]) d v) := by
        intro _ v hv d hd
        refine (ih (path ++ [c.name]) d v).imp fun v' hv' => hv.trans (hv'.mono fun a ha => ?_)
        obtain rfl := List.mem_singleton.mp ha
        exact ⟨c.name, List.mem_cons_self, .single ⟨c, hc, rfl, hd⟩⟩
      have hentered : OnlyNeeded cs [c.name] w { w with entered := c.name :: w.entered } :=
        .refl [c.name] w
      have hdeps := Outcome.foldlM (P := fun _ => OnlyNeeded cs [c.name] w) _ hstep [] _ hentered
      refine hdeps.bind fun v hv => ?_
      exact hv.list List.mem_cons_self

/-- A walk over components lists nothing but what they need. -/
theorem visitAll_needed (cs todo : List Component) (w : Walk) :
    Outcome (OnlyNeeded cs (todo.map Component.name) w) (fun _ => True) (visitAll cs todo w) := by
  induction todo generalizing w with
  | nil => exact .refl [] w
  | cons c todo ih =>
    have hself : ∀ a ∈ [c.name], Needed cs ((c :: todo).map Component.name) a :=
      fun a ha => ⟨a, List.mem_cons.mpr (.inl (List.mem_singleton.mp ha)), .refl⟩
    have hrest : ∀ v, Outcome (OnlyNeeded cs ((c :: todo).map Component.name) v) (fun _ => True)
        (visitAll cs todo v) := fun v =>
      (ih v).imp fun _ h => h.mono fun a ha => ⟨a, List.mem_cons_of_mem _ ha, .refl⟩
    rw [visitAll]
    split
    · exact hrest w
    · refine (visit_needed cs _ [] c.name w).bind fun v hv => ?_
      exact (hrest v).imp fun _ h => (hv.mono hself).trans h

/-- To walk over two lists is to walk over one and then over the other. -/
theorem visitAll_append (cs todo later : List Component) (w : Walk) :
    visitAll cs (todo ++ later) w = (visitAll cs todo w >>= visitAll cs later) := by
  induction todo generalizing w with
  | nil => rfl
  | cons c todo ih =>
    rw [List.cons_append, visitAll, visitAll]
    split
    · exact ih w
    · cases visit cs (cs.length + 1) [] c.name w with
      | error e => rfl
      | ok v => exact ih v

/-! ## Which order is kept -/

/-- Build order is what a walk over all components has listed. -/
theorem exists_walk (h : buildOrder cs = .ok out) :
    ∃ w, visitAll cs cs {} = .ok w ∧ w.listed = out := by
  rw [buildOrder] at h
  split at h
  · cases h
  · split at h
    · cases h
    · cases hwalk : visitAll cs cs {} with
      | error e => rw [hwalk] at h; cases h
      | ok w =>
        rw [hwalk] at h
        cases h
        exact ⟨w, rfl, rfl⟩

/-- A component comes before a later one that neither it nor any before it needs. -/
theorem buildOrder_keeps (h : buildOrder cs = .ok out) {done rest : List Component}
    {x y : Component} (hsplit : cs = done ++ x :: rest) (hy : y ∈ rest)
    (hfree : ∀ a ∈ done ++ [x], ¬Relation.TransGen (DependsOn cs) a.name y.name) :
    [x, y].Sublist out := by
  obtain ⟨hnames, hknown⟩ := buildOrder_checked h
  obtain ⟨hperm, -⟩ := buildOrder_sorts h
  obtain ⟨w, hwalk, rfl⟩ := exists_walk h
  have hsplit' : cs = (done ++ [x]) ++ rest := by rw [hsplit, List.append_assoc]; rfl
  have hall : visitAll cs ((done ++ [x]) ++ rest) {} = .ok w := by rwa [hsplit'] at hwalk ⊢
  rw [visitAll_append] at hall
  have hdone : done ++ [x] ⊆ cs := hsplit' ▸ List.subset_append_left _ _
  have hrest : rest ⊆ cs := hsplit' ▸ List.subset_append_right _ _
  -- the walk as far as `x`, and the walk that goes on from there
  have hfront := visitAll_outcome hknown hdone Walked.start
  have hneeded := visitAll_needed cs (done ++ [x]) {}
  cases hv : visitAll cs (done ++ [x]) {} with
  | error e => rw [hv] at hall; cases hall
  | ok v =>
    rw [hv] at hall hfront hneeded
    have hall : visitAll cs rest v = .ok w := hall
    have hback := visitAll_outcome hknown hrest hfront.walked
    rw [hall] at hback
    obtain ⟨late, hlate⟩ := hback.kept
    have hx : x ∈ v.listed := by
      obtain ⟨x', hx', hname⟩ := List.mem_map.mp (hfront.all x.name (by simp))
      rwa [← List.inj_on_of_nodup_map hnames (hfront.walked.listed hx') (hdone (by simp)) hname]
    have hnot : y ∉ v.listed := by
      intro hlisted
      obtain ⟨n, hn, hay⟩ := (hneeded y.name (List.mem_map_of_mem hlisted)).resolve_left (by simp)
      obtain ⟨a, ha, rfl⟩ := List.mem_map.mp hn
      rcases Relation.reflTransGen_iff_eq_or_transGen.mp hay with heq | hay
      · rw [hsplit', List.map_append] at hnames
        exact (List.nodup_append.mp hnames).2.2 _ (List.mem_map_of_mem ha) _
          (List.mem_map_of_mem hy) heq.symm
      · exact hfree a ha hay
    have hmem : y ∈ late := by
      have hout : y ∈ v.listed ++ late := hlate ▸ hperm.mem_iff.mpr (hrest hy)
      exact (List.mem_append.mp hout).resolve_left hnot
    rw [← hlate]
    exact (List.singleton_sublist.mpr hx).append (List.singleton_sublist.mpr hmem)

/-! ## Components that are in order -/

/-- Two elements of a list without repetition stand in one order only. -/
theorem not_sublist_swap {α : Type} {xs : List α} (hxs : xs.Nodup) {a b : α}
    (hab : [a, b].Sublist xs) : ¬[b, a].Sublist xs := by
  intro hba
  obtain ⟨front, back, rfl, ha, hb⟩ := List.cons_sublist_iff.mp hab
  obtain ⟨front', back', heq, hb', ha'⟩ := List.cons_sublist_iff.mp hba
  have hb := List.singleton_sublist.mp hb
  have ha' := List.singleton_sublist.mp ha'
  -- wherever the list is cut the second time, one of the two is on both sides of a cut
  rcases List.append_eq_append_iff.mp heq with ⟨between, rfl, rfl⟩ | ⟨between, rfl, rfl⟩
  · exact (List.nodup_append.mp (heq ▸ hxs)).2.2 a (List.mem_append_left _ ha) a ha' rfl
  · exact (List.nodup_append.mp hxs).2.2 b (List.mem_append_left _ hb') b hb rfl

/-- Components that are in order already keep their places. -/
theorem Ordered.buildOrder_eq (h : Ordered cs) (hnames : (cs.map Component.name).Nodup) :
    buildOrder cs = .ok cs := by
  have hknown : Known cs := by
    intro c hc d hd
    obtain ⟨done, rest, rfl⟩ := List.append_of_mem hc
    rw [List.map_append]
    exact List.mem_append_left _ (h done c rest rfl d hd)
  obtain ⟨out, hout⟩ := exists_buildOrder_iff.mpr ⟨hnames, hknown, h.acyclic hnames⟩
  obtain ⟨hperm, -⟩ := buildOrder_sorts hout
  have hnodup : out.Nodup := hperm.nodup_iff.mpr hnames.of_map
  -- any two components stand in the same order in both lists
  have hkept : cs.Pairwise fun x y => [x, y].Sublist out := by
    refine List.pairwise_iff_forall_sublist.mpr fun {x y} hxy => ?_
    obtain ⟨front, back, rfl, hx, hy⟩ := List.cons_sublist_iff.mp hxy
    obtain ⟨done, rest, rfl⟩ := List.append_of_mem hx
    have hy := List.singleton_sublist.mp hy
    have hsplit : (done ++ x :: rest) ++ back = done ++ x :: (rest ++ back) := by simp
    refine buildOrder_keeps hout hsplit (List.mem_append_right _ hy) fun a ha hay => ?_
    have ha : a ∈ done ++ x :: rest := by
      rcases List.mem_append.mp ha with ha | ha
      · exact List.mem_append_left _ ha
      · simp [List.mem_singleton.mp ha]
    have hfront :=
      h.front.mem_of_needs hnames (List.subset_append_left _ _) (List.mem_map_of_mem ha) hay
    rw [List.map_append] at hnames
    exact (List.nodup_append.mp hnames).2.2 _ hfront _ (List.mem_map_of_mem hy) rfl
  have hsame : out.Pairwise fun x y => [x, y].Sublist out :=
    List.pairwise_iff_forall_sublist.mpr fun hxy => hxy
  have heq : cs = out := List.Perm.eq_of_pairwise
    (fun _ _ _ _ hxy hyx => absurd hyx (not_sublist_swap hnodup hxy)) hkept hsame hperm.symm
  rw [hout, heq]

/-- Build order keeps two components in the order in which they were given, if neither the first nor
any before it needs the second. Components that are in order already keep their places, and to put
components in order twice is to do so once. -/
theorem buildOrder_stable (cs : List Component) :
    (∀ out, buildOrder cs = .ok out →
      (∀ done x rest y, cs = done ++ x :: rest → y ∈ rest →
        (∀ a ∈ done ++ [x], ¬Relation.TransGen (DependsOn cs) a.name y.name) →
          [x, y].Sublist out) ∧
      buildOrder out = .ok out) ∧
    ((cs.map Component.name).Nodup → Ordered cs → buildOrder cs = .ok cs) := by
  refine ⟨fun out hout => ⟨fun done x rest y hsplit hy => buildOrder_keeps hout hsplit hy, ?_⟩,
    fun hnames h => h.buildOrder_eq hnames⟩
  obtain ⟨hperm, hordered⟩ := buildOrder_sorts hout
  exact hordered.buildOrder_eq ((hperm.map _).nodup_iff.mpr (buildOrder_checked hout).1)

namespace Sample

def arm : Component := { name := "arm", type := .arm, dependsOn := ["base"] }

def eye : Component := { name := "eye", type := .camera }

def base : Component := { name := "base", type := .base }

end Sample

/-- The base comes first, since the arm needs it, and the camera stays behind the arm. -/
theorem buildOrder_stable_sample :
    buildOrder [Sample.arm, Sample.eye, Sample.base] =
        .ok [Sample.base, Sample.arm, Sample.eye] ∧
      [Sample.arm, Sample.eye].Sublist [Sample.base, Sample.arm, Sample.eye] ∧
      buildOrder [Sample.base, Sample.arm, Sample.eye] =
        .ok [Sample.base, Sample.arm, Sample.eye] := by
  have hout : buildOrder [Sample.arm, Sample.eye, Sample.base] =
      .ok [Sample.base, Sample.arm, Sample.eye] := rfl
  obtain ⟨hstable, -⟩ := buildOrder_stable [Sample.arm, Sample.eye, Sample.base]
  obtain ⟨hkeeps, hagain⟩ := hstable _ hout
  refine ⟨hout, hkeeps [] Sample.arm [Sample.eye, Sample.base] Sample.eye rfl (by simp) ?_, hagain⟩
  intro a _ hneeds
  -- nothing depends on the camera
  obtain ⟨_, -, c, hc, -, heye⟩ := Relation.TransGen.tail'_iff.mp hneeds
  revert heye
  simp only [List.mem_cons, List.not_mem_nil, or_false] at hc
  rcases hc with rfl | rfl | rfl <;> decide

end Component

end RobotHost
