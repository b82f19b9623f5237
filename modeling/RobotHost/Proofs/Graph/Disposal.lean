import RobotHost.Proofs.Graph.Closing

/-!
# What closing leaves in the ledger

To close a graph is to close its resources, each once. But a connection may lead to a robot that
closes all it holds in turn, so the ledger may show more than that.

What comes on top was there before: robots that answer calls only have handles from a world that is
earlier than all that is closed. So closings are counted relative to such a world (`World.Closes`):
whatever it does not hold is closed as often as it was to be closed.
-/

namespace RobotHost

/-! ## What a world holds -/

/-- What stands behind some handle of the world. -/
def World.Holds (w : World) (x : Resource) : Prop := ∃ s b, w.behind? s = some b ∧ b.resource = x

/-- A connection that passes calls on does so to a remote robot of the world. -/
def Connection.Rooted (w : World) : Connection → Prop
  | .robot _ => True
  | .remote r => ∃ remote, w.remotes.get? r = some remote

def Resource.Rooted (w : World) : Resource → Prop
  | .driver _ => True
  | .connection c => c.Rooted w

namespace World

/-- A world in which nothing refers to what is not there. -/
structure Whole (w : World) : Prop where
  drivers : ∀ d, w.Holds (.driver d) → d.index < w.drivers.size
  connections : ∀ c, w.Holds (.connection c) → c.Rooted w
  robots : ∀ r g, w.robots.get? r = some g → ∀ k name h, (g.entries k).get? name = some h →
    ∃ x, w.behind? (k.slot h) = some x

/-- From one world to the next this was closed, resource by resource as often as it is listed, not
counting what is held by the world `w₀`. -/
def Closes (w₀ : World) (xs : List Resource) (w w' : World) : Prop :=
  ∃ cs, w'.closings = w.closings ++ cs ∧ ∀ x, ¬w₀.Holds x → cs.count x = xs.count x

variable {w₀ w w' w'' : World} {xs ys : List Resource}

theorem Closes.of_closings_eq (w₀ : World) (h : w'.closings = w.closings) : Closes w₀ [] w w' :=
  ⟨[], by rw [h, List.append_nil], fun _ _ => rfl⟩

/-- What is closed in two stages adds up. -/
theorem Closes.trans (h : Closes w₀ xs w w') (h' : Closes w₀ ys w' w'') :
    Closes w₀ (xs ++ ys) w w'' := by
  obtain ⟨cs, hcs, hcount⟩ := h
  obtain ⟨cs', hcs', hcount'⟩ := h'
  refine ⟨cs ++ cs', by rw [hcs', hcs, List.append_assoc], fun x hx => ?_⟩
  rw [List.count_append, List.count_append, hcount x hx, hcount' x hx]

/-- Only the counts of what the world does not hold matter. -/
theorem Closes.congr (h : Closes w₀ xs w w') (hsame : ∀ x, ¬w₀.Holds x → xs.count x = ys.count x) :
    Closes w₀ ys w w' := by
  obtain ⟨cs, hcs, hcount⟩ := h
  exact ⟨cs, hcs, fun x hx => (hcount x hx).trans (hsame x hx)⟩

/-- What the world holds need not be listed. -/
theorem Closes.held (h : Closes w₀ xs w w') (hheld : ∀ x ∈ xs, w₀.Holds x) :
    Closes w₀ [] w w' := by
  refine h.congr fun x hx => ?_
  have hmem : x ∉ xs := fun hmem => hx (hheld x hmem)
  rw [List.count_eq_zero_of_not_mem hmem, List.count_nil]

theorem closes_of_log {e : Event} {x : Resource} (hlog : w'.log = w.log ++ [e])
    (he : e.closes? = some x) : Closes w₀ [x] w w' := by
  refine ⟨[x], ?_, fun _ _ => rfl⟩
  unfold closings
  rw [hlog, List.filterMap_append, List.filterMap_cons_some he, List.filterMap_nil]

theorem Idle.closings (h : w.Idle w') : w'.closings = w.closings :=
  (h.ofProcess.mono fun _ he => he.resources.2).closings

/-- To close resources in turn closes all of them, if each step closes its own. -/
theorem foldl_closes {close : World → Resource → World}
    (hquiet : ∀ (w : World) x, w.Quiet (close w x))
    (hclose : ∀ x ∈ xs, ∀ w, w₀.Recalls w → Closes w₀ [x] w (close w x)) (hw : w₀.Recalls w) :
    Closes w₀ xs w (xs.foldl close w) := by
  induction xs generalizing w with
  | nil => exact .of_closings_eq w₀ rfl
  | cons x rest ih =>
    have hfirst := hclose x List.mem_cons_self w hw
    have hnext := hw.trans (hquiet w x).extends.toRecalls
    exact hfirst.trans (ih (fun y hy => hclose y (List.mem_cons_of_mem _ hy)) hnext)

/-! ## Connections -/

/-- What the robots of a world have is held by the world. -/
theorem Whole.holds (hw₀ : w₀.Whole) (hw : w₀.Recalls w) {r : Ref .robot} {g : Graph}
    (hg : w₀.robots.get? r = some g) {x : Resource} (hx : x ∈ g.resources w) : w₀.Holds x := by
  obtain ⟨k, name, b, hb, rfl⟩ := Graph.mem_resources.mp hx
  obtain ⟨h, hh, hbehind⟩ := Graph.backing?_eq_some_iff.mp hb
  obtain ⟨y, hy⟩ := hw₀.robots r g hg k name h hh
  rw [hw.behind _ _ hy] at hbehind
  cases hbehind
  exact ⟨_, _, hy, rfl⟩

/-- A robot that was there closes only what was there. -/
theorem closeVia_held (hw₀ : w₀.Whole) (h : Host) {depth : Nat}
    (hheld : ∀ c w, w₀.Holds (.connection c) → w₀.Recalls w →
      Closes w₀ [] w (hangUpIn h depth c w).2)
    {r : Ref .robot} {g : Graph} (hg : w₀.robots.get? r = some g) (hw : w₀.Recalls w) :
    Closes w₀ [] w (g.closeVia h (hangUpIn h depth) w).2 := by
  have hidle := g.stopped_idle h w
  have hresources : ∀ x ∈ g.resources w, w₀.Holds x := fun x hx => hw₀.holds hw hg hx
  rw [Graph.closeVia_snd (hangUpIn_quiet h depth)]
  -- all that is closed is held by the earlier world, so none of it counts
  refine (Closes.of_closings_eq w₀ hidle.closings).trans ((foldl_closes
    (closed_quiet (hangUpIn_quiet h depth)) (fun x hx u hu => ?_)
    (hw.trans hidle.extends.toRecalls)).held hresources)
  cases x with
  | driver d => exact closes_of_log rfl rfl
  | connection c =>
    refine (hheld c u (hresources _ hx) hu).congr fun y hy => ?_
    have hne : y ∉ [Resource.connection c] := by
      intro hmem
      rw [List.mem_singleton.mp hmem] at hy
      exact hy (hresources _ hx)
    rw [List.count_nil, List.count_eq_zero_of_not_mem hne]

/-- To close a connection closes it and what robots close in turn, which was all there before. -/
theorem hangUpIn_succ_closes (hw₀ : w₀.Whole) (h : Host) {depth : Nat}
    (hheld : ∀ c w, w₀.Holds (.connection c) → w₀.Recalls w →
      Closes w₀ [] w (hangUpIn h depth c w).2)
    {c : Connection} (hc : c.Rooted w₀) (hw : w₀.Recalls w) :
    Closes w₀ [.connection c] w (hangUpIn h (depth + 1) c w).2 := by
  have hfirst : Closes w₀ [.connection c] w (note (.hungUp c) w).2 := closes_of_log rfl rfl
  have hnext : w₀.Recalls (note (.hungUp c) w).2 :=
    hw.trans (note_quiet rfl w).extends.toRecalls
  cases c with
  | robot r =>
    rw [hangUpIn_robot]
    cases hg : w.robots.get? r with
    | none => exact hfirst
    | some g =>
      -- robots stay what they are, so this one answered in the earlier world
      rw [hw.robots] at hg
      exact hfirst.trans (closeVia_held hw₀ h hheld hg hnext)
  | remote r =>
    obtain ⟨remote, hremote⟩ := hc
    have hbehind : w₀.behind? (.remote r) = some (.remote remote) :=
      Option.map_eq_some_iff.mpr ⟨remote, hremote, rfl⟩
    -- the remote robot is one of the earlier world, and still has its connection
    have hsame : w.remotes.get? r = some remote := by
      obtain ⟨x, hx, heq⟩ := Option.map_eq_some_iff.mp (hw.behind _ _ hbehind)
      cases heq
      exact hx
    rw [hangUpIn_remote, hsame]
    exact hfirst.trans (hheld remote.connection _ ⟨_, _, hbehind, rfl⟩ hnext)

/-- To close a connection that was there closes nothing else. -/
theorem hangUpIn_held (hw₀ : w₀.Whole) (h : Host) (depth : Nat) (c : Connection) (w : World)
    (hc : w₀.Holds (.connection c)) (hw : w₀.Recalls w) :
    Closes w₀ [] w (hangUpIn h depth c w).2 := by
  induction depth generalizing c w with
  | zero => exact .of_closings_eq w₀ rfl
  | succ depth ih =>
    refine (hangUpIn_succ_closes hw₀ h ih (hw₀.connections c hc) hw).held fun x hx => ?_
    rw [List.mem_singleton.mp hx]
    exact hc

/-- To close a resource closes it once. All else that a connection leads to is held by the world
before. -/
theorem closed_closes (hw₀ : w₀.Whole) (h : Host) (depth : Nat) {x : Resource}
    (hx : x.Rooted w₀) (hw : w₀.Recalls w) :
    Closes w₀ [x] w (w.closed (hangUpIn h (depth + 1)) x) := by
  cases x with
  | driver d => exact closes_of_log rfl rfl
  | connection c => exact hangUpIn_succ_closes hw₀ h (hangUpIn_held hw₀ h depth) hx hw

/-- To retire resources closes each of them once. -/
theorem retire_closes (hw₀ : w₀.Whole) (h : Host) (hxs : ∀ x ∈ xs, x.Rooted w₀)
    (hw : w₀.Recalls w) : Closes w₀ xs w (retire h xs w).2 := by
  induction xs generalizing w with
  | nil => exact .of_closings_eq w₀ rfl
  | cons x rest ih =>
    -- connections are followed to a depth that is one more than this, so never not at all
    have hfirst := closed_closes hw₀ h (w.remotes.size + w.robots.size)
      (hxs x List.mem_cons_self) hw
    have hquiet := closed_quiet (hangUpIn_quiet h w.depth) w x
    have hrest := ih (fun y hy => hxs y (List.mem_cons_of_mem _ hy))
      (hw.trans hquiet.extends.toRecalls)
    have hstep : (retire h (x :: rest) w).2 =
        (retire h rest (w.closed (hangUpIn h w.depth) x)).2 := by
      cases x <;> rfl
    rw [hstep]
    exact hfirst.trans hrest

end World

/-! ## Graphs -/

/-- To close a graph closes all that it holds. -/
theorem Graph.close_closes {w₀ w : World} (hw₀ : w₀.Whole) (h : Host) {g : Graph}
    (hg : ∀ x ∈ g.resources w, x.Rooted w₀) (hw : w₀.Recalls w) :
    World.Closes w₀ (g.resources w) w (g.close h w).2 := by
  have hidle := g.stopped_idle h w
  rw [close_snd]
  exact (World.Closes.of_closings_eq w₀ hidle.closings).trans (World.foldl_closes
    (World.closed_quiet (World.hangUpIn_quiet h w.depth))
    (fun x hx u hu => World.closed_closes hw₀ h (w.remotes.size + w.robots.size) (hg x hx) hu)
    (hw.trans hidle.extends.toRecalls))

end RobotHost
