import RobotHost.Proofs.Graph.Building
import RobotHost.Proofs.Graph.Disposal

/-!
# What an environment issues

An environment is *fresh* if all that it gives out is new: it was not delivered before, and nobody
has it (`Environment.Fresh`). Then the resources that a run has delivered are distinct, and none is
held by the world that the run began in (`World.Issued`). Each delivery of a build adds one of them,
and nothing else that happens adds any (`Progress.issued`).
-/

namespace RobotHost

/-- A resource that was not delivered before, that nobody had in the world `w₀`, and that does not
lead to anything that came later. A connection that passes on to a remote robot made since then is
not new: it stands for the connection which that robot was given. -/
def World.New (w₀ w : World) (x : Resource) : Prop :=
  x ∉ w.delivered ∧ ¬w₀.Holds x ∧ x.Rooted w₀

/-- From the world `w₀` on, each answer is a new driver or a new connection. -/
structure Environment.Fresh (env : Environment) (w₀ : World) : Prop where
  factory : ∀ w b d, w₀.Recalls w → env.factory w b = .ok (.existing d) →
    d.index < w.drivers.size ∧ w₀.New w (.driver d)
  connector : ∀ w address c, w₀.Recalls w → env.connector w address = .ok c →
    w₀.New w (.connection c)

/-- The resources that were delivered since the world `w₀`. -/
structure World.Issued (w₀ w : World) (ds : List Resource) : Prop where
  recalls : w₀.Recalls w
  delivered : w.delivered = w₀.delivered ++ ds
  distinct : ds.Nodup
  own : ∀ x ∈ ds, ¬w₀.Holds x
  rooted : ∀ x ∈ ds, x.Rooted w₀
  known : ∀ d, .driver d ∈ ds → d.index < w.drivers.size

namespace World.Issued

variable {env : Environment} {w₀ w w' : World} {ds : List Resource}

theorem refl (w₀ : World) : Issued w₀ w₀ [] where
  recalls := .refl w₀
  delivered := by rw [List.append_nil]
  distinct := .nil
  own := by simp
  rooted := by simp
  known := by simp

/-- Where nothing is delivered, nothing more is issued. -/
theorem unchanged (h : Issued w₀ w ds) (hw : w₀.Recalls w')
    (hlogs : Logs (fun e => e.delivers? = none) w w')
    (hdrivers : w.drivers.size ≤ w'.drivers.size) : Issued w₀ w' ds where
  recalls := hw
  delivered := hlogs.delivered.trans h.delivered
  distinct := h.distinct
  own := h.own
  rooted := h.rooted
  known := fun d hd => Nat.lt_of_lt_of_le (h.known d hd) hdrivers

/-- A step that recalls the world and delivers nothing issues nothing. -/
theorem recalled (h : Issued w₀ w ds) (hw : w.Recalls w')
    (hlogs : Logs (fun e => e.delivers? = none) w w') : Issued w₀ w' ds :=
  h.unchanged (h.recalls.trans hw) hlogs hw.drivers

/-- A resource that is none of those issued before. -/
theorem deliver (h : Issued w₀ w ds) {e : Event} {x : Resource} (hw : w.Recalls w')
    (hlog : w'.log = w.log ++ [e]) (he : e.delivers? = some x) (hx : x ∉ ds)
    (hown : ¬w₀.Holds x) (hrooted : x.Rooted w₀)
    (hknown : ∀ d, x = .driver d → d.index < w'.drivers.size) : Issued w₀ w' (ds ++ [x]) where
  recalls := h.recalls.trans hw
  delivered := by rw [delivered_of_log hlog he, h.delivered, List.append_assoc]
  distinct := by
    refine List.nodup_append.mpr ⟨h.distinct, List.nodup_singleton x, fun y hy z hz heq => hx ?_⟩
    rw [← List.mem_singleton.mp hz, ← heq]
    exact hy
  own := by
    intro y hy
    rcases List.mem_append.mp hy with hy | hy
    · exact h.own y hy
    · rw [List.mem_singleton.mp hy]
      exact hown
  rooted := by
    intro y hy
    rcases List.mem_append.mp hy with hy | hy
    · exact h.rooted y hy
    · rw [List.mem_singleton.mp hy]
      exact hrooted
  known := by
    intro d hd
    rcases List.mem_append.mp hd with hd | hd
    · exact Nat.lt_of_lt_of_le (h.known d hd) hw.drivers
    · exact hknown d (List.mem_singleton.mp hd).symm

/-- What is new was not issued. -/
theorem not_mem_of_new (h : Issued w₀ w ds) {x : Resource} (hx : w₀.New w x) : x ∉ ds := by
  intro hmem
  refine hx.1 ?_
  rw [h.delivered]
  exact List.mem_append_right _ hmem

end World.Issued

/-- A delivery of a fresh environment issues one resource more. -/
theorem Delivered.issued {env : Environment} {w₀ : World} (hw₀ : w₀.Whole) (henv : env.Fresh w₀)
    {ds : List Resource} {x : Delivery} {s s' : Site} (hs : w₀.Issued s.world ds)
    (h : Delivered env s x s') : w₀.Issued s'.world (ds ++ [x.resource]) := by
  have hdeliver := hs.deliver h.world.toRecalls h.log x.delivers?_event
  have hanswer := h.answer
  cases x with
  | remote c connection =>
    have hnew := henv.connector s.world c.address connection hs.recalls hanswer
    exact hdeliver (hs.not_mem_of_new hnew) hnew.2.1 hnew.2.2 fun d hd => by cases hd
  | driver name b d =>
    rcases hanswer with hold | ⟨new, -, rfl, hsize⟩
    · obtain ⟨hindex, hnew⟩ := henv.factory s.world b d hs.recalls hold
      refine hdeliver (hs.not_mem_of_new hnew) hnew.2.1 trivial fun d' hd' => ?_
      cases hd'
      exact Nat.lt_of_lt_of_le hindex h.world.drivers
    · -- the number of a driver that was just made is beyond all others
      refine hdeliver (fun hmem => Nat.lt_irrefl _ (hs.known _ hmem)) (fun hheld => ?_) trivial
        fun d' hd' => ?_
      · have hold := hw₀.drivers _ hheld
        exact Nat.lt_irrefl _ (Nat.lt_of_lt_of_le hold hs.recalls.drivers)
      · cases hd'
        exact hsize

/-- A build in a fresh environment issues what it has delivered. -/
theorem Progress.issued {env : Environment} {w₀ w : World} (hw₀ : w₀.Whole) (henv : env.Fresh w₀)
    {ds : List Resource} (hw : w₀.Issued w ds) {xs : List Delivery} {s : Site}
    (h : Progress env w xs s) : w₀.Issued s.world (ds ++ xs.map Delivery.resource) := by
  induction h with
  | staffed h =>
    have hlogs := h.log.mono fun _ he => he.plain.delivers
    rw [List.map_nil, List.append_nil]
    exact hw.recalled h.world.toRecalls hlogs
  | delivered _ h ih =>
    rw [List.map_append, ← List.append_assoc]
    exact h.issued hw₀ henv ih
  | refused _ h ih => exact ih.recalled h.world.toRecalls (h.log.mono fun _ he => he.delivers)
  | named _ _ ih => exact ih

end RobotHost
