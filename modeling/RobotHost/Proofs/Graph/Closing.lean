import RobotHost.Graph.Merge
import RobotHost.Proofs.Graph.Parts

/-!
# What closing does

To close a graph is to stop its processes and then to close its resources, one after the other
(`Graph.close_snd`). Whatever fails and however far connections lead, no handle comes to stand for
anything else (`Graph.close_quiet`).
-/

namespace RobotHost

namespace World

/-- The world once a resource is closed, given how to close a connection. -/
def closed (hangUp : Connection → StateM World (List CloseFailure)) (w : World) :
    Resource → World
  | .driver d => (closeDriver d w).2
  | .connection c => (hangUp c w).2

variable {hangUp : Connection → StateM World (List CloseFailure)}

theorem closeDriver_quiet (d : Ref .driver) (w : World) : w.Quiet (closeDriver d w).2 :=
  ⟨rfl, rfl, rfl, rfl, rfl, Table.size_modify _ _ _, fun _ q hq => ⟨q, hq, rfl⟩,
    [.closed d], rfl, by simp [Event.delivers?]⟩

/-- Closing a resource is quiet if hanging up is. -/
theorem closed_quiet (hhang : ∀ c (w : World), w.Quiet (hangUp c w).2) (w : World) (x : Resource) :
    w.Quiet (w.closed hangUp x) := by
  cases x with
  | driver d => exact closeDriver_quiet d w
  | connection c => exact hhang c w

theorem foldl_closed_quiet (hhang : ∀ c (w : World), w.Quiet (hangUp c w).2) (xs : List Resource)
    (w : World) : w.Quiet (xs.foldl (closed hangUp) w) := by
  induction xs generalizing w with
  | nil => exact .refl w
  | cons x rest ih => exact (closed_quiet hhang w x).trans (ih _)

end World

/-! ## Parts -/

namespace Part

variable {hangUp : Connection → StateM World (List CloseFailure)}

/-- What has to be closed of a part. -/
def resource? (w : World) (p : Part) : Option Resource :=
  (w.behind? (p.kind.slot p.handle)).map Backing.resource

/-- To close a part is to close its resource. -/
theorem closeVia_snd (p : Part) (w : World) :
    (p.closeVia hangUp w).2 = (p.resource? w).elim w (w.closed hangUp) := by
  obtain ⟨k, name, h⟩ := p
  cases k with
  | remote =>
    simp only [resource?, World.behind?, Kind.slot]
    rw [closeVia, get_bind]
    cases hr : w.remotes.get? h with
    | none => rfl
    | some remote =>
      show ((hangUp remote.connection >>= _) w).2 = _
      rw [run_bind]
      cases (hangUp remote.connection w).1 <;> rfl
  | driver k =>
    rw [closeVia, get_bind]
    cases hd : w.actual? (.driver k) h with
    | some d =>
      simp only [resource?, World.actual?_eq_some_iff.mp hd]
      rfl
    | none =>
      -- a handle without a driver stands for nothing else
      have hnone : w.behind? (Kind.slot (.driver k) h) = none := by
        cases hx : w.behind? (Kind.slot (.driver k) h) with
        | none => rfl
        | some x =>
          obtain ⟨d, rfl⟩ := World.behind?_driver hx
          rw [World.actual?_eq_some_iff.mpr hx] at hd
          cases hd
      simp only [resource?, hnone]
      rfl

theorem closeVia_quiet (hhang : ∀ c (w : World), w.Quiet (hangUp c w).2) (p : Part) (w : World) :
    w.Quiet (p.closeVia hangUp w).2 := by
  rw [closeVia_snd]
  cases p.resource? w with
  | none => exact .refl w
  | some x => exact World.closed_quiet hhang w x

/-- To close parts is to close their resources in the same order. -/
theorem closeEachVia_snd (hhang : ∀ c (w : World), w.Quiet (hangUp c w).2) (ps : List Part)
    (w : World) :
    (closeEachVia hangUp ps w).2 = (ps.filterMap (resource? w)).foldl (World.closed hangUp) w := by
  induction ps generalizing w with
  | nil => rfl
  | cons p rest ih =>
    have hquiet := closeVia_quiet hhang p w
    -- to close one part moves nothing behind the handles of the others
    have hsame : rest.filterMap (resource? (p.closeVia hangUp w).2) =
        rest.filterMap (resource? w) := by
      refine List.filterMap_congr fun q _ => ?_
      rw [resource?, resource?, hquiet.behind?_eq]
    have hstep : (closeEachVia hangUp (p :: rest) w).2 =
        (closeEachVia hangUp rest (p.closeVia hangUp w).2).2 := rfl
    rw [hstep, ih, hsame, closeVia_snd]
    cases hx : p.resource? w <;> simp [hx]

end Part

/-! ## Graphs -/

namespace Graph

/-- The resources of a graph are those of its parts. -/
theorem resources_eq (g : Graph) (w : World) :
    g.resources w = g.closingParts.filterMap (Part.resource? w) := by
  simp only [resources, keys, keysOf, closingParts, partsOf, NameMap.names, List.filterMap_flatMap,
    List.map_map, List.filterMap_map]
  congr 1
  funext k
  refine List.filterMap_congr fun e he => ?_
  have hget : (g.entries k).get? e.1 = some e.2 := (NameMap.get?_eq_some_iff _).mpr he
  simp [Function.comp, resource?, backing?, Part.resource?, hget]

/-- The world once the processes of a graph are stopped. -/
def stopped (h : Host) (g : Graph) (w : World) : World := (g.manager.stopAll h w).2

theorem stopped_idle (h : Host) (g : Graph) (w : World) : w.Idle (g.stopped h w) :=
  World.stopEach_idle h _ w

/-- In the end a graph that is closed has had its processes stopped, and then its resources closed
in their order. -/
theorem closeVia_snd {hangUp : Connection → StateM World (List CloseFailure)}
    (hhang : ∀ c (w : World), w.Quiet (hangUp c w).2) (h : Host) (g : Graph) (w : World) :
    (g.closeVia h hangUp w).2 = (g.resources w).foldl (World.closed hangUp) (g.stopped h w) := by
  have hparts : (g.closeVia h hangUp w).2 =
      (Part.closeEachVia hangUp g.closingParts (g.stopped h w)).2 := rfl
  have hsame : g.closingParts.filterMap (Part.resource? (g.stopped h w)) = g.resources w := by
    rw [resources_eq]
    refine List.filterMap_congr fun p _ => ?_
    rw [Part.resource?, Part.resource?, (g.stopped_idle h w).behind?_eq]
  rw [hparts, Part.closeEachVia_snd hhang, hsame]

theorem closeVia_quiet {hangUp : Connection → StateM World (List CloseFailure)}
    (hhang : ∀ c (w : World), w.Quiet (hangUp c w).2) (h : Host) (g : Graph) (w : World) :
    w.Quiet (g.closeVia h hangUp w).2 := by
  rw [closeVia_snd hhang]
  exact (g.stopped_idle h w).toQuiet.trans (World.foldl_closed_quiet hhang _ _)

end Graph

namespace World

theorem note_quiet {e : Event} (he : e.delivers? = none) (w : World) : w.Quiet (note e w).2 :=
  ⟨rfl, rfl, rfl, rfl, rfl, rfl, fun _ q hq => ⟨q, hq, rfl⟩, [e], rfl, by simpa using he⟩

/-- The world once a connection is closed that leads to a robot. -/
theorem hangUpIn_robot (h : Host) (depth : Nat) (r : Ref .robot) (w : World) :
    (hangUpIn h (depth + 1) (.robot r) w).2 =
      match w.robots.get? r with
      | none => (note (.hungUp (.robot r)) w).2
      | some g => (g.closeVia h (hangUpIn h depth) (note (.hungUp (.robot r)) w).2).2 := by
  rw [hangUpIn, run_bind, get_bind, show (note (.hungUp (.robot r)) w).2.robots = w.robots from rfl]
  cases w.robots.get? r <;> rfl

/-- The world once a connection is closed that passes on to a remote robot. -/
theorem hangUpIn_remote (h : Host) (depth : Nat) (r : Ref .remote) (w : World) :
    (hangUpIn h (depth + 1) (.remote r) w).2 =
      match w.remotes.get? r with
      | none => (note (.hungUp (.remote r)) w).2
      | some remote =>
        (hangUpIn h depth remote.connection (note (.hungUp (.remote r)) w).2).2 := by
  rw [hangUpIn, run_bind, get_bind,
    show (note (.hungUp (.remote r)) w).2.remotes = w.remotes from rfl]
  cases w.remotes.get? r <;> rfl

/-- Hanging up is quiet at any depth, by induction on the depth. -/
theorem hangUpIn_quiet (h : Host) (depth : Nat) (c : Connection) (w : World) :
    w.Quiet (hangUpIn h depth c w).2 := by
  -- a robot that answers closes connections of its own, for which the bound is one less
  induction depth generalizing c w with
  | zero => exact .refl w
  | succ depth ih =>
    have hnote := note_quiet (e := .hungUp c) rfl w
    cases c with
    | robot r =>
      rw [hangUpIn_robot]
      split
      · exact hnote
      · exact hnote.trans (Graph.closeVia_quiet ih h _ _)
    | remote r =>
      rw [hangUpIn_remote]
      split
      · exact hnote
      · exact hnote.trans (ih _ _)

theorem hangUp_quiet (h : Host) (c : Connection) (w : World) : w.Quiet (hangUp h c w).2 :=
  hangUpIn_quiet h w.depth c w

theorem retire_quiet (h : Host) (xs : List Resource) (w : World) : w.Quiet (retire h xs w).2 := by
  induction xs generalizing w with
  | nil => exact .refl w
  | cons x rest ih =>
    cases x with
    | driver d => exact (closeDriver_quiet d w).trans (ih _)
    | connection c => exact (hangUp_quiet h c w).trans (ih _)

end World

namespace Graph

/-- To close a graph is to stop its processes and then to close its resources in turn. -/
theorem close_snd (h : Host) (g : Graph) (w : World) :
    (g.close h w).2 =
      (g.resources w).foldl (World.closed (World.hangUpIn h w.depth)) (g.stopped h w) :=
  closeVia_snd (World.hangUpIn_quiet h w.depth) h g w

/-- Closing a graph is quiet, whatever its connections lead to. -/
theorem close_quiet (h : Host) (g : Graph) (w : World) : w.Quiet (g.close h w).2 :=
  closeVia_quiet (World.hangUpIn_quiet h w.depth) h g w

end Graph

end RobotHost
