import RobotHost.Proofs.Graph.Closing
import RobotHost.Proofs.Handle.Exchanging

/-!
# Exchanging running parts

A graph takes over from another what stands behind its handles, key by key. Each key that both have
makes an `Exchange`. The exchanges are planned while the merge can still fail and carried out later,
one after the other; as no handle is the source of one and the target of another, each finds what was
planned (`Swap.commitEach_spec`).
-/

namespace RobotHost

/-- However a board is exchanged, the new one comes behind the handle. -/
theorem Swap.commit_board (boards : NameMap BoardConfigDiff) (name : String) {w : World}
    {live : Ref .boardProxy} {b : BoardProxy} (hb : w.boardProxies.get? live = some b)
    (next : Ref .driver) :
    ((Swap.board name live next).commit boards w).1 =
        (if b.actual = next then none else some b.actual).map .driver ∧
      World.Puts (.boardProxy live) (.driver next) w
        ((Swap.board name live next).commit boards w).2 := by
  -- without a diff the handles of pins follow the new board, with a diff they follow the diff
  cases hdiff : boards.get? name with
  | none =>
    obtain ⟨hfst, hputs⟩ := World.replaceBoard_spec hb next
    have hstep : (Swap.board name live next).commit boards w =
        ((World.replaceBoard live next w).1.map .driver, (World.replaceBoard live next w).2) := by
      rw [Swap.commit, hdiff]
      rfl
    rw [hstep, ← hfst]
    exact ⟨rfl, hputs⟩
  | some diff =>
    obtain ⟨hfst, hputs⟩ := World.mergeBoard_spec hb next diff
    have hstep : (Swap.board name live next).commit boards w =
        ((World.mergeBoard live next diff w).1.map .driver,
          (World.mergeBoard live next diff w).2) := by
      rw [Swap.commit, hdiff]
      rfl
    rw [hstep, ← hfst]
    exact ⟨rfl, hputs⟩

/-- What stands behind one handle comes behind another of its kind. -/
structure Exchange where
  kind : Kind
  name : String
  live : kind.Handle
  next : kind.Handle

namespace Exchange

/-- Where the exchange puts something. -/
def target (x : Exchange) : Slot := x.kind.slot x.live

/-- Where it finds it. -/
def source (x : Exchange) : Slot := x.kind.slot x.next

def plan? (w : World) (x : Exchange) : Option Swap := Swap.plan? w x.kind x.name x.live x.next

/-- Sensors are exchanged only between handles of one capability. -/
def Fits : Exchange → Prop
  | ⟨.driver .sensor, _, live, next⟩ => live.capability = next.capability
  | _ => True

/-- What has to be closed once the exchange is done: what was there before, if it is another. -/
def retired? (w : World) (x : Exchange) : Option Resource :=
  match w.behind? x.target, w.behind? x.source with
  | some old, some new => if old.resource = new.resource then none else some old.resource
  | _, _ => none

/-- A swap that was planned for an exchange does what the exchange says. -/
theorem commit_spec (boards : NameMap BoardConfigDiff) {w₀ w : World} {x : Exchange}
    {old new : Backing} (hfits : x.Fits) (hold : w.behind? x.target = some old)
    (hnew : w.behind? x.source = some new) (hplanned : w₀.behind? x.source = some new) :
    ∃ s, x.plan? w₀ = some s ∧
      (s.commit boards w).1 =
        (if old.resource = new.resource then none else some old.resource) ∧
      World.Puts x.target new w (s.commit boards w).2 := by
  obtain ⟨k, name, live, next⟩ := x
  match k with
  | .remote =>
    obtain ⟨a, ha, rfl⟩ := World.behind?_remote.mp hold
    obtain ⟨b, hb, rfl⟩ := World.behind?_remote.mp hnew
    obtain ⟨hfst, hputs⟩ := World.replaceRemote_spec ha hb
    refine ⟨.remote live next, rfl, ?_, hputs⟩
    show (World.replaceRemote live next w).1.map Resource.connection = _
    rw [hfst]
    simp only [Backing.resource, Resource.connection.injEq]
    split <;> rfl
  | .driver k =>
    obtain ⟨d, rfl⟩ := World.behind?_driver hold
    obtain ⟨e, rfl⟩ := World.behind?_driver hnew
    -- drivers differ as resources if they differ as drivers
    have hretired : ∀ answer : Option (Ref .driver), answer = (if d = e then none else some d) →
        answer.map Resource.driver = if (Backing.driver d).resource = (Backing.driver e).resource
          then none else some (Backing.driver d).resource := by
      rintro _ rfl
      simp only [Backing.resource, Resource.driver.injEq]
      split <;> rfl
    have hactual : w₀.actual? (.driver k) next = some e := World.actual?_eq_some_iff.mpr hplanned
    match k with
    | .board =>
      obtain ⟨b, hb, heq⟩ := Option.map_eq_some_iff.mp hold
      cases heq
      obtain ⟨hfst, hputs⟩ := Swap.commit_board boards name hb e
      exact ⟨.board name live e, by rw [plan?, Swap.plan?, hactual, Option.map_some],
        hfst.trans (hretired _ rfl), hputs⟩
    | .sensor =>
      obtain ⟨d', hd, heq⟩ := Option.map_eq_some_iff.mp hold
      cases heq
      obtain ⟨e', he, heq⟩ := Option.map_eq_some_iff.mp hnew
      cases heq
      obtain ⟨hfst, hputs⟩ := World.replaceSensor_spec hfits hd he
      exact ⟨.sensor live next, rfl, hretired _ hfst, hputs⟩
    | .part p =>
      obtain ⟨d', hd, heq⟩ := Option.map_eq_some_iff.mp hold
      cases heq
      obtain ⟨hfst, hputs⟩ := World.replaceDriver_spec hd e
      exact ⟨.part live e, by rw [plan?, Swap.plan?, hactual, Option.map_some],
        hretired _ hfst, hputs⟩

end Exchange

/-! ## One exchange after the other -/

/-- All exchanges of a list are done, and nothing else. -/
structure Exchanged (xs : List Exchange) (w w' : World) : Prop where
  behind : ∀ x ∈ xs, w'.behind? x.target = w.behind? x.source
  others : ∀ s, (∀ x ∈ xs, s ≠ x.target) → w'.behind? s = w.behind? s
  drivers : w'.drivers = w.drivers
  robots : w'.robots = w.robots
  processes : w'.processes = w.processes
  log : w'.log = w.log

/-- Handles that are not exchanged go on as they were. -/
theorem Exchanged.recalls {xs : List Exchange} {w₀ w w' : World} (h : Exchanged xs w w')
    (hw : w₀.Recalls w) (hsafe : ∀ x ∈ xs, w₀.behind? x.target = none) : w₀.Recalls w' where
  behind := by
    intro s y hy
    -- what the earlier world knows is in none of the slots that are written
    have hs : ∀ x ∈ xs, s ≠ x.target := by
      rintro x hx rfl
      rw [hsafe x hx] at hy
      cases hy
    rw [h.others s hs]
    exact hw.behind s y hy
  robots := h.robots.trans hw.robots
  drivers := by
    rw [h.drivers]
    exact hw.drivers
  processes := by
    rw [h.processes]
    exact hw.processes
  log := by
    rw [h.log]
    exact hw.log

/-- Exchanges of parts that stand for something, none of which gets in the way of another. -/
structure Exchangeable (w₀ w : World) (xs : List Exchange) : Prop where
  distinct : xs.Pairwise fun x y => x.target ≠ y.target
  apart : ∀ x ∈ xs, ∀ y ∈ xs, x.target = y.source → x = y
  fits : ∀ x ∈ xs, x.Fits
  targets : ∀ x ∈ xs, ∃ old, w.behind? x.target = some old
  sources : ∀ x ∈ xs, ∃ new, w.behind? x.source = some new ∧ w₀.behind? x.source = some new

/-- The first exchange puts nothing where a later one looks. -/
theorem Exchangeable.source_ne {w₀ w : World} {x : Exchange} {xs : List Exchange}
    (h : Exchangeable w₀ w (x :: xs)) {y : Exchange} (hy : y ∈ xs) : y.source ≠ x.target := by
  intro heq
  obtain rfl := h.apart x List.mem_cons_self y (List.mem_cons_of_mem _ hy) heq.symm
  exact (List.pairwise_cons.mp h.distinct).1 x hy rfl

/-- The exchanges after the first can be done once the first is. -/
theorem Exchangeable.tail {w₀ w w' : World} {x : Exchange} {xs : List Exchange}
    (h : Exchangeable w₀ w (x :: xs)) (hothers : ∀ t, t ≠ x.target → w'.behind? t = w.behind? t) :
    Exchangeable w₀ w' xs where
  distinct := (List.pairwise_cons.mp h.distinct).2
  apart := fun y hy z hz => h.apart y (List.mem_cons_of_mem _ hy) z (List.mem_cons_of_mem _ hz)
  fits := fun y hy => h.fits y (List.mem_cons_of_mem _ hy)
  targets := by
    intro y hy
    rw [hothers _ ((List.pairwise_cons.mp h.distinct).1 y hy).symm]
    exact h.targets y (List.mem_cons_of_mem _ hy)
  sources := by
    intro y hy
    rw [hothers _ (h.source_ne hy)]
    exact h.sources y (List.mem_cons_of_mem _ hy)

/-- Swaps that are planned beforehand do all exchanges, as none reads what another has written, and
tell what is retired. -/
theorem Swap.commitEach_spec (boards : NameMap BoardConfigDiff) {w₀ w : World}
    {xs : List Exchange} (h : Exchangeable w₀ w xs) :
    (commitEach boards (xs.filterMap (Exchange.plan? w₀)) w).1 =
        xs.filterMap (Exchange.retired? w) ∧
      Exchanged xs w (commitEach boards (xs.filterMap (Exchange.plan? w₀)) w).2 := by
  induction xs generalizing w with
  | nil => exact ⟨rfl, by simp, fun _ _ => rfl, rfl, rfl, rfl, rfl⟩
  | cons x rest ih =>
    obtain ⟨old, hold⟩ := h.targets x List.mem_cons_self
    obtain ⟨new, hnew, hplanned⟩ := h.sources x List.mem_cons_self
    obtain ⟨s, hs, hretired, hputs⟩ :=
      Exchange.commit_spec boards (h.fits x List.mem_cons_self) hold hnew hplanned
    -- the first exchange finds what was planned; the rest can be done after it
    obtain ⟨hothers, hrest⟩ := ih (h.tail hputs.others)
    have hstep : commitEach boards ((x :: rest).filterMap (Exchange.plan? w₀)) w =
        ((s.commit boards w).1.toList ++
          (commitEach boards (rest.filterMap (Exchange.plan? w₀)) (s.commit boards w).2).1,
          (commitEach boards (rest.filterMap (Exchange.plan? w₀)) (s.commit boards w).2).2) := by
      rw [List.filterMap_cons_some hs]
      rfl
    -- nothing of what the other exchanges are about is touched by the first
    have hsame : rest.filterMap (Exchange.retired? (s.commit boards w).2) =
        rest.filterMap (Exchange.retired? w) := by
      refine List.filterMap_congr fun y hy => ?_
      rw [Exchange.retired?, Exchange.retired?,
        hputs.others _ ((List.pairwise_cons.mp h.distinct).1 y hy).symm,
        hputs.others _ (h.source_ne hy)]
    rw [hstep]
    refine ⟨?_, ?_, ?_, hrest.drivers.trans hputs.drivers, hrest.robots.trans hputs.robots,
      hrest.processes.trans hputs.processes, hrest.log.trans hputs.log⟩
    · have hfirst : x.retired? w = (s.commit boards w).1 := by
        rw [hretired, Exchange.retired?, hold, hnew]
      show (s.commit boards w).1.toList ++ _ = _
      rw [hothers, hsame, List.filterMap_cons, hfirst]
      cases (s.commit boards w).1 <;> rfl
    · intro y hy
      show World.behind? _ y.target = _
      rcases List.mem_cons.mp hy with rfl | hy
      · rw [hrest.others _ (List.pairwise_cons.mp h.distinct).1, hputs.behind, hnew]
      · rw [hrest.behind y hy, hputs.others _ (h.source_ne hy)]
    · intro t ht
      show World.behind? _ t = _
      rw [hrest.others t fun y hy => ht y (List.mem_cons_of_mem _ hy),
        hputs.others t (ht x List.mem_cons_self)]

end RobotHost
