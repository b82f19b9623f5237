import RobotHost.Handle.Basic
import RobotHost.Proofs.Sequencing
import RobotHost.Proofs.World.Extension

/-!
# New handles

A new handle takes a slot that was empty and stands for its driver from then on (`World.wrap_spec`).
Nothing else comes of it, but for a board, whose pins get handles as well. A handle made anew from
another one stands for the same driver (`World.rewrap_spec`).
-/

namespace RobotHost

/-- Handles of sensors are alike if they are of one capability, and all others are. -/
def DriverKind.Alike : (k : DriverKind) → (h h' : (Kind.driver k).Handle) → Prop
  | .sensor, h, h' => h'.capability = h.capability
  | _, _, _ => True

namespace World

/-- New handles to drivers may have come; all else is as before. -/
structure Wires (w w' : World) : Prop extends Extends w w' where
  sameDrivers : w'.drivers = w.drivers
  sameRemotes : w'.remotes = w.remotes
  sameLog : w'.log = w.log

theorem Wires.refl (w : World) : w.Wires w := ⟨.refl w, rfl, rfl, rfl⟩

theorem Wires.trans {w w' w'' : World} (h : w.Wires w') (h' : w'.Wires w'') : w.Wires w'' :=
  ⟨h.toExtends.trans h'.toExtends, h'.sameDrivers.trans h.sameDrivers,
    h'.sameRemotes.trans h.sameRemotes, h'.sameLog.trans h.sameLog⟩

/-! ## Pins -/

/-- To bring the handle of a pin in line touches handles of pins only, and none that stands in a
table to which all handles in hand are new. -/
theorem syncPin_spec (board : Ref .driver) (kind : PinKind) (name : String)
    {pins : NameMap (Ref .pinProxy)} {u : World} {base : Table .pinProxy Pin}
    (hbase : base.Keeps u.pinProxies) (hpins : ∀ n h, pins.get? n = some h → base.get? h = none) :
    ∃ t, (syncPin board kind pins name u).2 = { u with pinProxies := t } ∧ base.Keeps t ∧
      ∀ n h, (syncPin board kind pins name u).1.get? n = some h → base.get? h = none := by
  unfold syncPin
  rw [get_bind]
  cases hpin : u.pin? board kind name with
  | none =>
    refine ⟨u.pinProxies, rfl, hbase, fun n h hh => ?_⟩
    have hget : (pins.erase name).get? n = some h := hh
    rw [NameMap.get?_erase] at hget
    split at hget
    · cases hget
    · exact hpins n h hget
  | some pin =>
    -- a handle that is written is new to the table, and so is a row that is put in
    cases hold : pins.get? name with
    | some h => exact ⟨_, rfl, hbase.set (hpins name h hold) pin, hpins⟩
    | none =>
      refine ⟨_, rfl, hbase.trans (Table.keeps_push _ pin), fun n h hh => ?_⟩
      have hget : (pins.insert name u.pinProxies.next).get? n = some h := hh
      rw [NameMap.get?_insert] at hget
      split at hget
      · cases hget
        cases hnext : base.get? u.pinProxies.next with
        | none => rfl
        | some p =>
          have hsome := hbase _ _ hnext
          rw [Table.get?_next] at hsome
          cases hsome
      · exact hpins n h hget

/-- To bring handles of pins in line writes to none that was there before. -/
theorem syncPins_spec (board : Ref .driver) (kind : PinKind) (names : List String)
    {pins : NameMap (Ref .pinProxy)} {u : World} {base : Table .pinProxy Pin}
    (hbase : base.Keeps u.pinProxies) (hpins : ∀ n h, pins.get? n = some h → base.get? h = none) :
    ∃ t, (syncPins board kind pins names u).2 = { u with pinProxies := t } ∧ base.Keeps t := by
  induction names generalizing pins u with
  | nil => exact ⟨u.pinProxies, rfl, hbase⟩
  | cons name rest ih =>
    obtain ⟨t, hworld, ht, hnew⟩ := syncPin_spec board kind name hbase hpins
    have hkeeps : base.Keeps (syncPin board kind pins name u).2.pinProxies := by
      rw [hworld]
      exact ht
    obtain ⟨t', hworld', ht'⟩ := ih hkeeps hnew
    refine ⟨t', ?_, ht'⟩
    have hrest : (syncPins board kind pins (name :: rest) u).2 =
        (syncPins board kind (syncPin board kind pins name u).1 rest
          (syncPin board kind pins name u).2).2 := rfl
    rw [hrest, hworld', hworld]

/-- Whatever handles of pins are brought in line, only handles of pins are touched. -/
theorem syncPins_snd (board : Ref .driver) (kind : PinKind) (pins : NameMap (Ref .pinProxy))
    (names : List String) (u : World) :
    ∃ t, (syncPins board kind pins names u).2 = { u with pinProxies := t } := by
  have hnone : ∀ r : Ref .pinProxy, (⟨[]⟩ : Table .pinProxy Pin).get? r = none := by
    intro r
    simp [Table.get?]
  have hbase : (⟨[]⟩ : Table .pinProxy Pin).Keeps u.pinProxies := by
    intro r x hx
    rw [hnone] at hx
    cases hx
  have hpins : ∀ n h, pins.get? n = some h → (⟨[]⟩ : Table .pinProxy Pin).get? h = none :=
    fun _ h _ => hnone h
  obtain ⟨t, ht, -⟩ := syncPins_spec board kind names hbase hpins
  exact ⟨t, ht⟩

/-! ## Handles to drivers -/

/-- A handle to a driver that is put in anew. -/
theorem addProxy_spec (d : Ref .driver) (w : World) :
    w.Wires (addProxy d w).2 ∧ w.behind? (.proxy (addProxy d w).1) = none ∧
      (addProxy d w).2.behind? (.proxy (addProxy d w).1) = some (.driver d) := by
  refine ⟨⟨extends_addProxy w d, rfl, rfl, rfl⟩, ?_, ?_⟩
  · show (w.proxies.get? w.proxies.next).map Backing.driver = none
    rw [Table.get?_next, Option.map_none]
  · show ((w.proxies.push d).get? w.proxies.next).map Backing.driver = some (.driver d)
    rw [Table.get?_push, if_pos rfl, Option.map_some]

/-- A new handle to a board takes an empty slot. -/
theorem wrapBoard_spec (d : Ref .driver) (w : World) :
    w.Wires (wrapBoard d w).2 ∧ w.behind? (.boardProxy (wrapBoard d w).1) = none ∧
      (wrapBoard d w).2.behind? (.boardProxy (wrapBoard d w).1) = some (.driver d) := by
  have hempty : ∀ (n : String) (h : Ref .pinProxy),
      (NameMap.empty : NameMap (Ref .pinProxy)).get? n = some h → w.pinProxies.get? h = none := by
    intro n h hh
    cases hh
  obtain ⟨t, ht, hkeeps⟩ := syncPins_spec d .analog (w.pinNames d .analog)
    (Table.Keeps.refl w.pinProxies) hempty
  have hkeeps' : w.pinProxies.Keeps
      (syncPins d .analog .empty (w.pinNames d .analog) w).2.pinProxies := by
    rw [ht]
    exact hkeeps
  obtain ⟨t', ht', hkeeps''⟩ := syncPins_spec d .interrupt (w.pinNames d .interrupt) hkeeps'
    hempty
  -- both kinds of pins are done with before the handle of the board is put in
  have hwrap : wrapBoard d w = addBoardProxy
      ⟨d, (syncPins d .analog .empty (w.pinNames d .analog) w).1,
        (syncPins d .interrupt .empty (w.pinNames d .interrupt)
          (syncPins d .analog .empty (w.pinNames d .analog) w).2).1⟩
      (syncPins d .interrupt .empty (w.pinNames d .interrupt)
        (syncPins d .analog .empty (w.pinNames d .analog) w).2).2 := rfl
  rw [hwrap, ht', ht]
  generalize (syncPins d .analog .empty (w.pinNames d .analog) w).1 = analogs
  generalize (syncPins d .interrupt .empty (w.pinNames d .interrupt) _).1 = interrupts
  refine ⟨⟨extends_of_keeps (.refl _) (Table.keeps_push _ _) hkeeps'' (.refl _) rfl
    (Nat.le_refl _) (.refl _) (List.prefix_refl _), rfl, rfl, rfl⟩, ?_, ?_⟩
  · show (w.boardProxies.get? w.boardProxies.next).map _ = none
    rw [Table.get?_next, Option.map_none]
  · show ((w.boardProxies.push ⟨d, analogs, interrupts⟩).get? w.boardProxies.next).map _ = _
    rw [Table.get?_push, if_pos rfl, Option.map_some]

/-- A new handle takes a slot that was empty and stands for its driver. -/
theorem wrap_spec (d : Ref .driver) (k : DriverKind) (w : World) :
    w.Wires (wrap d k w).2 ∧ w.behind? (Kind.slot (.driver k) (wrap d k w).1) = none ∧
      (wrap d k w).2.behind? (Kind.slot (.driver k) (wrap d k w).1) = some (.driver d) := by
  cases k with
  | board => exact wrapBoard_spec d w
  | sensor => exact addProxy_spec d w
  | part p => exact addProxy_spec d w

/-- No handle is made anew from one that stands for nothing. -/
theorem rewrap_of_empty {w : World} {k : DriverKind} {h : (Kind.driver k).Handle}
    (hempty : w.behind? (Kind.slot (.driver k) h) = none) : rewrap k h w = (none, w) := by
  have hactual : w.actual? (.driver k) h = none := by
    cases hd : w.actual? (.driver k) h with
    | none => rfl
    | some d =>
      rw [actual?_eq_some_iff.mp hd] at hempty
      cases hempty
  -- each kind of handle is looked up in its own table
  cases k with
  | board =>
    rw [rewrap, get_bind, hactual]
    rfl
  | sensor =>
    have hget : w.proxies.get? h.proxy = none := hactual
    rw [rewrap, get_bind, hget]
    rfl
  | part p =>
    have hget : w.proxies.get? h = none := hactual
    rw [rewrap, get_bind, hget]
    rfl

/-- A new handle stands for whatever another stands for. -/
structure Copies (w w' : World) (k : DriverKind) (h h' : (Kind.driver k).Handle) : Prop where
  fresh : w.behind? (Kind.slot (.driver k) h') = none
  behind : ∀ x, w.behind? (Kind.slot (.driver k) h) = some x →
    w'.behind? (Kind.slot (.driver k) h') = some x
  alike : k.Alike h h'

/-- A handle that is new later was new before, and goes on standing for what it stands for. -/
theorem Copies.mono {u v w w' : World} {k : DriverKind} {h h' : (Kind.driver k).Handle}
    (hc : Copies v w k h h') (hu : u.Recalls v) (hw : w.Recalls w') : Copies u w' k h h' where
  fresh := hu.empty hc.fresh
  behind := fun x hx => hw.behind _ _ (hc.behind x (hu.behind _ _ hx))
  alike := hc.alike

/-- A handle made anew takes a slot that was empty and stands for the driver of the other. -/
theorem rewrap_spec {w : World} {k : DriverKind} {h : (Kind.driver k).Handle} {d : Ref .driver}
    (hd : w.behind? (Kind.slot (.driver k) h) = some (.driver d)) :
    ∃ h', (rewrap k h w).1 = some h' ∧ w.Wires (rewrap k h w).2 ∧
      Copies w (rewrap k h w).2 k h h' := by
  have hactual := actual?_eq_some_iff.mpr hd
  -- the new handle was wrapped around the driver that the other stands for
  have hcopies : ∀ {w' : World} (h' : (Kind.driver k).Handle), k.Alike h h' →
      (w.Wires w' ∧ w.behind? (Kind.slot (.driver k) h') = none ∧
        w'.behind? (Kind.slot (.driver k) h') = some (.driver d)) →
      w.Wires w' ∧ Copies w w' k h h' := by
    rintro w' h' halike ⟨hwires, hempty, hbehind⟩
    refine ⟨hwires, hempty, fun x hx => ?_, halike⟩
    rw [hd] at hx
    cases hx
    exact hbehind
  cases k with
  | board =>
    have hstep : rewrap .board h w =
        (do let h ← wrapBoard d; return some h : StateM World _) w := by
      rw [rewrap, get_bind, hactual]
    rw [hstep]
    exact ⟨(wrapBoard d w).1, rfl, hcopies _ trivial (wrapBoard_spec d w)⟩
  | sensor =>
    have hget : w.proxies.get? h.proxy = some d := hactual
    have hstep : rewrap .sensor h w =
        (do let proxy ← addProxy d; return some ⟨h.capability, proxy⟩ : StateM World _) w := by
      rw [rewrap, get_bind, hget]
    rw [hstep]
    exact ⟨⟨h.capability, (addProxy d w).1⟩, rfl,
      hcopies ⟨h.capability, (addProxy d w).1⟩ rfl (addProxy_spec d w)⟩
  | part p =>
    have hget : w.proxies.get? h = some d := hactual
    have hstep : rewrap (.part p) h w =
        (do let h ← addProxy d; return some h : StateM World _) w := by
      rw [rewrap, get_bind, hget]
    rw [hstep]
    exact ⟨(addProxy d w).1, rfl, hcopies _ trivial (addProxy_spec d w)⟩

/-- To copy a handle adds handles to drivers, and nothing else. -/
theorem rewrap_wires (k : DriverKind) (h : (Kind.driver k).Handle) (w : World) :
    w.Wires (rewrap k h w).2 := by
  cases hx : w.behind? (Kind.slot (.driver k) h) with
  | none =>
    rw [rewrap_of_empty hx]
    exact .refl w
  | some x =>
    obtain ⟨d, rfl⟩ := behind?_driver hx
    obtain ⟨_, -, hwires, -⟩ := rewrap_spec hx
    exact hwires

end World

end RobotHost
