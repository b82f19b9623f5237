import RobotHost.Proofs.Handle.Wrapping

/-!
# Exchanges behind handles

Whatever the kind of a handle, an exchange puts something else into its slot and leaves all other
slots as they are (`World.Puts`). The answer is what was there before, if it is another.

A board brings its pins along; this touches handles of pins only, and these have no slot.
-/

namespace RobotHost

namespace World

/-- Something comes into a slot; the rest of what a robot sees of the world is as before. -/
structure Puts (s : Slot) (x : Backing) (w w' : World) : Prop where
  behind : w'.behind? s = some x
  others : ∀ t, t ≠ s → w'.behind? t = w.behind? t
  drivers : w'.drivers = w.drivers
  robots : w'.robots = w.robots
  processes : w'.processes = w.processes
  log : w'.log = w.log

/-- To set the handle of a driver is to put something into its slot. -/
theorem puts_proxy {w : World} {h : Ref .proxy} {d next : Ref .driver}
    (hd : w.proxies.get? h = some d) :
    Puts (.proxy h) (.driver next) w { w with proxies := w.proxies.set h next } where
  behind := by
    show ((w.proxies.set h next).get? h).map _ = _
    rw [Table.get?_set, if_pos rfl, hd, Option.map_some, Option.map_some]
  others := by
    intro t ht
    cases t with
    | proxy q =>
      have hq : h ≠ q := fun heq => ht (by rw [heq])
      show ((w.proxies.set h next).get? q).map _ = _
      rw [Table.get?_set, if_neg hq]
      rfl
    | boardProxy q => rfl
    | remote q => rfl
  drivers := rfl
  robots := rfl
  processes := rfl
  log := rfl

theorem puts_boardProxy {w : World} {h : Ref .boardProxy} {b : BoardProxy}
    (hb : w.boardProxies.get? h = some b) (next : Ref .driver)
    (analogs interrupts : NameMap (Ref .pinProxy)) (pins : Table .pinProxy Pin) :
    Puts (.boardProxy h) (.driver next) w { w with
      pinProxies := pins
      boardProxies := w.boardProxies.set h ⟨next, analogs, interrupts⟩ } where
  behind := by
    show ((w.boardProxies.set h ⟨next, analogs, interrupts⟩).get? h).map _ = _
    rw [Table.get?_set, if_pos rfl, hb, Option.map_some, Option.map_some]
  others := by
    intro t ht
    -- only a slot of the same sort could be the one that is written
    cases t with
    | proxy q => rfl
    | boardProxy q =>
      have hq : h ≠ q := fun heq => ht (by rw [heq])
      show ((w.boardProxies.set h ⟨next, analogs, interrupts⟩).get? q).map _ = _
      rw [Table.get?_set, if_neg hq]
      rfl
    | remote q => rfl
  drivers := rfl
  robots := rfl
  processes := rfl
  log := rfl

theorem puts_remote {w : World} {h : Ref .remote} {old next : Remote}
    (hold : w.remotes.get? h = some old) :
    Puts (.remote h) (.remote next) w { w with remotes := w.remotes.set h next } where
  behind := by
    show ((w.remotes.set h next).get? h).map _ = _
    rw [Table.get?_set, if_pos rfl, hold, Option.map_some, Option.map_some]
  others := by
    intro t ht
    cases t with
    | proxy q => rfl
    | boardProxy q => rfl
    | remote q =>
      have hq : h ≠ q := fun heq => ht (by rw [heq])
      show ((w.remotes.set h next).get? q).map _ = _
      rw [Table.get?_set, if_neg hq]
      rfl
  drivers := rfl
  robots := rfl
  processes := rfl
  log := rfl

/-! ## One kind of handle after the other -/

/-- A driver that is replaced is handed back, unless it is the new one. -/
theorem replaceDriver_spec {w : World} {h : Ref .proxy} {d : Ref .driver}
    (hd : w.proxies.get? h = some d) (next : Ref .driver) :
    (replaceDriver h next w).1 = (if d = next then none else some d) ∧
      Puts (.proxy h) (.driver next) w (replaceDriver h next w).2 := by
  have hstep : replaceDriver h next w =
      (if d = next then none else some d, { w with proxies := w.proxies.set h next }) := by
    unfold replaceDriver
    rw [get_bind, hd]
    rfl
  rw [hstep]
  exact ⟨rfl, puts_proxy hd⟩

/-- A sensor is replaced by what stands behind the other handle, which has the same capability. -/
theorem replaceSensor_spec {w : World} {h next : SensorHandle} {d e : Ref .driver}
    (hcapability : h.capability = next.capability) (hd : w.proxies.get? h.proxy = some d)
    (he : w.proxies.get? next.proxy = some e) :
    (replaceSensor h next w).1 = (if d = e then none else some d) ∧
      Puts (.proxy h.proxy) (.driver e) w (replaceSensor h next w).2 := by
  have hstep : replaceSensor h next w = replaceDriver h.proxy e w := by
    unfold replaceSensor
    rw [if_neg (fun hne => hne hcapability), get_bind, he]
  rw [hstep]
  exact replaceDriver_spec hd e

/-- Of a remote robot that is replaced the connection is handed back. -/
theorem replaceRemote_spec {w : World} {h next : Ref .remote} {old new : Remote}
    (hold : w.remotes.get? h = some old) (hnew : w.remotes.get? next = some new) :
    (replaceRemote h next w).1 =
        (if old.connection = new.connection then none else some old.connection) ∧
      Puts (.remote h) (.remote new) w (replaceRemote h next w).2 := by
  have hstep : replaceRemote h next w =
      (if old.connection = new.connection then none else some old.connection,
        { w with remotes := w.remotes.set h new }) := by
    unfold replaceRemote
    rw [get_bind, get_bind, hold, hnew]
    rfl
  rw [hstep]
  exact ⟨rfl, puts_remote hold⟩

/-- A board is put behind a handle, whatever becomes of its pins. -/
theorem rebindBoard_spec {w : World} {h : Ref .boardProxy} {b : BoardProxy}
    (hb : w.boardProxies.get? h = some b) (next : Ref .driver) (plan : PinKind → PinPlan) :
    Puts (.boardProxy h) (.driver next) w (rebindBoard h b next plan w).2 := by
  obtain ⟨t, ht⟩ : ∃ t, (applyPlan next .analog b.analogs (plan .analog) w).2 =
      { w with pinProxies := t } := syncPins_snd _ _ _ _ _
  obtain ⟨t', ht'⟩ : ∃ t', (applyPlan next .interrupt b.interrupts (plan .interrupt)
      { w with pinProxies := t }).2 = { w with pinProxies := t' } := syncPins_snd _ _ _ _ _
  have hstep : (rebindBoard h b next plan w).2 =
      (fun u : World => { u with boardProxies := u.boardProxies.set h ⟨next,
        (applyPlan next .analog b.analogs (plan .analog) w).1,
        (applyPlan next .interrupt b.interrupts (plan .interrupt)
          (applyPlan next .analog b.analogs (plan .analog) w).2).1⟩ })
      (applyPlan next .interrupt b.interrupts (plan .interrupt)
        (applyPlan next .analog b.analogs (plan .analog) w).2).2 := rfl
  rw [hstep, ht, ht']
  exact puts_boardProxy hb next _ _ t'

/-- A board that is replaced as a whole is handed back, unless it is the new one. -/
theorem replaceBoard_spec {w : World} {h : Ref .boardProxy} {b : BoardProxy}
    (hb : w.boardProxies.get? h = some b) (next : Ref .driver) :
    (replaceBoard h next w).1 = (if b.actual = next then none else some b.actual) ∧
      Puts (.boardProxy h) (.driver next) w (replaceBoard h next w).2 := by
  have hstep : replaceBoard h next w =
      (if b.actual = next then none else some b.actual, (rebindBoard h b next (fun kind =>
        .ofBoard (b.pins kind).names (w.pinNames next kind)) w).2) := by
    unfold replaceBoard
    rw [get_bind, hb]
    rfl
  have hspec := rebindBoard_spec hb next fun kind =>
    .ofBoard (b.pins kind).names (w.pinNames next kind)
  rw [hstep]
  exact ⟨rfl, hspec⟩

theorem mergeBoard_spec {w : World} {h : Ref .boardProxy} {b : BoardProxy}
    (hb : w.boardProxies.get? h = some b) (next : Ref .driver) (diff : BoardConfigDiff) :
    (mergeBoard h next diff w).1 = (if b.actual = next then none else some b.actual) ∧
      Puts (.boardProxy h) (.driver next) w (mergeBoard h next diff w).2 := by
  have hstep : mergeBoard h next diff w =
      (if b.actual = next then none else some b.actual, (rebindBoard h b next (fun kind =>
        .ofChanges (b.pins kind).names (diff.changes kind)) w).2) := by
    unfold mergeBoard
    rw [get_bind, hb]
    rfl
  have hspec := rebindBoard_spec hb next fun kind =>
    .ofChanges (b.pins kind).names (diff.changes kind)
  rw [hstep]
  exact ⟨rfl, hspec⟩

end World

end RobotHost
