import Mathlib.Logic.Relation
import RobotHost.Proofs.Handle.Syncing

/-!
# Pins follow their board

Over any run of exchanges, wholesale or by diffs that need not fit the boards, a handle to a board
lists only pins that the board behind it provides, and each listed handle stands for what that board
gives for the name (`World.pins_follow_board`). A handle stays listed under its name as long as each
exchange keeps the name. Once an exchange drops the name, the handle is listed nowhere any more and
stands for its last pin for good; whatever is listed under the name later is a new handle.

The invariant is `World.Wiring`. One exchange does what `World.Rewires` says, a new handle to a board
included, and from this comes what holds over runs of any length.
-/

namespace RobotHost

namespace World

/-! ## Exchanges of a board -/

/-- How the board behind a handle is exchanged: as a whole, or by a diff. -/
inductive Rewiring where
  | replace
  | merge (diff : BoardConfigDiff)

namespace Rewiring

/-- Puts a board behind a handle. -/
def run (h : Ref .boardProxy) (next : Ref .driver) :
    Rewiring → StateM World (Option (Ref .driver))
  | replace => replaceBoard h next
  | merge diff => mergeBoard h next diff

/-- The names that lose their handles whatever the new board provides. -/
def drops : Rewiring → PinKind → List String
  | replace, _ => []
  | merge diff, kind => (diff.changes kind).removed

/-- What it plans for the handles of a kind of pin. -/
def plan (current provided : List String) (kind : PinKind) : Rewiring → PinPlan
  | replace => .ofBoard current provided
  | merge diff => .ofChanges current (diff.changes kind)

variable {x : Rewiring} {current provided : List String} {kind : PinKind} {name : String}

/-- A name that has a handle is dropped or brought in line. -/
theorem planned (hname : name ∈ current) :
    name ∈ (x.plan current provided kind).dropped ∨
      name ∈ (x.plan current provided kind).synced := by
  cases x with
  | replace =>
    by_cases h : name ∈ provided
    · exact .inr h
    · exact .inl (List.mem_filter.mpr ⟨hname, decide_eq_true h⟩)
  | merge diff =>
    by_cases h : name ∈ (diff.changes kind).removed
    · exact .inl h
    · exact .inr (PinPlan.mem_synced_ofChanges.mpr (.inl ⟨hname, h⟩))

theorem dropped_of_drops (h : name ∈ x.drops kind) :
    name ∈ (x.plan current provided kind).dropped := by
  cases x with
  | replace => exact absurd h List.not_mem_nil
  | merge diff => exact h

/-- A name that the new board provides is dropped only if the exchange says so. -/
theorem drops_of_dropped (h : name ∈ (x.plan current provided kind).dropped)
    (hname : name ∈ provided) : name ∈ x.drops kind := by
  cases x with
  | replace => exact absurd hname (of_decide_eq_true (List.mem_filter.mp h).2)
  | merge diff => exact h

end Rewiring

variable {w w' : World} {h : Ref .boardProxy} {b b' : BoardProxy}

/-- The new handle to a board lists what the board provides, each pin with a new handle. -/
theorem wrapBoard_synced (d : Ref .driver) (w : World) :
    ∃ b u, wrapBoard d w = (w.boardProxies.next, { u with boardProxies := w.boardProxies.push b }) ∧
      b.actual = d ∧
      Synced d (fun kind name => name ∈ w.pinNames d kind) (fun _ => .empty) w b.pins u := by
  have hsync := synced_both d (w.pinNames d) w.held_empty
    ⟨d, (syncPins d .analog .empty (w.pinNames d .analog) w).1,
      (syncPins d .interrupt .empty (w.pinNames d .interrupt)
        (syncPins d .analog .empty (w.pinNames d .analog) w).2).1⟩ rfl rfl
  obtain ⟨t, ht⟩ := hsync.world
  refine ⟨_, _, ?_, rfl, hsync⟩
  have hwrap : wrapBoard d w = addBoardProxy _ (syncPins d .interrupt .empty
      (w.pinNames d .interrupt) (syncPins d .analog .empty (w.pinNames d .analog) w).2).2 := rfl
  rw [hwrap, ht]
  rfl

/-- A plan drops what it says, and brings the rest that it names in line. -/
theorem rebindBoard_synced (h : Ref .boardProxy) (hheld : w.Held b.pins) (next : Ref .driver)
    (plan : PinKind → PinPlan) :
    ∃ b' u, (rebindBoard h b next plan w).2 =
        { u with boardProxies := w.boardProxies.set h b' } ∧ b'.actual = next ∧
      Synced next (fun kind name => name ∈ (plan kind).synced)
        (fun kind => (b.pins kind).eraseAll (plan kind).dropped) w b'.pins u := by
  -- the board with its two tables of handles gets a name, lest it is written out in each step
  generalize hb' : (⟨next, (applyPlan next .analog b.analogs (plan .analog) w).1,
    (applyPlan next .interrupt b.interrupts (plan .interrupt)
      (applyPlan next .analog b.analogs (plan .analog) w).2).1⟩ : BoardProxy) = b'
  have hsync := synced_both next (fun kind => (plan kind).synced)
    (hheld.eraseAll fun kind => (plan kind).dropped) b' (hb' ▸ rfl) (hb' ▸ rfl)
  obtain ⟨t, ht⟩ := hsync.world
  refine ⟨b', _, ?_, hb' ▸ rfl, hsync⟩
  have hrebind : (rebindBoard h b next plan w).2 =
      (fun u : World => { u with boardProxies := u.boardProxies.set h b' })
        (applyPlan next .interrupt b.interrupts (plan .interrupt)
          (applyPlan next .analog b.analogs (plan .analog) w).2).2 := hb' ▸ rfl
  have hboth : (applyPlan next .interrupt b.interrupts (plan .interrupt)
      (applyPlan next .analog b.analogs (plan .analog) w).2).2 = { w with pinProxies := t } := ht
  rw [hrebind, hboth, ht]

/-- An exchange is a plan carried out. -/
theorem Rewiring.run_snd (hb : w.boardProxies.get? h = some b) (x : Rewiring)
    (next : Ref .driver) :
    (x.run h next w).2 = (rebindBoard h b next (fun kind =>
      x.plan (b.pins kind).names (w.pinNames next kind) kind) w).2 := by
  cases x with
  | replace =>
    show (replaceBoard h next w).2 = _
    unfold replaceBoard
    rw [get_bind, hb]
    rfl
  | merge diff =>
    show (mergeBoard h next diff w).2 = _
    unfold mergeBoard
    rw [get_bind, hb]
    rfl

/-- An exchange behind a handle that stands for nothing has no effect. -/
theorem Rewiring.run_of_empty (x : Rewiring) (hnone : w.boardProxies.get? h = none)
    (next : Ref .driver) : (x.run h next w).2 = w := by
  cases x with
  | replace =>
    show (replaceBoard h next w).2 = w
    unfold replaceBoard
    rw [get_bind, hnone]
    rfl
  | merge diff =>
    show (mergeBoard h next diff w).2 = w
    unfold mergeBoard
    rw [get_bind, hnone]
    rfl

/-! ## What one exchange does -/

/-- A handle to a pin is listed by a handle to a board. -/
def Lists (w : World) (h : Ref .boardProxy) (kind : PinKind) (name : String)
    (p : Ref .pinProxy) : Prop :=
  ∃ b, w.boardProxies.get? h = some b ∧ (b.pins kind).get? name = some p

/-- A driver is in the world. -/
def Knows (w : World) (d : Ref .driver) : Prop := ∃ driver, w.drivers.get? d = some driver

/-- The handles of the pins behind one handle to a board were brought in line with its new board. -/
structure Rewires (h : Ref .boardProxy) (b' : BoardProxy) (w w' : World) : Prop where
  drivers : w'.drivers = w.drivers
  here : w'.boardProxies.get? h = some b'
  elsewhere : ∀ {h'}, h ≠ h' → w'.boardProxies.get? h' = w.boardProxies.get? h'
  bound : ∀ {kind name p}, (b'.pins kind).get? name = some p →
    name ∈ w.pinNames b'.actual kind ∧ w'.pinProxies.get? p = some ⟨b'.actual, kind, name⟩
  origin : ∀ {kind name p}, (b'.pins kind).get? name = some p →
    w.Lists h kind name p ∨ w.pinProxies.get? p = none
  rows : ∀ {p pin}, w.pinProxies.get? p = some pin →
    (∀ kind name, (b'.pins kind).get? name ≠ some p) → w'.pinProxies.get? p = some pin

/-- If each name that has a handle is due, all that is listed in the end is in line. -/
theorem rewires_of_synced {due : PinKind → String → Prop}
    {pins : PinKind → NameMap (Ref .pinProxy)} {u : World}
    (hsync : Synced b'.actual due pins w b'.pins u)
    (hold : ∀ {kind name p}, (pins kind).get? name = some p →
      due kind name ∧ w.Lists h kind name p)
    {boards : Table .boardProxy BoardProxy} (hhere : boards.get? h = some b')
    (helsewhere : ∀ {h'}, h ≠ h' → boards.get? h' = w.boardProxies.get? h') :
    Rewires h b' w { u with boardProxies := boards } := by
  have hdue : ∀ {kind name p}, (b'.pins kind).get? name = some p → due kind name :=
    hsync.due_of_listed fun hp => (hold hp).1
  exact {
    drivers := by
      obtain ⟨t, rfl⟩ := hsync.world
      rfl
    here := hhere
    elsewhere := helsewhere
    bound := fun hp => hsync.bound (hdue hp) hp
    origin := fun hp => (hsync.origin hp).imp (fun hp => (hold hp).2) And.right
    rows := fun hrow hlisted => hsync.rows hrow fun kind name _ => hlisted kind name }

/-- A new handle to a board lists new handles only, each for what the board gives. -/
theorem rewires_wrapBoard (d : Ref .driver) (w : World) :
    ∃ b', b'.actual = d ∧ Rewires w.boardProxies.next b' w (wrapBoard d w).2 := by
  obtain ⟨b', u, hwrap, rfl, hsync⟩ := wrapBoard_synced d w
  refine ⟨b', rfl, ?_⟩
  rw [hwrap]
  refine rewires_of_synced hsync (fun hp => by cases hp) ?_ fun hne => ?_
  · rw [Table.get?_push, if_pos rfl]
  · rw [Table.get?_push, if_neg (Ne.symm hne)]

/-- What an exchange makes of a handle to a board. A name keeps its handle exactly if the new board
provides it and the exchange does not drop it, and a name is listed exactly if it is brought in line
and the new board provides it. -/
structure Rewiring.Effect (x : Rewiring) (h : Ref .boardProxy) (next : Ref .driver)
    (b b' : BoardProxy) (w w' : World) : Prop extends Rewires h b' w w' where
  actual : b'.actual = next
  keeps : ∀ {kind name p}, (b.pins kind).get? name = some p →
    ((b'.pins kind).get? name = some p ↔ name ∈ w.pinNames next kind ∧ name ∉ x.drops kind)
  names : ∀ {kind name}, name ∈ (b'.pins kind).names ↔
    name ∈ (x.plan (b.pins kind).names (w.pinNames next kind) kind).synced ∧
      name ∈ w.pinNames next kind

/-- A handle is still listed after an exchange if the new board provides its name and the exchange
does not drop it. What is brought in line and provided is listed, and nothing else. -/
theorem Rewiring.effect (hb : w.boardProxies.get? h = some b) (hheld : w.Held b.pins)
    (x : Rewiring) (next : Ref .driver) :
    ∃ b', x.Effect h next b b' w (x.run h next w).2 := by
  generalize hplan : (fun kind => x.plan (b.pins kind).names (w.pinNames next kind) kind) = plan
  obtain ⟨b', u, hrebind, rfl, hsync⟩ := rebindBoard_synced h hheld next plan
  have hrun : (x.run h b'.actual w).2 = _ := (x.run_snd hb b'.actual).trans (hplan ▸ hrebind)
  -- what is left of the handles once those are dropped that the plan drops
  have hleft : ∀ {kind name p}, ((b.pins kind).eraseAll (plan kind).dropped).get? name = some p ↔
      name ∉ (plan kind).dropped ∧ (b.pins kind).get? name = some p := by
    intro kind name p
    rw [NameMap.get?_eraseAll]
    split <;> simp_all
  -- every plan either drops a name that is listed or brings it in line
  have hdue : ∀ {kind name p}, (b.pins kind).get? name = some p → name ∉ (plan kind).dropped →
      name ∈ (plan kind).synced := by
    intro kind name p hp hkept
    have hplanned : _ ∈ (x.plan _ (w.pinNames b'.actual kind) kind).dropped ∨ _ :=
      planned ((NameMap.mem_names_iff _).mpr ⟨p, hp⟩)
    rw [congrFun hplan kind] at hplanned
    exact hplanned.resolve_left hkept
  have hrewires : Rewires h b' w (x.run h b'.actual w).2 := by
    rw [hrun]
    refine rewires_of_synced hsync (fun hp => ?_) ?_ fun hne => ?_
    · obtain ⟨hkept, hp⟩ := hleft.mp hp
      exact ⟨hdue hp hkept, b, hb, hp⟩
    · rw [Table.get?_set, if_pos rfl, hb, Option.map_some]
    · rw [Table.get?_set, if_neg hne]
  refine ⟨b', hrewires, rfl, fun {kind name p} hp => ⟨fun hp' => ?_, fun ⟨hname, hdrops⟩ => ?_⟩,
    fun {kind name} => ?_⟩
  · refine ⟨(hrewires.bound hp').1, fun hdrops => ?_⟩
    -- the handle was there before, so it is neither one that was dropped nor a new one
    rcases hsync.origin hp' with hold | ⟨-, hnone⟩
    · exact (hleft.mp hold).1 (congrFun hplan kind ▸ dropped_of_drops hdrops)
    · exact hheld.known hp hnone
  -- a plan may drop a name that the new board provides, but then the exchange drops its handle
  · have hkept : name ∉ (plan kind).dropped := by
      rw [← congrFun hplan kind]
      exact fun hdropped => hdrops (drops_of_dropped hdropped hname)
    exact hsync.keeps (hdue hp hkept) hname (hleft.mpr ⟨hkept, hp⟩)
  · rw [congrFun hplan kind, NameMap.mem_names_iff]
    constructor
    · rintro ⟨p, hp⟩
      have hsynced := hsync.due_of_listed (fun hp => hdue (hleft.mp hp).2 (hleft.mp hp).1) hp
      exact ⟨hsynced, (hrewires.bound hp).1⟩
    · rintro ⟨hsynced, hname⟩
      exact hsync.provided hsynced hname

/-! ## The invariant -/

/-- The board behind each handle is in the world and provides what the handle lists, each listed
handle stands for what the board gives, and no two handles to boards share one. -/
structure Wiring (w : World) : Prop where
  known : ∀ {h b}, w.boardProxies.get? h = some b → w.Knows b.actual
  follows : ∀ {h b kind name p}, w.boardProxies.get? h = some b →
    (b.pins kind).get? name = some p →
    name ∈ w.pinNames b.actual kind ∧ w.pinProxies.get? p = some ⟨b.actual, kind, name⟩
  apart : ∀ {h h' kind kind' name name' p}, w.Lists h kind name p → w.Lists h' kind' name' p →
    h = h'

/-- What is listed stands for something. -/
theorem Wiring.row (hw : w.Wiring) {kind : PinKind} {name : String} {p : Ref .pinProxy}
    (hp : w.Lists h kind name p) : ∃ pin, w.pinProxies.get? p = some pin := by
  obtain ⟨b, hb, hp⟩ := hp
  exact ⟨_, (hw.follows hb hp).2⟩

/-- The handles of pins under one handle to a board are in the world and distinct. -/
theorem Wiring.held (hw : w.Wiring) (hb : w.boardProxies.get? h = some b) : w.Held b.pins where
  known hp := by
    rw [(hw.follows hb hp).2]
    exact Option.some_ne_none _
  apart hp hp' := by
    -- a handle stands for one pin, and this one says its kind and name
    have hrow := (hw.follows hb hp).2
    rw [(hw.follows hb hp').2] at hrow
    cases hrow
    exact ⟨rfl, rfl⟩

namespace Rewires

/-- What is listed anywhere afterwards was listed there, or is new. -/
theorem lists (hr : Rewires h b' w w') {h' : Ref .boardProxy} {kind : PinKind} {name : String}
    {p : Ref .pinProxy} (hp : w'.Lists h' kind name p) :
    w.Lists h' kind name p ∨ w.pinProxies.get? p = none := by
  obtain ⟨c, hc, hp⟩ := hp
  by_cases hh : h = h'
  · subst hh
    rw [hr.here] at hc
    cases hc
    exact hr.origin hp
  · rw [hr.elsewhere hh] at hc
    exact .inl ⟨c, hc, hp⟩

/-- A handle that is listed nowhere stays as it is, and so does one that is listed elsewhere. -/
theorem untouched (hr : Rewires h b' w w') {p : Ref .pinProxy} {pin : Pin}
    (hrow : w.pinProxies.get? p = some pin) (hp : ∀ kind name, ¬w.Lists h kind name p) :
    w'.pinProxies.get? p = some pin := by
  refine hr.rows hrow fun kind name hp' => ?_
  rcases hr.origin hp' with hold | hnone
  · exact hp kind name hold
  · rw [hrow] at hnone
    cases hnone

/-- To rewire one handle to a board leaves the others in order. -/
theorem wiring (hr : Rewires h b' w w') (hw : w.Wiring) (hknown : w.Knows b'.actual) :
    w'.Wiring where
  known := by
    intro h' c hc
    have hknows : w.Knows c.actual := by
      by_cases hh : h = h'
      · subst hh
        rw [hr.here] at hc
        cases hc
        exact hknown
      · rw [hr.elsewhere hh] at hc
        exact hw.known hc
    unfold Knows
    rw [hr.drivers]
    exact hknows
  follows := by
    intro h' c kind name p hc hp
    have hnames : w'.pinNames c.actual kind = w.pinNames c.actual kind := by
      unfold World.pinNames
      rw [hr.drivers]
    rw [hnames]
    by_cases hh : h = h'
    · subst hh
      rw [hr.here] at hc
      cases hc
      exact hr.bound hp
    · rw [hr.elsewhere hh] at hc
      obtain ⟨hname, hrow⟩ := hw.follows hc hp
      exact ⟨hname, hr.untouched hrow fun kind' name' hp' => hh (hw.apart hp' ⟨c, hc, hp⟩)⟩
  apart := by
    intro h₁ h₂ kind₁ kind₂ name₁ name₂ p hp₁ hp₂
    rcases hr.lists hp₁ with hold₁ | hnone
    · rcases hr.lists hp₂ with hold₂ | hnone
      · exact hw.apart hold₁ hold₂
      · obtain ⟨_, hrow⟩ := hw.row hold₁
        rw [hrow] at hnone
        cases hnone
    · -- a new handle is listed where the exchange was made, and nowhere else
      have hnew : ∀ {h' kind name}, w'.Lists h' kind name p → h = h' := by
        intro h' kind name hp
        by_contra hh
        obtain ⟨c, hc, hp⟩ := hp
        rw [hr.elsewhere hh] at hc
        obtain ⟨_, hrow⟩ := hw.row ⟨c, hc, hp⟩
        rw [hrow] at hnone
        cases hnone
      exact (hnew hp₁).symm.trans (hnew hp₂)

end Rewires

/-! ## Runs -/

/-- Something else has happened: no handle to a board or pin was touched, and the drivers that were
there provide the same pins. -/
structure Elapses (w w' : World) : Prop where
  boardProxies : w'.boardProxies = w.boardProxies
  pinProxies : w'.pinProxies = w.pinProxies
  drivers : ∀ {d driver}, w.drivers.get? d = some driver →
    ∃ driver', w'.drivers.get? d = some driver' ∧
      ∀ kind, driver'.pinNames kind = driver.pinNames kind

/-- One turn in the life of the handles to boards. The boards are any drivers, and diffs need not fit
them. -/
inductive Turn : World → World → Prop
  | wrap {w : World} {d : Ref .driver} (hd : w.Knows d) : Turn w (wrapBoard d w).2
  | exchange {w : World} (x : Rewiring) (h : Ref .boardProxy) {next : Ref .driver}
      (hnext : w.Knows next) : Turn w (x.run h next w).2
  | elapse {w w' : World} (helapses : Elapses w w') : Turn w w'

/-- Any number of turns. -/
abbrev Turns : World → World → Prop := Relation.ReflTransGen Turn

/-- All handles to boards and pins came about by turns. -/
inductive Wired : World → Prop
  | start {w : World} (hboards : ∀ h, w.boardProxies.get? h = none) : Wired w
  | turn {w w' : World} (hw : Wired w) (hturn : Turn w w') : Wired w'

theorem Elapses.refl (w : World) : Elapses w w := ⟨rfl, rfl, fun h => ⟨_, h, fun _ => rfl⟩⟩

theorem Elapses.pinNames (he : Elapses w w') {d : Ref .driver} (hd : w.Knows d) (kind : PinKind) :
    w'.pinNames d kind = w.pinNames d kind := by
  obtain ⟨driver, hd⟩ := hd
  obtain ⟨driver', hd', hnames⟩ := he.drivers hd
  unfold World.pinNames
  rw [hd, hd', Option.map_some, Option.map_some, hnames]

/-- What else happens does not touch what handles list. -/
theorem Elapses.lists (he : Elapses w w') {kind : PinKind} {name : String} {p : Ref .pinProxy} :
    w'.Lists h kind name p ↔ w.Lists h kind name p := by
  unfold Lists
  rw [he.boardProxies]

theorem Elapses.wiring (he : Elapses w w') (hw : w.Wiring) : w'.Wiring where
  known := by
    intro h b hb
    rw [he.boardProxies] at hb
    obtain ⟨driver, hd⟩ := hw.known hb
    obtain ⟨driver', hd', -⟩ := he.drivers hd
    exact ⟨driver', hd'⟩
  follows := by
    intro h b kind name p hb hp
    rw [he.boardProxies] at hb
    rw [he.pinNames (hw.known hb), he.pinProxies]
    exact hw.follows hb hp
  apart hp hp' := hw.apart (he.lists.mp hp) (he.lists.mp hp')

/-- A turn brings the handles of one board in line, or touches none. -/
theorem Turn.effect (ht : Turn w w') (hw : w.Wiring) :
    (∃ h b', w.Knows b'.actual ∧ Rewires h b' w w') ∨ Elapses w w' := by
  cases ht with
  | @wrap d hd =>
    obtain ⟨b', rfl, hr⟩ := rewires_wrapBoard d w
    exact .inl ⟨_, b', hd, hr⟩
  | @exchange x h next hnext =>
    cases hb : w.boardProxies.get? h with
    | none =>
      rw [x.run_of_empty hb]
      exact .inr (.refl w)
    | some b =>
      obtain ⟨b', heffect⟩ := x.effect hb (hw.held hb) next
      exact .inl ⟨h, b', heffect.actual ▸ hnext, heffect.toRewires⟩
  | elapse he => exact .inr he

/-- Each turn keeps handles in order. -/
theorem Turn.wiring (ht : Turn w w') (hw : w.Wiring) : w'.Wiring := by
  obtain ⟨h, b', hknown, hr⟩ | he := ht.effect hw
  · exact hr.wiring hw hknown
  · exact he.wiring hw

/-- So they are in order after any number of turns. -/
theorem Wired.wiring (hw : w.Wired) : w.Wiring := by
  induction hw with
  | start hboards =>
    refine ⟨fun hb => ?_, fun hb => ?_, fun ⟨b, hb, _⟩ => ?_⟩ <;>
      · rw [hboards] at hb
        cases hb
  | turn _ hturn ih => exact hturn.wiring ih

/-- What is listed after a turn was listed there before, or is new. -/
theorem Turn.lists (ht : Turn w w') (hw : w.Wiring) {kind : PinKind} {name : String}
    {p : Ref .pinProxy} (hp : w'.Lists h kind name p) :
    w.Lists h kind name p ∨ w.pinProxies.get? p = none := by
  obtain ⟨_, _, -, hr⟩ | he := ht.effect hw
  · exact hr.lists hp
  · exact .inl (he.lists.mp hp)

/-- What is listed nowhere is never listed again, and stands for what it stands for. -/
theorem Turns.rests (ht : Turns w w') (hw : w.Wiring) {p : Ref .pinProxy} {pin : Pin}
    (hrow : w.pinProxies.get? p = some pin) (hp : ∀ h kind name, ¬w.Lists h kind name p) :
    w'.pinProxies.get? p = some pin ∧ ∀ h kind name, ¬w'.Lists h kind name p := by
  suffices hrest : w'.Wiring ∧ w'.pinProxies.get? p = some pin ∧
      ∀ h kind name, ¬w'.Lists h kind name p from hrest.2
  induction ht with
  | refl => exact ⟨hw, hrow, hp⟩
  | @tail u v _ hturn ih =>
    obtain ⟨hu, hrow, hp⟩ := ih
    have hnowhere : ∀ h kind name, ¬v.Lists h kind name p := by
      intro h kind name hp'
      rcases hturn.lists hu hp' with hold | hnone
      · exact hp h kind name hold
      · rw [hrow] at hnone
        cases hnone
    obtain ⟨h, _, -, hr⟩ | he := hturn.effect hu
    · exact ⟨hturn.wiring hu, hr.untouched hrow (hp h), hnowhere⟩
    · exact ⟨hturn.wiring hu, he.pinProxies ▸ hrow, hnowhere⟩

/-- After any turns, each listed handle stands for what the board behind gives for its name. An
exchange that keeps a name keeps its handle. One that drops it leaves the handle with its last pin
for good. And whatever a turn lists anew is a new handle. -/
theorem pins_follow_board (hw : w.Wired) :
    (∀ h b kind name p, w.boardProxies.get? h = some b → (b.pins kind).get? name = some p →
      ∃ pin, w.pin? b.actual kind name = some pin ∧ w.pinProxies.get? p = some pin) ∧
    (∀ (x : Rewiring) (h : Ref .boardProxy) (next : Ref .driver) (kind : PinKind) (name : String)
      (p : Ref .pinProxy), w.Knows next → w.Lists h kind name p →
      if name ∈ w.pinNames next kind ∧ name ∉ x.drops kind then
        (x.run h next w).2.Lists h kind name p
      else
        ∀ w', Turns (x.run h next w).2 w' → w'.pinProxies.get? p = w.pinProxies.get? p ∧
          ∀ h' kind' name', ¬w'.Lists h' kind' name' p) ∧
    (∀ w' h kind name p, Turn w w' → w'.Lists h kind name p →
      w.Lists h kind name p ∨ w.pinProxies.get? p = none) := by
  have hwiring := hw.wiring
  refine ⟨fun h b kind name p hb hp => ?_, fun x h next kind name p hnext hp => ?_,
    fun w' h kind name p ht hp => ht.lists hwiring hp⟩
  · obtain ⟨hname, hrow⟩ := hwiring.follows hb hp
    exact ⟨_, if_pos hname, hrow⟩
  · obtain ⟨pin, hrow⟩ := hwiring.row hp
    have hlisted := hp
    obtain ⟨b, hb, hp⟩ := hp
    obtain ⟨b', hr⟩ := x.effect hb (hwiring.held hb) next
    split
    case isTrue hkeeps => exact ⟨b', hr.here, (hr.keeps hp).mpr hkeeps⟩
    case isFalse hdrops =>
      intro w' hturns
      have hnowhere : ∀ h' kind' name', ¬(x.run h next w).2.Lists h' kind' name' p := by
        rintro h' kind' name' hp'
        -- it would have been listed there before, so under this name, which is dropped
        rcases hr.lists hp' with hold | hnone
        · obtain rfl := hwiring.apart hlisted hold
          obtain ⟨c, hc, hold⟩ := hold
          rw [hb] at hc
          cases hc
          obtain ⟨rfl, rfl⟩ := (hwiring.held hb).apart hp hold
          obtain ⟨c, hc, hp'⟩ := hp'
          rw [hr.here] at hc
          cases hc
          exact hdrops ((hr.keeps hp).mp hp')
        · rw [hrow] at hnone
          cases hnone
      have hrow' : (x.run h next w).2.pinProxies.get? p = some pin :=
        hr.rows hrow fun kind' name' hp' => hnowhere h kind' name' ⟨b', hr.here, hp'⟩
      rw [hrow]
      exact hturns.rests ((Turn.exchange x h hnext).wiring hwiring) hrow' hnowhere

namespace Sample

/-- A board with analog readers of these names. -/
def board (names : List String) : Driver where
  name := "io"
  device := .board { analogs := .ofList (names.map fun name => (name, 0)) }

/-- A board that reads the current and the voltage has a handle; one that reads the voltage and the
heat is at hand. -/
def boards : World :=
  (wrapBoard ⟨0⟩ { drivers := ⟨[board ["amps", "volts"], board ["heat", "volts"]]⟩ }).2

end Sample

/-- The voltage keeps its handle when the second board comes in, and the current leaves its handle
behind for good. -/
theorem pins_follow_board_sample :
    (Rewiring.replace.run ⟨0⟩ ⟨1⟩ Sample.boards).2.Lists ⟨0⟩ .analog "volts" ⟨1⟩ ∧
      ∀ w', Turns (Rewiring.replace.run ⟨0⟩ ⟨1⟩ Sample.boards).2 w' →
        w'.pinProxies.get? ⟨0⟩ = some ⟨⟨0⟩, .analog, "amps"⟩ := by
  have hwired : Sample.boards.Wired := .turn (.start fun _ => rfl) (.wrap ⟨_, rfl⟩)
  obtain ⟨-, hexchange, -⟩ := pins_follow_board hwired
  have hvolts := hexchange .replace ⟨0⟩ ⟨1⟩ .analog "volts" ⟨1⟩ ⟨_, rfl⟩ ⟨_, rfl, by decide⟩
  have hamps := hexchange .replace ⟨0⟩ ⟨1⟩ .analog "amps" ⟨0⟩ ⟨_, rfl⟩ ⟨_, rfl, by decide⟩
  rw [if_pos (by decide)] at hvolts
  rw [if_neg (by decide)] at hamps
  refine ⟨hvolts, fun w' hturns => (hamps w' hturns).1.trans ?_⟩
  decide

end World

end RobotHost
