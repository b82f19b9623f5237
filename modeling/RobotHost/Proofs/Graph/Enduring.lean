import RobotHost.Driver.Call
import RobotHost.Proofs.Graph.Closing
import RobotHost.Proofs.Graph.Delivery
import RobotHost.Proofs.Handle.Following

/-!
# What sensors can do endures

A sensor is asked for what it can do, the richest first: whether it is a relative compass, and
whether it is a compass. What it offers (`Driver.offers`) does not change in the course of calls, so
that the handle a sensor got when it was registered goes on saying what the sensor can do, as long
as no other comes behind it (`World.Apt`).

Nothing but an exchange puts another sensor behind a handle: processes start and stop, parts and
connections are closed, drivers are made and get handles, and the world *endures* all of this
(`World.Endures`).
-/

namespace RobotHost

/-! ## What a sensor offers -/

namespace Driver

/-- Whether a sensor is one of a capability: a compass can be calibrated, and a relative compass
takes its heading as zero. -/
def offers (d : Driver) : Capability → Bool
  | .sensor => true
  | .compass => (d.answer .startCalibration).isOk
  | .relativeCompass => (d.answer .mark).isOk

/-- What a sensor can do most is the richest that it offers. -/
theorem find?_offers (d : Driver) :
    [Capability.relativeCompass, .compass, .sensor].find? d.offers = some d.capability := by
  obtain ⟨name, device, closed, fault⟩ := d
  cases device <;> rfl

/-- A call changes nothing about what a sensor can do. -/
theorem capability_answer {d d' : Driver} {c : Call} {r : Reply} (h : d.answer c = .ok (r, d')) :
    d'.capability = d.capability := by
  obtain ⟨name, device, closed, fault⟩ := d
  unfold answer at h
  cases hdevice : device.answer name c with
  | error e =>
    rw [hdevice] at h
    cases h
  | ok x =>
    obtain ⟨reply, device'⟩ := x
    rw [hdevice] at h
    cases h
    -- the answer leaves a device of the same sort, whatever was asked
    unfold Device.answer at hdevice
    split at hdevice <;> (try split at hdevice) <;> cases hdevice <;> rfl

end Driver

/-! ## Worlds that endure -/

namespace World

/-- Each driver is still there and can do what it could. -/
def Able (w w' : World) : Prop :=
  ∀ d driver, w.drivers.get? d = some driver →
    ∃ driver', w'.drivers.get? d = some driver' ∧ driver'.capability = driver.capability

/-- What stood behind handles still does, and can do what it could. -/
structure Endures (w w' : World) : Prop extends Recalls w w' where
  able : w.Able w'

variable {w w' w'' : World}

theorem Able.of_drivers (h : w'.drivers = w.drivers) : w.Able w' := by
  intro d driver hd
  exact ⟨driver, by rw [h, hd], rfl⟩

theorem Able.trans (h : w.Able w') (h' : w'.Able w'') : w.Able w'' := by
  intro d driver hd
  obtain ⟨driver', hd', hcapability⟩ := h d driver hd
  obtain ⟨driver'', hd'', hcapability'⟩ := h' d driver' hd'
  exact ⟨driver'', hd'', hcapability'.trans hcapability⟩

/-- A driver may be changed as long as it can do what it could. -/
theorem Able.of_modify {d : Ref .driver} {f : Driver → Driver}
    (hf : ∀ driver, w.drivers.get? d = some driver → (f driver).capability = driver.capability)
    (hw : w'.drivers = w.drivers.modify d f) : w.Able w' := by
  intro e driver he
  rw [hw]
  by_cases hde : d = e
  · subst hde
    exact ⟨f driver, by rw [Table.get?_modify, if_pos rfl, he, Option.map_some], hf driver he⟩
  · exact ⟨driver, by rw [Table.get?_modify, if_neg hde, he], rfl⟩

theorem Endures.refl (w : World) : w.Endures w := ⟨.refl w, .of_drivers rfl⟩

theorem Endures.trans (h : w.Endures w') (h' : w'.Endures w'') : w.Endures w'' :=
  ⟨h.toRecalls.trans h'.toRecalls, h.able.trans h'.able⟩

/-- To wire handles up leaves the drivers alone. -/
theorem Wires.endures (h : w.Wires w') : w.Endures w' := ⟨h.toRecalls, .of_drivers h.sameDrivers⟩

theorem note_endures (e : Event) (w : World) : w.Endures (note e w).2 :=
  ⟨(extends_note w e).toRecalls, .of_drivers rfl⟩

/-- A new driver takes the place of none. -/
theorem addDriver_endures (d : Driver) (w : World) : w.Endures (addDriver d w).2 := by
  refine ⟨(extends_addDriver w d).toRecalls, fun e driver he => ⟨driver, ?_, rfl⟩⟩
  exact Table.keeps_push w.drivers d e driver he

theorem addRemote_endures (r : Remote) (w : World) : w.Endures (addRemote r w).2 :=
  ⟨(extends_addRemote w r).toRecalls, .of_drivers rfl⟩

theorem addProcess_endures (p : Process) (w : World) : w.Endures (addProcess p w).2 :=
  ⟨(extends_addProcess w p).toRecalls, .of_drivers rfl⟩

/-- A call of a driver is nothing that a world does not endure. -/
theorem answer_endures {d : Ref .driver} {driver driver' : Driver} {c : Call} {r : Reply}
    (hd : w.drivers.get? d = some driver) (hanswer : driver.answer c = .ok (r, driver')) :
    w.Endures { w with drivers := w.drivers.set d driver' } := by
  refine ⟨⟨fun _ _ hx => hx, rfl, Nat.le_of_eq (Table.size_modify _ _ _).symm,
    fun _ q hq => ⟨q, hq, rfl⟩, List.prefix_refl _⟩, .of_modify (fun other hother => ?_) rfl⟩
  rw [hd] at hother
  cases hother
  exact Driver.capability_answer hanswer

end World

/-! ## Processes -/

namespace World

variable (h : Host)

/-- Whether a process starts or not, the drivers are left alone. -/
theorem start_endures (p : Ref .process) : Along Endures (start h p) := by
  intro w
  refine ⟨(start_launches h p w).extends.toRecalls, .of_drivers ?_⟩
  unfold start
  cases w.processes.get? p with
  | none => rfl
  | some q =>
    simp only
    split <;> rfl

theorem stop_endures (p : Ref .process) (w : World) : w.Endures (stop h p w).2 := by
  refine ⟨(stop_idle h p w).extends.toRecalls, .of_drivers ?_⟩
  unfold stop
  cases w.processes.get? p <;> rfl

theorem stopEach_endures (ps : List (Ref .process)) (w : World) :
    w.Endures (stopEach h ps w).2 :=
  stopEach_leads .refl (fun _ _ _ => .trans) (stop_endures h) ps w

end World

namespace ProcessManager

variable (h : Host) (m : ProcessManager)

theorem startAll_endures : Along World.Endures (m.startAll h) :=
  World.startEach_along .refl (fun _ _ _ => .trans) (World.start_endures h) _

theorem add_endures (p : Ref .process) (replace : Bool) :
    Along World.Endures (m.add h p replace) :=
  add_along .refl (fun _ _ _ => .trans) (World.start_endures h) m p replace

theorem addAll_endures (other : ProcessManager) : Along World.Endures (m.addAll h other) :=
  addEach_along .refl (fun _ _ _ => .trans) (World.start_endures h) m _

theorem addProgram_endures (c : ProcessConfig) : Along World.Endures (m.addProgram h c) := by
  intro w
  have hadd := m.add_endures h w.processes.next false
    (World.addProcess (.program { config := c }) w).2
  have hw := World.addProcess_endures (.program { config := c }) w
  rw [addProgram_eq]
  revert hadd
  rcases m.add h w.processes.next false _ with ⟨⟨_, m'⟩, w'⟩ | ⟨e, w'⟩ <;> exact hw.trans

end ProcessManager

/-! ## Closing -/

namespace World

/-- A driver that is closed can still be asked what it could do. -/
theorem closeDriver_endures (d : Ref .driver) (w : World) : w.Endures (closeDriver d w).2 :=
  ⟨(closeDriver_quiet d w).extends.toRecalls,
    .of_modify (f := fun d => { d with closed := true }) (fun _ _ => rfl) rfl⟩

/-- To close resources is endured if to close connections is. -/
theorem foldl_closed_endures {hangUp : Connection → StateM World (List CloseFailure)}
    (hhang : ∀ c (w : World), w.Endures (hangUp c w).2) (xs : List Resource) (w : World) :
    w.Endures (xs.foldl (closed hangUp) w) := by
  induction xs generalizing w with
  | nil => exact .refl w
  | cons x rest ih =>
    cases x with
    | driver d => exact (closeDriver_endures d w).trans (ih _)
    | connection c => exact (hhang c w).trans (ih _)

/-- However deep connections lead, what is closed there is still what it was. -/
theorem hangUpIn_endures (h : Host) (depth : Nat) (c : Connection) (w : World) :
    w.Endures (hangUpIn h depth c w).2 := by
  -- a robot that answers closes connections of its own, for which the bound is one less
  induction depth generalizing c w with
  | zero => exact .refl w
  | succ depth ih =>
    have hnote := note_endures (.hungUp c) w
    cases c with
    | robot r =>
      rw [hangUpIn_robot]
      split
      · exact hnote
      · rw [Graph.closeVia_snd (hangUpIn_quiet h depth)]
        exact (hnote.trans (stopEach_endures h _ _)).trans (foldl_closed_endures ih _ _)
    | remote r =>
      rw [hangUpIn_remote]
      split
      · exact hnote
      · exact hnote.trans (ih _ _)

theorem retire_endures (h : Host) (xs : List Resource) (w : World) :
    w.Endures (retire h xs w).2 := by
  induction xs generalizing w with
  | nil => exact .refl w
  | cons x rest ih =>
    cases x with
    | driver d => exact (closeDriver_endures d w).trans (ih _)
    | connection c => exact (hangUpIn_endures h w.depth c w).trans (ih _)

end World

theorem Graph.close_endures (h : Host) (g : Graph) (w : World) : w.Endures (g.close h w).2 := by
  rw [close_snd]
  exact (World.stopEach_endures h _ w).trans
    (World.foldl_closed_endures (World.hangUpIn_endures h w.depth) _ _)

/-! ## Drivers that are made -/

namespace Environment

variable {env : Environment} {w w' : World}

/-- A driver that the factory has delivered before is one of the world. -/
def Grounded (env : Environment) : Prop :=
  ∀ w b d, env.factory w b = .ok (.existing d) → w.Knows d

/-- A factory may add a driver, and changes none. -/
theorem construct_endures (env : Environment) (b : Blueprint) (w : World) :
    w.Endures (env.construct b w).2 := by
  rw [construct_eq]
  split
  · exact World.note_endures _ w
  · exact World.note_endures _ w
  · next new _ => exact (World.addDriver_endures new w).trans (World.note_endures _ _)

/-- What the environment delivers is a driver of the world. -/
theorem Grounded.construct_knows (henv : env.Grounded) {b : Blueprint} {d : Ref .driver}
    (h : env.construct b w = (.ok d, w')) : w'.Knows d := by
  rw [construct_eq] at h
  split at h
  · cases h
  · next hmade =>
    cases h
    exact henv w b d hmade
  · next new _ =>
    cases h
    refine ⟨new, ?_⟩
    show (w.drivers.push new).get? w.drivers.next = some new
    rw [Table.get?_push, if_pos rfl]

end Environment

/-! ## Handles that say what sensors can do -/

namespace World

variable {w w' : World}

/-- The handle of a sensor says what the sensor behind it can do. -/
def Apt (w : World) : (k : Kind) → k.Handle → Prop
  | .driver .sensor, h => ∃ d driver, w.behind? (.proxy h.proxy) = some (.driver d) ∧
      w.drivers.get? d = some driver ∧ driver.capability = h.capability
  | _, _ => True

/-- As long as the sensor behind it stays, a handle goes on saying what it can do. -/
theorem Apt.mono (hbehind : ∀ s x, w.behind? s = some x → w'.behind? s = some x)
    (hable : w.Able w') {k : Kind} {h : k.Handle} (hh : w.Apt k h) : w'.Apt k h := by
  match k with
  | .remote | .driver .board | .driver (.part _) => exact trivial
  | .driver .sensor =>
    obtain ⟨d, driver, hd, hdriver, hcapability⟩ := hh
    obtain ⟨driver', hdriver', hsame⟩ := hable d driver hdriver
    exact ⟨d, driver', hbehind _ _ hd, hdriver', hsame.trans hcapability⟩

/-- A new handle says what its driver can do. -/
theorem wrap_apt {d : Ref .driver} (hd : w.Knows d) (k : DriverKind) :
    (wrap d k w).2.Apt (.driver k) (wrap d k w).1 := by
  match k with
  | .board | .part _ => exact trivial
  | .sensor =>
    obtain ⟨driver, hd⟩ := hd
    obtain ⟨hwires, -, hbehind⟩ := wrap_spec d .sensor w
    refine ⟨d, driver, hbehind, by rw [hwires.sameDrivers, hd], ?_⟩
    show driver.capability = w.capability d
    rw [World.capability, hd]
    rfl

/-- And so does one that is made anew from another that does. -/
theorem Copies.apt {k : DriverKind} {h h' : (Kind.driver k).Handle} (hc : Copies w w' k h h')
    (hw : w.Endures w') (hh : w.Apt (.driver k) h) : w'.Apt (.driver k) h' := by
  match k with
  | .board | .part _ => exact trivial
  | .sensor =>
    obtain ⟨d, driver, hbehind, hd, hcapability⟩ := hh
    obtain ⟨driver', hd', hsame⟩ := hw.able d driver hd
    exact ⟨d, driver', hc.behind _ hbehind, hd', (hsame.trans hcapability).trans hc.alike.symm⟩

end World

end RobotHost
