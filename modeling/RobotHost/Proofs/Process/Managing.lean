import Mathlib.Data.List.Nodup
import RobotHost.Proofs.Sequencing
import RobotHost.Proofs.World.Extension

/-!
# Managing processes

Starting and stopping processes leaves everything else in the world alone. A manager that adds a
process has it under its id from then on, and one that adds all processes of another has the other's
entries over its own (`ProcessManager.addAll_ok`).

A manager is *keyed* if every process stands under its own id. All managers that a robot has are.
-/

namespace RobotHost

/-! ## Starting and stopping -/

namespace World

/-- Exchanging a process for another state of it and logging the fact moves nothing else on. -/
theorem idle_of_process {w w' : World} {p : Ref .process} {q q' : Process}
    (calls : Nat) (hq : w.processes.get? p = some q) (hid : q'.id = q.id) {e : Event}
    (he : e.OfProcess) (hw : w' = { w with
      processes := w.processes.set p q', hostCalls := calls, log := w.log ++ [e] }) :
    w.Idle w' := by
  subst hw
  have hlogs : Logs Event.OfProcess w { w with
      processes := w.processes.set p q', hostCalls := calls, log := w.log ++ [e] } :=
    ⟨[e], rfl, by simpa using he⟩
  refine ⟨⟨rfl, rfl, rfl, rfl, rfl, rfl, fun r x hx => ?_, hlogs.mono fun _ h => h.resources.1⟩, hlogs⟩
  show ∃ x', (w.processes.set p q').get? r = some x' ∧ x'.id = x.id
  rw [Table.get?_set]
  -- the process keeps its id, and no other row is written
  by_cases hr : p = r
  · subst hr
    rw [hq] at hx
    cases hx
    exact ⟨q', by simp [hq], hid⟩
  · exact ⟨x, by simp [hr, hx], rfl⟩

/-- To start a process moves on nothing but the process, whether it starts or not. -/
theorem start_launches (h : Host) (p : Ref .process) : Along Launches (start h p) := by
  intro w
  unfold start
  cases hq : w.processes.get? p with
  | none => exact .refl w
  | some q =>
    have hidle := idle_of_process (q.start h w.hostCalls).nextCall hq
      (Process.id_start h w.hostCalls q) (e := .started p) trivial rfl
    -- whether it starts or not, that it was asked to is all there is to see
    simp only
    split <;> exact ⟨hidle.toQuiet, [.started p], rfl, by simp [Event.OfStart]⟩

theorem stop_idle (h : Host) (p : Ref .process) (w : World) : w.Idle (stop h p w).2 := by
  unfold stop
  cases hq : w.processes.get? p with
  | none => exact .refl w
  | some q =>
    exact idle_of_process (q.stop h w.hostCalls).nextCall hq
      (Process.id_stop h w.hostCalls q) (e := .stopped p) trivial rfl

section Along

variable {R : World → World → Prop} {h : Host} (hrefl : ∀ w, R w w)
  (htrans : ∀ u v w, R u v → R v w → R u w)

include hrefl htrans

/-- Where the start of a process leads, the starts of several do. -/
theorem startEach_along (hstart : ∀ p, Along R (start h p)) (ps : List (Ref .process)) :
    Along R (startEach h ps) := by
  induction ps with
  | nil => exact along_pure hrefl ()
  | cons p rest ih => exact (hstart p).bind htrans fun _ => ih

/-- If stopping each process leads along a relation, so does stopping all of them. -/
theorem stopEach_leads (hstop : ∀ p w, R w (stop h p w).2) (ps : List (Ref .process)) (w : World) :
    R w (stopEach h ps w).2 := by
  induction ps generalizing w with
  | nil => exact hrefl w
  | cons p rest ih =>
    have hworld : (stopEach h (p :: rest) w).2 = (stopEach h rest (stop h p w).2).2 := by
      rw [stopEach, run_bind]
      cases (stop h p w).1 <;> rfl
    rw [hworld]
    exact htrans _ _ _ (hstop p w) (ih _)

end Along

theorem startEach_launches (h : Host) (ps : List (Ref .process)) :
    Along Launches (startEach h ps) :=
  startEach_along .refl (fun _ _ _ => .trans) (start_launches h) ps

theorem stopEach_idle (h : Host) (ps : List (Ref .process)) (w : World) :
    w.Idle (stopEach h ps w).2 :=
  stopEach_leads .refl (fun _ _ _ => .trans) (stop_idle h) ps w

end World

/-! ## Adding one process -/

namespace ProcessManager

/-- What adding a process comes to, step by step. -/
theorem add_eq (h : Host) (m : ProcessManager) (p : Ref .process) (replace : Bool) (w : World) :
    m.add h p replace w =
      if (!replace && m.processes.contains (w.processId p)) = true then
        .error (.alreadyExists (w.processId p)) w
      else
        ((if m.started = true then World.start h p else pure ()) >>= fun () =>
          pure (m.get? (w.processId p),
            { m with processes := m.processes.insert (w.processId p) p })) w := by
  show (if _ then _ else _ : EStateM _ _ _) w = _
  by_cases hc : (!replace && m.processes.contains (w.processId p)) = true
  · rw [if_pos hc, if_pos hc]
    rfl
  · rw [if_neg hc, if_neg hc]
    by_cases hs : m.started = true
    · rw [if_pos hs, if_pos hs]
    · rw [if_neg hs, if_neg hs]
      rfl

/-- What a manager is once it has taken a process. -/
theorem add_ok {h : Host} {m m' : ProcessManager} {p : Ref .process} {replace : Bool} {w w' : World}
    {old : Option (Ref .process)} (hadd : m.add h p replace w = .ok (old, m') w') :
    old = m.get? (w.processId p) ∧
      m' = { m with processes := m.processes.insert (w.processId p) p } := by
  rw [add_eq] at hadd
  split at hadd
  · cases hadd
  · obtain ⟨_, _, -, hpure⟩ := bind_eq_ok.mp hadd
    obtain ⟨hpair, -⟩ := pure_eq_ok.mp hpure
    cases hpair
    exact ⟨rfl, rfl⟩

section Along

variable {R : World → World → Prop} {h : Host} (hrefl : ∀ w, R w w)
  (htrans : ∀ u v w, R u v → R v w → R u w) (hstart : ∀ p, Along R (World.start h p))

include hrefl htrans hstart

/-- All that a manager does to the world when it adds a process is to start it. -/
theorem add_along (m : ProcessManager) (p : Ref .process) (replace : Bool) :
    Along R (m.add h p replace) := by
  intro w
  rw [add_eq]
  split
  · exact hrefl w
  · refine Along.bind htrans ?_ (fun _ => along_pure hrefl _) w
    split
    · exact hstart p
    · exact along_pure hrefl ()

theorem addEach_along (m : ProcessManager) (ps : List (Ref .process)) :
    Along R (m.addEach h ps) := by
  induction ps generalizing m with
  | nil => exact along_pure hrefl _
  | cons p rest ih =>
    refine (add_along hrefl htrans hstart m p true).bind htrans fun x => ?_
    exact (ih x.2).bind htrans fun _ => along_pure hrefl _

end Along

/-- To add a process starts it at most. -/
theorem add_launches (h : Host) (m : ProcessManager) (p : Ref .process) (replace : Bool) :
    Along World.Launches (m.add h p replace) :=
  add_along .refl (fun _ _ _ => .trans) (World.start_launches h) m p replace

/-- A manager that was not started only refuses ids that it has, and starts nothing. -/
theorem add_of_not_started (h : Host) {m : ProcessManager} (hm : m.started = false)
    (p : Ref .process) (w : World) :
    m.add h p false w =
      if m.processes.contains (w.processId p) then .error (.alreadyExists (w.processId p)) w
      else .ok (m.get? (w.processId p),
        { m with processes := m.processes.insert (w.processId p) p }) w := by
  rw [add_eq]
  simp only [Bool.not_false, Bool.true_and, hm, Bool.false_eq_true, if_false]
  rfl

/-- To add a program is to make a process and to add it. -/
theorem addProgram_eq (h : Host) (m : ProcessManager) (c : ProcessConfig) (w : World) :
    m.addProgram h c w =
      match m.add h w.processes.next false (World.addProcess (.program { config := c }) w).2 with
      | .ok (_, m') w' => .ok (w.processes.next, m') w'
      | .error e w' => .error e w' := by
  show EStateM.bind (m.add h w.processes.next false) (fun x => pure (w.processes.next, x.2))
    (World.addProcess (.program { config := c }) w).2 = _
  unfold EStateM.bind
  rcases m.add h w.processes.next false _ with ⟨⟨_, m'⟩, w'⟩ | ⟨e, w'⟩ <;> rfl

/-! ## Keyed managers -/

/-- Every process stands under its own id. -/
def Keyed (w : World) (m : ProcessManager) : Prop :=
  ∀ id p, m.get? id = some p → ∃ q, w.processes.get? p = some q ∧ q.id = id

theorem keyed_empty (w : World) : Keyed w {} := by
  intro id p hp
  cases hp

/-- Processes may move on, as long as they keep their ids. -/
theorem Keyed.mono {w w' : World} {m : ProcessManager} (hm : m.Keyed w)
    (hw : ∀ p q, w.processes.get? p = some q →
      ∃ q', w'.processes.get? p = some q' ∧ q'.id = q.id) : m.Keyed w' := by
  intro id p hp
  obtain ⟨q, hq, hid⟩ := hm id p hp
  obtain ⟨q', hq', hid'⟩ := hw p q hq
  exact ⟨q', hq', hid'.trans hid⟩

/-- Processes keep their ids in a world that recalls them. -/
theorem Keyed.recalls {w w' : World} {m : ProcessManager} (hm : m.Keyed w) (hw : w.Recalls w') :
    m.Keyed w' := hm.mono hw.processes

/-- What stands under an id goes by it. -/
theorem Keyed.processId {w : World} {m : ProcessManager} (hm : m.Keyed w) {id : String}
    {p : Ref .process} (hp : m.get? id = some p) : w.processId p = id := by
  obtain ⟨q, hq, hid⟩ := hm id p hp
  simp [World.processId, hq, hid]

/-- What a keyed manager has is there. -/
theorem Keyed.known {w : World} {m : ProcessManager} (hm : m.Keyed w) {p : Ref .process}
    (hp : p ∈ m.processes.values) : ∃ q, w.processes.get? p = some q := by
  obtain ⟨id, hid⟩ := (NameMap.mem_values_iff _).mp hp
  obtain ⟨q, hq, -⟩ := hm id p hid
  exact ⟨q, hq⟩

/-- The processes of a keyed manager go by its ids. -/
theorem Keyed.ids {w : World} {m : ProcessManager} (hm : m.Keyed w) :
    m.processes.values.map w.processId = m.processes.names := by
  rw [NameMap.values, NameMap.names, List.map_map]
  exact List.map_congr_left fun e he => hm.processId ((NameMap.get?_eq_some_iff _).mpr he)

/-- The processes of a keyed manager are distinct, as their ids are. -/
theorem Keyed.nodup_values {w : World} {m : ProcessManager} (hm : m.Keyed w) :
    m.processes.values.Nodup :=
  List.Nodup.of_map w.processId (hm.ids ▸ m.processes.nodup_names)

/-- What a keyed manager has under some ids goes by just those of these ids. -/
theorem Keyed.map_processId {w : World} {m : ProcessManager} (hm : m.Keyed w) (ids : List String) :
    (ids.filterMap m.get?).map w.processId = ids.filter fun id => (m.get? id).isSome := by
  induction ids with
  | nil => rfl
  | cons id rest ih =>
    cases hget : m.get? id with
    | none => simp [hget, ih]
    | some p => simp [hget, ih, hm.processId hget]

/-- A process that is added under its id leaves a manager keyed. -/
theorem Keyed.insert {w : World} {m : ProcessManager} (hm : m.Keyed w) {p : Ref .process}
    {q : Process} (hq : w.processes.get? p = some q) :
    Keyed w { m with processes := m.processes.insert q.id p } := by
  intro id r hr
  simp only [ProcessManager.get?, NameMap.get?_insert] at hr
  split at hr
  · next hid =>
    cases hr
    exact ⟨q, hq, hid⟩
  · exact hm id r hr

/-! ## Adding all processes of another manager -/

theorem addEach_launches (h : Host) (m : ProcessManager) (ps : List (Ref .process)) :
    Along World.Launches (m.addEach h ps) :=
  addEach_along .refl (fun _ _ _ => .trans) (World.start_launches h) m ps

/-- Processes that are added in ascending order of their ids all stand under these afterwards. -/
theorem addEach_ok {h : Host} {m m' : ProcessManager} {entries : List (String × Ref .process)}
    {w w' : World} {replaced : List (Ref .process)} (hasc : Ascending entries)
    (hkeyed : ∀ e ∈ entries, ∃ q, w.processes.get? e.2 = some q ∧ q.id = e.1)
    (hadd : m.addEach h (entries.map Prod.snd) w = .ok (replaced, m') w') :
    m' = { m with processes := m.processes.insertAll entries } ∧
      replaced = entries.filterMap fun e => m.get? e.1 := by
  induction entries generalizing m m' w w' replaced with
  | nil =>
    obtain ⟨hpair, -⟩ := pure_eq_ok.mp hadd
    cases hpair
    exact ⟨rfl, rfl⟩
  | cons e rest ih =>
    obtain ⟨id, p⟩ := e
    obtain ⟨hlt, hrest⟩ := Entries.ascending_cons.mp hasc
    obtain ⟨⟨old, m₁⟩, u, hfirst, hadd⟩ := bind_eq_ok.mp hadd
    obtain ⟨⟨others, m₂⟩, v, hothers, hpure⟩ := bind_eq_ok.mp hadd
    obtain ⟨hpair, -⟩ := pure_eq_ok.mp hpure
    cases hpair
    have hstart := (add_launches h m p true).of_ok hfirst
    obtain ⟨q, hq, hid⟩ := hkeyed (id, p) List.mem_cons_self
    have hp : w.processId p = id := by simp [World.processId, hq, hid]
    obtain ⟨hold, hm₁⟩ := add_ok hfirst
    rw [hp] at hold hm₁
    -- to start the first process leaves the others their ids
    have hkeyed' : ∀ e ∈ rest, ∃ q, u.processes.get? e.2 = some q ∧ q.id = e.1 := by
      intro e he
      obtain ⟨q, hq, hid⟩ := hkeyed e (List.mem_cons_of_mem _ he)
      obtain ⟨q', hq', hid'⟩ := hstart.processes e.2 q hq
      exact ⟨q', hq', hid'.trans hid⟩
    obtain ⟨hm₂, hreplaced⟩ := ih hrest hkeyed' hothers
    subst hm₁ hm₂ hold
    refine ⟨rfl, ?_⟩
    -- the ids that follow differ from the one just added
    have hsame : rest.filterMap (fun e => ProcessManager.get?
        { m with processes := m.processes.insert id p } e.1) =
          rest.filterMap fun e => m.get? e.1 := by
      refine List.filterMap_congr fun e he => ?_
      simp only [ProcessManager.get?, NameMap.get?_insert, if_neg (name_ne_of_lt (hlt e he))]
    rw [hreplaced, hsame]
    cases hget : m.get? id <;> simp [hget]

/-- What a manager is once it has taken all processes of a keyed one: the other's entries stand over
its own, and those that had to give way are reported. -/
theorem addAll_ok {h : Host} {m m' other : ProcessManager} {w w' : World}
    {replaced : List (Ref .process)} (hother : other.Keyed w)
    (hadd : m.addAll h other w = .ok (replaced, m') w') :
    m' = { m with processes := m.processes.override other.processes } ∧
      replaced = other.processes.entries.filterMap fun e => m.get? e.1 := by
  refine addEach_ok other.processes.ascending (fun e he => ?_) hadd
  exact hother e.1 e.2 ((NameMap.get?_eq_some_iff _).mpr he)

theorem addAll_launches (h : Host) (m other : ProcessManager) :
    Along World.Launches (m.addAll h other) :=
  addEach_launches h m _

/-- A manager with the entries of another over its own is keyed if both are. -/
theorem Keyed.override {w : World} {m other : ProcessManager} (hm : m.Keyed w)
    (hother : other.Keyed w) :
    Keyed w { m with processes := m.processes.override other.processes } := by
  intro id p hp
  simp only [ProcessManager.get?, NameMap.get?_override] at hp
  cases ho : other.processes.get? id with
  | some r =>
    rw [ho] at hp
    cases hp
    exact hother id p ho
  | none =>
    rw [ho] at hp
    exact hm id p hp

theorem Keyed.removeAll {w : World} {m : ProcessManager} (hm : m.Keyed w) (other : ProcessManager) :
    (m.removeAll other).Keyed w := by
  intro id p hp
  rw [get?_removeAll] at hp
  split at hp
  · cases hp
  · exact hm id p hp

end ProcessManager

end RobotHost
