import RobotHost.Proofs.Process.Managing

/-!
# Merging processes in place

A manager that others look at changes in place. A process is written under its id before it is
started, and if it does not start, what the id stood for is put back. A merge that fails at one
process takes back all entries that it wrote for others, the last first.

What comes of it is `ProcessManager.addAll` (`mergeInPlace_eq`): a merge that succeeds gives the same
manager and answer, and one that fails leaves the manager as it was. It fails just if the manager
was started and a process does not start (`addAll_error_iff`).
-/

namespace RobotHost

namespace World

/-! ## Starts that fail -/

/-- One of these processes does not start when they are started in turn. -/
def Stalls (h : Host) (ps : List (Ref .process)) (w : World) : Prop :=
  ∃ before p after u e v, ps = before ++ p :: after ∧ startEach h before w = .ok () u ∧
    start h p u = .error e v

/-- Where starts end early is at the first process that does not start. -/
theorem startEach_eq_error {h : Host} {ps : List (Ref .process)} {w u : World} {e : ProcessError}
    (hstart : startEach h ps w = .error e u) :
    ∃ before p after v, ps = before ++ p :: after ∧ startEach h before w = .ok () v ∧
      start h p v = .error e u := by
  induction ps generalizing w with
  | nil => cases hstart
  | cons p rest ih =>
    rcases bind_eq_error.mp hstart with hfirst | ⟨⟨⟩, t, hfirst, hrest⟩
    · exact ⟨[], p, rest, w, rfl, rfl, hfirst⟩
    · obtain ⟨before, q, after, v, rfl, hbefore, hfails⟩ := ih hrest
      exact ⟨p :: before, q, after, v, rfl, bind_eq_ok.mpr ⟨(), t, hfirst, hbefore⟩, hfails⟩

/-- Starts end early just if one of the processes does not start. -/
theorem stalls_iff {h : Host} {ps : List (Ref .process)} {w : World} :
    Stalls h ps w ↔ ∃ e u, startEach h ps w = .error e u := by
  constructor
  · rintro ⟨before, p, after, u, e, v, rfl, hbefore, hfails⟩
    refine ⟨e, v, ?_⟩
    induction before generalizing w with
    | nil =>
      obtain ⟨-, rfl⟩ := pure_eq_ok.mp hbefore
      exact bind_eq_error.mpr (.inl hfails)
    | cons first before ih =>
      obtain ⟨⟨⟩, t, hfirst, hbefore⟩ := bind_eq_ok.mp hbefore
      exact bind_eq_error.mpr (.inr ⟨(), t, hfirst, ih hbefore⟩)
  · rintro ⟨e, v, hstart⟩
    obtain ⟨before, p, after, u, hsplit, hbefore, hfails⟩ := startEach_eq_error hstart
    exact ⟨before, p, after, u, e, v, hsplit, hbefore, hfails⟩

end World

namespace ProcessManager

variable {h : Host} {m : ProcessManager} {w : World}

/-- To add a process over the one of its id fails only if it does not start. -/
theorem add_replacing (h : Host) (m : ProcessManager) (p : Ref .process) (w : World) :
    m.add h p true w =
      if m.started then
        match World.start h p w with
        | .ok () u => .ok (m.get? (w.processId p),
            { m with processes := m.processes.insert (w.processId p) p }) u
        | .error e u => .error e u
      else .ok (m.get? (w.processId p),
        { m with processes := m.processes.insert (w.processId p) p }) w := by
  rw [add_eq]
  simp only [Bool.not_true, Bool.false_and, Bool.false_eq_true, if_false]
  cases m.started with
  | false => rfl
  | true =>
    show EStateM.bind (World.start h p) _ w = _
    unfold EStateM.bind
    cases World.start h p w <;> rfl

/-- To add processes is to add the first, and then the others to the manager that has it. -/
theorem addEach_cons (h : Host) (m : ProcessManager) (p : Ref .process)
    (rest : List (Ref .process)) (w : World) :
    m.addEach h (p :: rest) w =
      match m.add h p true w with
      | .error e u => .error e u
      | .ok (previous, m') u =>
        match m'.addEach h rest u with
        | .ok (others, m'') v => .ok (previous.toList ++ others, m'') v
        | .error e v => .error e v := by
  show EStateM.bind (m.add h p true) _ w = _
  unfold EStateM.bind
  cases m.add h p true w with
  | error e u => rfl
  | ok x u =>
    show EStateM.bind (x.2.addEach h rest) _ u = _
    unfold EStateM.bind
    -- the answer of the first is put in front of those of the others
    cases hrest : x.2.addEach h rest u with
    | error e v => simp only [hrest]
    | ok y v =>
      simp only [hrest]
      rfl

/-- Whether a manager that was started can add processes is whether these start in turn. -/
theorem addEach_of_started (h : Host) (hm : m.started = true) (ps : List (Ref .process))
    (w : World) :
    World.startEach h ps w =
      match m.addEach h ps w with
      | .ok _ u => .ok () u
      | .error e u => .error e u := by
  induction ps generalizing m w with
  | nil => rfl
  | cons p rest ih =>
    rw [addEach_cons, add_replacing, if_pos hm]
    show EStateM.bind (World.start h p) _ w = _
    unfold EStateM.bind
    cases World.start h p w with
    | error e v => rfl
    | ok _ v =>
      simp only
      rw [ih (m := { m with processes := m.processes.insert (w.processId p) p }) hm v]
      cases addEach h _ rest v <;> rfl

/-- A manager that was not started takes any processes and starts nothing. -/
theorem addEach_of_not_started (h : Host) (hm : m.started = false) (ps : List (Ref .process))
    (w : World) : ∃ x, m.addEach h ps w = .ok x w := by
  induction ps generalizing m with
  | nil => exact ⟨_, rfl⟩
  | cons p rest ih =>
    have hfirst : ¬m.started = true := by simp [hm]
    obtain ⟨x, hrest⟩ := ih (m := { m with processes := m.processes.insert (w.processId p) p }) hm
    rw [addEach_cons, add_replacing, if_neg hfirst]
    simp only [hrest]
    exact ⟨_, rfl⟩

/-- A manager that was not started takes any processes, and one that was takes those that start. -/
theorem addEach_error_iff {ps : List (Ref .process)} :
    (∃ e w', m.addEach h ps w = .error e w') ↔ m.started = true ∧ World.Stalls h ps w := by
  rw [World.stalls_iff]
  cases hm : m.started with
  | false =>
    obtain ⟨x, hadd⟩ := addEach_of_not_started h hm ps w
    simp [hadd]
  | true =>
    rw [addEach_of_started h hm ps w]
    cases m.addEach h ps w <;> simp

/-- Adding all processes of a manager fails exactly if this one has started and a start stalls. -/
theorem addAll_error_iff {other : ProcessManager} :
    (∃ e w', m.addAll h other w = .error e w') ↔
      m.started = true ∧ World.Stalls h other.processes.values w := addEach_error_iff

/-! ## In place -/

/-- Puts back what an id stood for, if it stands for the process that was added. -/
def restore (m : ProcessManager) (id : String) (added : Ref .process)
    (previous : Option (Ref .process)) : ProcessManager :=
  if m.get? id = some added then
    match previous with
    | some p => { m with processes := m.processes.insert id p }
    | none => m.remove id
  else m

/-- Writes a process over the one of its id, and starts it if the manager was started. -/
def addInPlace (h : Host) (m : ProcessManager) (p : Ref .process) (w : World) :
    Except ProcessError (Option (Ref .process)) × ProcessManager × World :=
  let id := w.processId p
  let written := { m with processes := m.processes.insert id p }
  if m.started then
    match World.start h p w with
    | .ok () w => (.ok (m.get? id), written, w)
    | .error e w => (.error e, written.restore id p (m.get? id), w)
  else (.ok (m.get? id), written, w)

/-- Writes processes in turn. Once one fails, those before it are taken back from the last on. -/
def addEachInPlace (h : Host) (m : ProcessManager) : List (Ref .process) → World →
    Except ProcessError (List (Ref .process)) × ProcessManager × World
  | [], w => (.ok [], m, w)
  | p :: rest, w =>
    match m.addInPlace h p w with
    | (.error e, m, w) => (.error e, m, w)
    | (.ok previous, m, u) =>
      match addEachInPlace h m rest u with
      | (.ok others, m, v) => (.ok (previous.toList ++ others), m, v)
      | (.error e, m, v) => (.error e, m.restore (w.processId p) p previous, v)

/-- Writes all processes of another manager. -/
def mergeInPlace (h : Host) (m other : ProcessManager) (w : World) :
    Except ProcessError (List (Ref .process)) × ProcessManager × World :=
  m.addEachInPlace h other.processes.values w

/-- An entry that was written is taken back. -/
theorem restore_insert (m : ProcessManager) (id : String) (p : Ref .process) :
    restore { m with processes := m.processes.insert id p } id p (m.get? id) = m := by
  obtain ⟨processes, started⟩ := m
  have hadded : get? ⟨processes.insert id p, started⟩ id = some p :=
    NameMap.get?_insert_self processes id p
  unfold restore
  rw [if_pos hadded]
  cases hprevious : get? ⟨processes, started⟩ id with
  | some q =>
    -- what was there under the id comes back
    have hsame : (processes.insert id p).insert id q = processes := by
      refine NameMap.ext_get? fun name => ?_
      rw [NameMap.get?_insert, NameMap.get?_insert]
      by_cases hname : id = name
      · subst hname
        rw [if_pos rfl]
        exact hprevious.symm
      · rw [if_neg hname, if_neg hname]
    simp only [hsame]
  | none =>
    have hsame : (processes.insert id p).erase id = processes := by
      refine NameMap.ext_get? fun name => ?_
      rw [NameMap.get?_erase, NameMap.get?_insert]
      by_cases hname : id = name
      · subst hname
        rw [if_pos rfl]
        exact hprevious.symm
      · rw [if_neg hname, if_neg hname]
    simp only [remove, hsame]

/-- To add a process in place either succeeds or leaves the manager as it was. -/
theorem addInPlace_eq (h : Host) (m : ProcessManager) (p : Ref .process) (w : World) :
    m.addInPlace h p w =
      match m.add h p true w with
      | .ok (previous, m') u => (.ok previous, m', u)
      | .error e u => (.error e, m, u) := by
  rw [add_replacing]
  unfold addInPlace
  by_cases hm : m.started = true
  · simp only [if_pos hm]
    cases World.start h p w with
    | ok _ u => rfl
    | error e u => simp only [restore_insert]
  · simp only [if_neg hm]

/-- In place, what was added before a failure is taken out again, the last first. -/
theorem addEachInPlace_eq (h : Host) (m : ProcessManager) (ps : List (Ref .process)) (w : World) :
    m.addEachInPlace h ps w =
      match m.addEach h ps w with
      | .ok (replaced, m') u => (.ok replaced, m', u)
      | .error e u => (.error e, m, u) := by
  induction ps generalizing m w with
  | nil => rfl
  | cons p rest ih =>
    rw [addEachInPlace, addInPlace_eq, addEach_cons]
    cases hadd : m.add h p true w with
    | error e u => rfl
    | ok x u =>
      obtain ⟨previous, m'⟩ := x
      obtain ⟨rfl, rfl⟩ := add_ok hadd
      simp only [ih]
      -- the manager that the others leave as it was is the one with the first
      cases addEach h _ rest u with
      | ok y v => rfl
      | error e v => simp only [restore_insert]

/-- What comes of a merge in place is what `addAll` says. -/
theorem mergeInPlace_eq (h : Host) (m other : ProcessManager) (w : World) :
    m.mergeInPlace h other w =
      match m.addAll h other w with
      | .ok (replaced, m') u => (.ok replaced, m', u)
      | .error e u => (.error e, m, u) := addEachInPlace_eq h m _ w

end ProcessManager

end RobotHost
