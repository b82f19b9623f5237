import RobotHost.Proofs.Process.Restoring

/-!
# Where processes go

No process is lost when one manager takes those of another. Each process that is added takes the
place of the one of its id, if any, which is reported; so what a merge leaves in the manager and what
it reports are together just what both managers had (`addEach_conserves`).

A merge that fails does so at the first process that does not start, asks no later one to start and
leaves the manager as it was. `ProcessManager.merge_conserves` says both, for all managers that were
put together by the operations on managers (`ProcessManager.Assembled`).
-/

namespace RobotHost

open scoped List

/-! ## Values that give way -/

/-- A value that is written takes the place of the one under its name, if any. -/
theorem Entries.insert_perm {α : Type} {entries : List (String × α)} (hasc : Ascending entries)
    (name : String) (x : α) :
    (insert entries name x).map Prod.snd ++ (find? entries name).toList ~
      x :: entries.map Prod.snd := by
  induction entries with
  | nil => exact .refl _
  | cons e rest ih =>
    obtain ⟨k, v⟩ := e
    obtain ⟨hlt, hrest⟩ := ascending_cons.mp hasc
    rw [insert]
    split
    · next hbefore =>
      -- the entries ascend, so the name cannot come later
      have hnone : find? ((k, v) :: rest) name = none := by
        refine find?_eq_none_of_forall_lt fun e he => ?_
        rcases List.mem_cons.mp he with rfl | he
        · exact hbefore
        · exact String.lt_trans hbefore (hlt e he)
      rw [hnone]
      exact .of_eq (List.append_nil _)
    · split
      · next heq =>
        rw [find?, if_pos heq.symm]
        exact (List.perm_append_singleton v _).trans (.swap x v _)
      · next hne =>
        rw [find?, if_neg fun h => hne h.symm]
        exact ((ih hrest).cons v).trans (.swap x v _)

/-- To write an entry puts one value in the place of another, if the name had one. -/
theorem NameMap.insert_perm {α : Type} (m : NameMap α) (name : String) (x : α) :
    (m.insert name x).values ++ (m.get? name).toList ~ x :: m.values :=
  Entries.insert_perm m.ascending name x

/-! ## Starts -/

namespace World

variable {h : Host} {w u : World}

/-- A process that is there is still there once others were started. -/
theorem Launches.known (hw : w.Launches u) {p : Ref .process}
    (hp : ∃ q, w.processes.get? p = some q) : ∃ q, u.processes.get? p = some q := by
  obtain ⟨q, hq⟩ := hp
  obtain ⟨q', hq', -⟩ := hw.processes p q hq
  exact ⟨q', hq'⟩

/-- A process that is asked to start shows up in the log, whether it starts or not. -/
theorem start_log {p : Ref .process} {q : Process} (hq : w.processes.get? p = some q) :
    (stateAfter (start h p w)).log = w.log ++ [.started p] := by
  rw [start, hq]
  simp only
  split <;> rfl

/-- Processes that all start show up in the log in turn. -/
theorem startEach_log {ps : List (Ref .process)}
    (hps : ∀ p ∈ ps, ∃ q, w.processes.get? p = some q) (hstart : startEach h ps w = .ok () u) :
    u.log = w.log ++ ps.map .started := by
  induction ps generalizing w with
  | nil =>
    obtain ⟨-, rfl⟩ := pure_eq_ok.mp hstart
    exact (List.append_nil _).symm
  | cons p rest ih =>
    obtain ⟨⟨⟩, v, hfirst, hrest⟩ := bind_eq_ok.mp hstart
    obtain ⟨q, hq⟩ := hps p List.mem_cons_self
    have hlog : v.log = w.log ++ [.started p] := by
      have hlog := start_log (h := h) hq
      rwa [hfirst] at hlog
    have hothers : ∀ r ∈ rest, ∃ q, v.processes.get? r = some q := fun r hr =>
      ((start_launches h p).of_ok hfirst).known (hps r (List.mem_cons_of_mem _ hr))
    rw [ih hothers hrest, hlog, List.append_assoc]
    rfl

end World

namespace ProcessManager

variable {h : Host} {m m' other : ProcessManager} {w u : World} {replaced : List (Ref .process)}

/-! ## What is added -/

/-- What is left in the manager and what is reported are together what the manager had and what was
added. -/
theorem addEach_conserves {ps : List (Ref .process)}
    (hadd : m.addEach h ps w = .ok (replaced, m') u) :
    m'.processes.values ++ replaced ~ m.processes.values ++ ps := by
  induction ps generalizing m w replaced with
  | nil =>
    obtain ⟨hpair, -⟩ := pure_eq_ok.mp hadd
    cases hpair
    exact .refl _
  | cons p rest ih =>
    obtain ⟨⟨previous, m₁⟩, v, hfirst, hadd⟩ := bind_eq_ok.mp hadd
    obtain ⟨⟨others, m₂⟩, t, hothers, hpure⟩ := bind_eq_ok.mp hadd
    obtain ⟨hpair, rfl⟩ := pure_eq_ok.mp hpure
    cases hpair
    obtain ⟨rfl, rfl⟩ := add_ok hfirst
    have hdisplaced := m.processes.insert_perm (w.processId p) p
    -- what the first displaces is reported before what the others do
    calc m'.processes.values ++ ((m.get? (w.processId p)).toList ++ others)
      _ ~ m'.processes.values ++ others ++ (m.get? (w.processId p)).toList := by
        rw [List.append_assoc]
        exact List.perm_append_comm.append_left _
      _ ~ (m.processes.insert (w.processId p) p).values ++ rest ++
          (m.get? (w.processId p)).toList := (ih hothers).append_right _
      _ ~ (m.processes.insert (w.processId p) p).values ++
          (m.get? (w.processId p)).toList ++ rest := by
        rw [List.append_assoc, List.append_assoc]
        exact List.perm_append_comm.append_left _
      _ ~ p :: m.processes.values ++ rest := hdisplaced.append_right _
      _ ~ m.processes.values ++ p :: rest := List.perm_middle.symm

/-! ## Single processes in place -/

/-- Writes a process under its id, which has to be free unless the process may `replace` another. If
the manager was started, the process is started. -/
def takeInPlace (h : Host) (m : ProcessManager) (p : Ref .process) (replace : Bool) (w : World) :
    Except ProcessError (Option (Ref .process)) × ProcessManager × World :=
  if !replace && m.processes.contains (w.processId p) then
    (.error (.alreadyExists (w.processId p)), m, w)
  else m.addInPlace h p w

/-- An id that is free, or may be taken, makes no difference to how a process is added. -/
theorem add_of_free {p : Ref .process} {replace : Bool}
    (hfree : ¬(!replace && m.processes.contains (w.processId p)) = true) :
    m.add h p replace w = m.add h p true w := by
  have htrue : ¬(!true && m.processes.contains (w.processId p)) = true := by simp
  rw [add_eq, if_neg hfree, add_eq, if_neg htrue]

/-- To add a process in place either succeeds or leaves the manager as it was. -/
theorem takeInPlace_eq (h : Host) (m : ProcessManager) (p : Ref .process) (replace : Bool)
    (w : World) :
    m.takeInPlace h p replace w =
      match m.add h p replace w with
      | .ok (previous, m') u => (.ok previous, m', u)
      | .error e u => (.error e, m, u) := by
  unfold takeInPlace
  by_cases htaken : (!replace && m.processes.contains (w.processId p)) = true
  · rw [if_pos htaken, add_eq, if_pos htaken]
  · rw [if_neg htaken, add_of_free htaken]
    exact addInPlace_eq h m p w

/-- A process is not added if its id is taken and may not be, or if it does not start. -/
theorem add_eq_error {p : Ref .process} {replace : Bool} {e : ProcessError}
    (hadd : m.add h p replace w = .error e u) :
    (replace = false ∧ w.processId p ∈ m.processes.names ∧ e = .alreadyExists (w.processId p) ∧
        u = w) ∨
      m.started = true ∧ World.start h p w = .error e u := by
  -- only an id that is taken or a start that fails can be the reason
  by_cases htaken : (!replace && m.processes.contains (w.processId p)) = true
  · rw [add_eq, if_pos htaken] at hadd
    obtain ⟨rfl, rfl⟩ := EStateM.Result.error.inj hadd
    obtain ⟨hreplace, hcontains⟩ := Bool.and_eq_true_iff.mp htaken
    exact .inl ⟨by simpa using hreplace, (NameMap.contains_iff _).mp hcontains, rfl, rfl⟩
  · rw [add_of_free htaken, add_replacing] at hadd
    split at hadd
    · next hm =>
      cases hstart : World.start h p w with
      | ok _ v =>
        rw [hstart] at hadd
        cases hadd
      | error e' v =>
        rw [hstart] at hadd
        obtain ⟨rfl, rfl⟩ := EStateM.Result.error.inj hadd
        exact .inr ⟨hm, rfl⟩
    · cases hadd

/-! ## All managers -/

/-- These managers were put together by the operations on managers. Between these, anything may
happen to the world as long as processes stay and keep their ids. -/
inductive Assembled (h : Host) : List ProcessManager → World → Prop
  /-- No manager is at hand. -/
  | start (w : World) : Assembled h [] w
  | new {ms : List ProcessManager} {w : World} (hms : Assembled h ms w) : Assembled h ({} :: ms) w
  /-- Managers are copied and dropped. -/
  | subset {ms ms' : List ProcessManager} {w : World} (hms : Assembled h ms w) (hsub : ms' ⊆ ms) :
    Assembled h ms' w
  | elapse {ms : List ProcessManager} {w w' : World} (hms : Assembled h ms w)
    (hw : ∀ p q, w.processes.get? p = some q →
      ∃ q', w'.processes.get? p = some q' ∧ q'.id = q.id) : Assembled h ms w'
  | add {m m' : ProcessManager} {ms : List ProcessManager} {w w' : World} {p : Ref .process}
    {q : Process} {replace : Bool} {previous : Option (Ref .process)}
    (hms : Assembled h (m :: ms) w) (hp : w.processes.get? p = some q)
    (hadd : m.add h p replace w = .ok (previous, m') w') : Assembled h (m' :: ms) w'
  | addAll {m m' other : ProcessManager} {ms : List ProcessManager} {w w' : World}
    {replaced : List (Ref .process)} (hms : Assembled h (m :: ms) w) (hother : other ∈ m :: ms)
    (hadd : m.addAll h other w = .ok (replaced, m') w') : Assembled h (m' :: ms) w'
  | remove {m : ProcessManager} {ms : List ProcessManager} {w : World}
    (hms : Assembled h (m :: ms) w) (id : String) : Assembled h (m.remove id :: ms) w
  | removeAll {m : ProcessManager} {ms : List ProcessManager} {w : World}
    (hms : Assembled h (m :: ms) w) (other : ProcessManager) :
    Assembled h (m.removeAll other :: ms) w
  | startedUp {m : ProcessManager} {ms : List ProcessManager} {w : World}
    (hms : Assembled h (m :: ms) w) : Assembled h (m.startedUp :: ms) w
  | shutDown {m : ProcessManager} {ms : List ProcessManager} {w : World}
    (hms : Assembled h (m :: ms) w) : Assembled h (m.shutDown :: ms) w

theorem Keyed.remove (hm : m.Keyed w) (id : String) : (m.remove id).Keyed w := by
  intro name p hp
  rw [get?_remove] at hp
  split at hp
  · cases hp
  · exact hm name p hp

/-- A process of the world that is added stands under its id. -/
theorem Keyed.add {p : Ref .process} {q : Process} {replace : Bool}
    {previous : Option (Ref .process)} (hm : m.Keyed w) (hp : w.processes.get? p = some q)
    (hadd : m.add h p replace w = .ok (previous, m') u) : m'.Keyed u := by
  obtain ⟨-, rfl⟩ := add_ok hadd
  have hid : w.processId p = q.id := by rw [World.processId, hp]; rfl
  rw [hid]
  exact (hm.insert hp).mono ((add_launches h m p replace).of_ok hadd).processes

/-- Processes come under their own ids, whatever their old manager held them under. -/
theorem Keyed.addAll (hm : m.Keyed w) (hother : other.Keyed w)
    (hadd : m.addAll h other w = .ok (replaced, m') u) : m'.Keyed u := by
  obtain ⟨rfl, -⟩ := addAll_ok hother hadd
  exact (hm.override hother).mono ((addAll_launches h m other).of_ok hadd).processes

/-- One of several keyed managers gives way to another, and the world moves on. -/
theorem forall_keyed_cons {ms : List ProcessManager} (hkeyed : ∀ x ∈ m :: ms, Keyed w x)
    (hm : m.Keyed w → m'.Keyed u) (hw : ∀ x : ProcessManager, x.Keyed w → x.Keyed u) :
    ∀ x ∈ m' :: ms, Keyed u x := by
  obtain ⟨hfirst, hrest⟩ := List.forall_mem_cons.mp hkeyed
  exact List.forall_mem_cons.mpr ⟨hm hfirst, fun x hx => hw x (hrest x hx)⟩

/-- However managers were put together, each process stands under its own id. -/
theorem Assembled.keyed {ms : List ProcessManager} (hms : Assembled h ms w) :
    ∀ m ∈ ms, m.Keyed w := by
  induction hms with
  | start => simp
  | @new ms w _ ih => exact List.forall_mem_cons.mpr ⟨keyed_empty w, ih⟩
  | subset _ hsub ih => exact fun m hm => ih m (hsub hm)
  | elapse _ hw ih => exact fun m hm => (ih m hm).mono hw
  -- to start a process may change it, but not its id
  | @add m _ _ _ _ p _ replace _ _ hp hadd ih =>
    have hlaunches := (add_launches h m p replace).of_ok hadd
    exact forall_keyed_cons ih (fun hm => hm.add hp hadd) fun _ hx => hx.mono hlaunches.processes
  | @addAll m _ other _ _ _ _ _ hother hadd ih =>
    have hlaunches := (addAll_launches h m other).of_ok hadd
    exact forall_keyed_cons ih (fun hm => hm.addAll (ih other hother) hadd)
      fun _ hx => hx.mono hlaunches.processes
  | remove _ id ih => exact forall_keyed_cons ih (fun hm => hm.remove id) fun _ hx => hx
  | removeAll _ other ih => exact forall_keyed_cons ih (fun hm => hm.removeAll other) fun _ hx => hx
  | startedUp _ ih => exact forall_keyed_cons ih (fun hm => hm) fun _ hx => hx
  | shutDown _ ih => exact forall_keyed_cons ih (fun hm => hm) fun _ hx => hx

/-! ## What comes of a merge -/

/-- A manager has taken all processes of another. -/
structure Merged (h : Host) (m other : ProcessManager) (w : World) (replaced : List (Ref .process))
    (m' : ProcessManager) (u : World) : Prop where
  /-- This is what comes of writing the processes one by one. -/
  inPlace : m.mergeInPlace h other w = (.ok replaced, m', u)
  entries : ∀ id, m'.get? id = (other.get? id).or (m.get? id)
  started : m'.started = m.started
  /-- The other manager is as it was, also if it is this one. -/
  source : other = m → m' = m
  /-- What is reported is what the manager had under ids of the other, by ascending id. -/
  reported : replaced = m.shared other
  /-- Nothing is lost and nothing doubled. -/
  conserved : m'.processes.values ++ replaced ~ m.processes.values ++ other.processes.values
  /-- Each process of two managers that share none is in just one place afterwards. -/
  once : m.processes.values.Disjoint other.processes.values →
    (m'.processes.values ++ replaced).Nodup
  /-- If the manager was started, all that were added were asked to start, and did. -/
  starts : if m.started then
      World.startEach h other.processes.values w = .ok () u ∧
        u.log = w.log ++ other.processes.values.map .started
    else u = w

/-- A manager could not take the processes of another. -/
structure Unmerged (h : Host) (m other : ProcessManager) (w : World) (e : ProcessError)
    (u : World) : Prop where
  /-- All that was written is taken back. -/
  inPlace : m.mergeInPlace h other w = (.error e, m, u)
  started : m.started = true
  /-- Those before the first that does not start did start, and none after it was asked to. -/
  first : ∃ before p after v, other.processes.values = before ++ p :: after ∧
    World.startEach h before w = .ok () v ∧ World.start h p v = .error e u ∧
    u.log = w.log ++ (before ++ [p]).map .started

/-- A merge that succeeds has taken all processes, and reports those that gave way. -/
theorem merged_of_ok (hm : m.Keyed w) (hother : other.Keyed w)
    (hadd : m.addAll h other w = .ok (replaced, m') u) : Merged h m other w replaced m' u := by
  obtain ⟨hm', hreplaced⟩ := addAll_ok hother hadd
  have hentries : ∀ id, m'.get? id = (other.get? id).or (m.get? id) := by
    intro id
    rw [hm']
    exact NameMap.get?_override _ _ id
  have hconserved := addEach_conserves hadd
  refine ⟨?_, hentries, by rw [hm'], ?_, ?_, hconserved, ?_, ?_⟩
  · rw [mergeInPlace_eq, hadd]
  · rintro rfl
    rw [hm']
    have hsame : other.processes.override other.processes = other.processes :=
      NameMap.ext_get? fun id => by rw [NameMap.get?_override, Option.or_self]
    rw [hsame]
  · rw [hreplaced, shared, NameMap.names, List.filterMap_map]
    rfl
  · intro hdisjoint
    exact hconserved.nodup_iff.mpr (hm.nodup_values.append hother.nodup_values hdisjoint)
  -- a manager that was started starts what it takes; another takes it as it is
  · split
    · next hstarted =>
      have hstart := addEach_of_started h hstarted other.processes.values w
      rw [addAll] at hadd
      rw [hadd] at hstart
      exact ⟨hstart, World.startEach_log (fun p hp => hother.known hp) hstart⟩
    · next hstarted =>
      obtain ⟨x, hstays⟩ := addEach_of_not_started h (Bool.eq_false_iff.mpr hstarted)
        other.processes.values w
      rw [addAll, hstays] at hadd
      cases hadd
      rfl

/-- A merge that fails stops at the first process that does not start. -/
theorem unmerged_of_error {e : ProcessError} (hother : other.Keyed w)
    (hadd : m.addAll h other w = .error e u) : Unmerged h m other w e u := by
  have hstarted : m.started = true := (addAll_error_iff.mp ⟨e, u, hadd⟩).1
  have hstart := addEach_of_started h hstarted other.processes.values w
  have hinPlace : m.mergeInPlace h other w = (.error e, m, u) := by rw [mergeInPlace_eq, hadd]
  rw [addAll] at hadd
  rw [hadd] at hstart
  obtain ⟨before, p, after, v, hsplit, hbefore, hfails⟩ := World.startEach_eq_error hstart
  refine ⟨hinPlace, hstarted, before, p, after, v, hsplit, hbefore, hfails, ?_⟩
  have hknown : ∀ r ∈ before ++ p :: after, ∃ q, w.processes.get? r = some q := by
    rw [← hsplit]
    exact fun r hr => hother.known hr
  have hlog := World.startEach_log (fun r hr => hknown r (List.mem_append_left _ hr)) hbefore
  -- the one that does not start is asked to
  obtain ⟨q, hq⟩ := ((World.startEach_launches h before).of_ok hbefore).known
    (hknown p (List.mem_append_right _ List.mem_cons_self))
  have hlast := World.start_log (h := h) hq
  rw [hfails] at hlast
  rw [List.map_append, ← List.append_assoc, ← hlog]
  exact hlast

/-- Between managers that were put together by the operations on managers, a merge succeeds or
leaves the manager as it was, and no process is lost; it fails just if the manager was started and a
process does not start. A single process that is not added leaves the manager as it was too. -/
theorem merge_conserves {ms : List ProcessManager} (hms : Assembled h ms w) (hm : m ∈ ms)
    (hother : other ∈ ms) :
    (∀ replaced m' u, m.addAll h other w = .ok (replaced, m') u →
      Merged h m other w replaced m' u) ∧
    (∀ e u, m.addAll h other w = .error e u → Unmerged h m other w e u) ∧
    ((∃ e u, m.addAll h other w = .error e u) ↔
      m.started = true ∧ World.Stalls h other.processes.values w) ∧
    ∀ p replace e u, m.add h p replace w = .error e u →
      m.takeInPlace h p replace w = (.error e, m, u) ∧
        ((replace = false ∧ w.processId p ∈ m.processes.names ∧
            e = .alreadyExists (w.processId p) ∧ u = w) ∨
          m.started = true ∧ World.start h p w = .error e u) := by
  refine ⟨fun replaced m' u hadd => merged_of_ok (hms.keyed m hm) (hms.keyed other hother) hadd,
    fun e u hadd => unmerged_of_error (hms.keyed other hother) hadd, addAll_error_iff, ?_⟩
  intro p replace e u hadd
  refine ⟨?_, add_eq_error hadd⟩
  rw [takeInPlace_eq, hadd]

namespace Sample

def host : Host := ⟨fun _ _ => .exited 0, fun _ _ => none, fun _ _ => none⟩

/-- Two services of one id, and one of another that never starts. -/
def services : World :=
  { processes := ⟨[.service ⟨"lidar", fun _ _ => none, 0⟩, .service ⟨"lidar", fun _ _ => none, 0⟩,
      .service ⟨"radio", fun _ _ => some "no antenna", 0⟩]⟩ }

def resting : ProcessManager := { processes := NameMap.ofList [("lidar", ⟨0⟩)] }

def incoming : ProcessManager :=
  { processes := NameMap.ofList [("lidar", ⟨1⟩), ("radio", ⟨2⟩)] }

theorem assembled : Assembled host [resting.startedUp, resting, incoming] services := by
  have hincoming : Assembled host [incoming] services :=
    .add (p := ⟨2⟩) (.add (p := ⟨1⟩) (.new (.start services)) rfl
      (rfl : ProcessManager.add host {} ⟨1⟩ false services = _)) rfl
      (rfl : ProcessManager.add host _ ⟨2⟩ false services = _)
  have hresting : Assembled host [resting, incoming] services :=
    .add (p := ⟨0⟩) (.new hincoming) rfl (rfl : ProcessManager.add host {} ⟨0⟩ false services = _)
  exact .startedUp (.subset hresting (by simp))

end Sample

/-- The second service of the first id takes the place of the first. If the manager was started, it
has to give the place back. -/
theorem merge_conserves_sample :
    (∃ m', Sample.resting.addAll Sample.host Sample.incoming Sample.services =
        .ok ([⟨0⟩], m') Sample.services ∧
      m'.processes.values ++ [⟨0⟩] ~ [⟨0⟩, ⟨1⟩, ⟨2⟩]) ∧
    ∃ u, Sample.resting.startedUp.mergeInPlace Sample.host Sample.incoming Sample.services =
        (.error (.failed "radio" "no antenna"), Sample.resting.startedUp, u) ∧
      u.log = [.started ⟨1⟩, .started ⟨2⟩] := by
  have hincoming : Sample.incoming ∈
      [Sample.resting.startedUp, Sample.resting, Sample.incoming] := by simp
  obtain ⟨hmerged, -, -, -⟩ := merge_conserves (m := Sample.resting) Sample.assembled (by simp)
    hincoming
  obtain ⟨-, hunmerged, -, -⟩ := merge_conserves (m := Sample.resting.startedUp) Sample.assembled
    (by simp) hincoming
  constructor
  · have hadd : ∃ m', Sample.resting.addAll Sample.host Sample.incoming Sample.services =
        .ok ([⟨0⟩], m') Sample.services := ⟨_, rfl⟩
    obtain ⟨m', hadd⟩ := hadd
    exact ⟨m', hadd, (hmerged _ _ _ hadd).conserved⟩
  · have hadd : ∃ u, Sample.resting.startedUp.addAll Sample.host Sample.incoming Sample.services =
        .error (.failed "radio" "no antenna") u ∧ u.log = [.started ⟨1⟩, .started ⟨2⟩] :=
      ⟨_, rfl, rfl⟩
    obtain ⟨u, hadd, hlog⟩ := hadd
    exact ⟨u, (hunmerged _ _ hadd).inPlace, hlog⟩

end ProcessManager

end RobotHost
