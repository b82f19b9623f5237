import RobotHost.Proofs.Graph.Running
import RobotHost.Proofs.Process.Restarting

/-!
# What a build asks of the host

A build launches the processes of its configuration one after the other, by ascending id, and each is
started for the first time then. So the host is called once for each, and the process at the `i`-th
place in the order of the ids by the `i`-th call (`Build.launch_decided`).
-/

namespace RobotHost

/-! ## First starts -/

/-- A new program starts well by this call on the host. -/
def ProcessConfig.Starts (h : Host) (call : Nat) (c : ProcessConfig) : Prop :=
  if c.oneShot then h.run call c = .exited 0 else h.spawn call c = none

/-- A new program makes one call on the host. -/
theorem Program.start_new (h : Host) (call : Nat) (c : ProcessConfig) :
    ((start h call { config := c }).outcome = .ok () ↔ c.Starts h call) ∧
      (start h call { config := c }).nextCall = call + 1 := by
  unfold ProcessConfig.Starts
  cases honce : c.oneShot with
  | true =>
    have hd : demand? { config := c } .start = some .run := by simp [demand?, honce]
    have heq : start h call { config := c } = _ := send_eq h call { config := c } .start
    rw [heq, hd]
    exact ⟨Demand.answer_run_eq_ok, rfl⟩
  | false =>
    have hd : demand? { config := c } .start = some .spawn := by simp [demand?, honce]
    have heq : start h call { config := c } = _ := send_eq h call { config := c } .start
    rw [heq, hd]
    simp only [Demand.answer, Bool.false_eq_true, if_false]
    cases h.spawn call c <;> simp

/-- A process that is a new program starts just if the program does, by the next call. -/
theorem World.start_new {h : Host} {p : Ref .process} {w : World} {c : ProcessConfig}
    (hp : w.processes.get? p = some (.program { config := c })) :
    ((∃ u, start h p w = .ok () u) ↔ c.Starts h w.hostCalls) ∧
      (stateAfter (start h p w)).hostCalls = w.hostCalls + 1 := by
  obtain ⟨hstarts, hcalls⟩ := Program.start_new h w.hostCalls c
  rw [start_program hp, ← hstarts, ← hcalls]
  simp only
  cases (Program.start h w.hostCalls { config := c }).outcome with
  | ok => exact ⟨iff_of_true ⟨_, rfl⟩ rfl, rfl⟩
  | error e => exact ⟨by simp, rfl⟩

namespace Build

variable {env : Environment} {s t u : Site} {x : Step} {done : List Step} {w : World}

/-- A run of several steps took each of them where those before it had led. -/
theorem Run.split {before after : List Step} (h : Run env s (before ++ x :: after) (.ok () t)) :
    ∃ u v, Run env s before (.ok () u) ∧ x.Takes env u v := by
  induction before generalizing s with
  | nil =>
    cases h with
    | takes hx _ => exact ⟨s, _, .done s, hx⟩
  | cons y before ih =>
    cases h with
    | takes hy hrest =>
      obtain ⟨u, v, hbefore, hx⟩ := ih hrest
      exact ⟨u, v, .takes hy hbefore, hx⟩

/-! ## Processes of a run -/

namespace Step

/-- The process that a step registers. -/
def register? : Step → Option ProcessConfig
  | register c => some c
  | _ => none

/-- The process that a step launches, by its id. -/
def launch? : Step → Option String
  | launch id => some id
  | _ => none

/-- A step has to do with processes. -/
def OfProcess : Step → Prop
  | register _ | ready | launch _ => True
  | connect _ | board _ | component _ | function _ => False

end Step

/-- The processes that were registered. -/
def registered (done : List Step) : List ProcessConfig := done.filterMap Step.register?

theorem mem_registered {c : ProcessConfig} : c ∈ registered done ↔ .register c ∈ done := by
  simp only [registered, List.mem_filterMap]
  constructor
  · rintro ⟨x, hx, hc⟩
    cases x <;> cases hc
    exact hx
  · exact fun h => ⟨_, h, rfl⟩

/-- Processes of distinct ids were registered. -/
theorem Run.distinct (h : Run env ⟨{}, w⟩ done (.ok () t)) :
    ((registered done).map ProcessConfig.id).Nodup := by
  have hall : Made env w done t ∧ ((registered done).map ProcessConfig.id).Nodup := by
    refine h.holds (P := fun done t => Made env w done t ∧
      ((registered done).map ProcessConfig.id).Nodup) ⟨made_nil env w, List.nodup_nil⟩ ?_
    rintro done x t u ⟨hmade, hdistinct⟩ hx
    refine ⟨hmade.step hx, ?_⟩
    rw [registered, List.filterMap_append, List.map_append]
    cases hx with
    | @register g v c hstarted hfree =>
      -- the manager has all ids that were registered, and not this one
      refine List.nodup_append.mpr ⟨hdistinct, List.nodup_singleton _, ?_⟩
      intro id hid other hother
      obtain rfl : other = c.id := List.mem_singleton.mp hother
      rintro rfl
      obtain ⟨d, hd, hdid⟩ := List.mem_map.mp hid
      exact hfree ((hmade.processes c.id).mpr ⟨d, mem_registered.mp hd, hdid⟩)
    | ready | launch | connect | board | component | function =>
      exact (List.append_nil _).symm ▸ hdistinct
  exact hall.2

/-- The processes that were launched, by their ids. -/
def launched (done : List Step) : List String := done.filterMap Step.launch?

@[simp]
theorem launched_append (xs ys : List Step) : launched (xs ++ ys) = launched xs ++ launched ys :=
  List.filterMap_append

@[simp]
theorem launched_cons (x : Step) (xs : List Step) :
    launched (x :: xs) = x.launch?.toList ++ launched xs := by
  cases hx : x.launch? <;> simp [launched, hx]

/-- Each launch came to one call, and what was not launched yet was never started. -/
structure Launching (w : World) (done : List Step) (t : Site) : Prop where
  calls : t.world.hostCalls = w.hostCalls + (launched done).length
  waiting : ∀ id p, t.graph.manager.get? id = some p → id ∉ launched done →
    ∃ c, .register c ∈ done ∧ c.id = id ∧
      t.world.processes.get? p = some (.program { config := c })

/-- One more step on processes either calls the host for a launch, or does not call it. -/
theorem Launching.step (ht : Launching w done t) (hkeyed : t.graph.manager.Keyed t.world)
    (hx : x.Takes env t u) (hprocess : x.OfProcess) (hnew : (launched (done ++ [x])).Nodup) :
    Launching w (done ++ [x]) u := by
  have hlaunched : launched (done ++ [x]) = launched done ++ x.launch?.toList := by
    rw [launched_append, launched_cons]
    exact congrArg _ (List.append_nil _)
  rw [hlaunched] at hnew
  cases hx with
  | @register g v c =>
    refine ⟨?_, fun id p hp hid => ?_⟩
    · rw [hlaunched]
      show v.hostCalls = _
      simpa [Step.launch?] using ht.calls
    · simp only [ProcessManager.get?, NameMap.get?_insert] at hp
      show ∃ d, _ ∧ _ ∧ (v.processes.push (.program { config := c })).get? p = _
      rw [Table.get?_push]
      split at hp
      · next heq =>
        cases hp
        exact ⟨c, by simp, heq, if_pos rfl⟩
      · -- a process that was registered before is not the new one
        rw [hlaunched, List.mem_append, not_or] at hid
        obtain ⟨d, hd, hdid, hget⟩ := ht.waiting id p hp hid.1
        have hne : p ≠ v.processes.next := by
          rintro rfl
          rw [Table.get?_next] at hget
          cases hget
        exact ⟨d, List.mem_append_left _ hd, hdid, (if_neg hne).trans hget⟩
  | @ready g v =>
    refine ⟨?_, fun id p hp hid => ?_⟩
    · rw [hlaunched]
      simpa [Step.launch?] using ht.calls
    · rw [hlaunched, List.mem_append, not_or] at hid
      obtain ⟨d, hd, hrest⟩ := ht.waiting id p hp hid.1
      exact ⟨d, List.mem_append_left _ hd, hrest⟩
  | @launch g v v' id p hp hstart =>
    have hfresh : id ∉ launched done := fun hmem =>
      (List.nodup_append.mp hnew).2.2 id hmem id (by simp [Step.launch?]) rfl
    obtain ⟨c, -, -, hget⟩ := ht.waiting id p hp hfresh
    have hcalls : v'.hostCalls = v.hostCalls + 1 := by
      have h := (World.start_new (h := env.host) hget).2
      rwa [hstart] at h
    refine ⟨?_, fun other q hq hother => ?_⟩
    · rw [hlaunched]
      show v'.hostCalls = _
      rw [hcalls, show v.hostCalls = _ from ht.calls]
      simp [Step.launch?, Nat.add_assoc]
    · rw [hlaunched, List.mem_append, not_or] at hother
      obtain ⟨d, hd, hdid, hgetq⟩ := ht.waiting other q hq hother.1
      -- another id stands for another process, as the manager is keyed
      have hne : p ≠ q := by
        rintro rfl
        have hsame := (hkeyed.processId hp).symm.trans (hkeyed.processId hq)
        exact hother.2 (by simp [Step.launch?, hsame])
      have hkept := World.get?_start_other env.host hne v
      rw [hstart] at hkept
      exact ⟨d, List.mem_append_left _ hd, hdid, hkept.trans hgetq⟩
  | connect | board | component | function => cases hprocess

end Build

end RobotHost
