import RobotHost.World.Basic

/-!
# What the log tells about resources

The environment gives out drivers and connections, and robots close them. Both stand in the log, so
that it can be read as a ledger: what was delivered (`World.deliveries`, `World.delivered`) and what
was closed (`World.closings`), each in the order in which it was done. So does it tell which
processes were stopped (`World.stoppings`).
-/

namespace RobotHost

namespace Event

/-- What the environment gave out. -/
def delivers? : Event → Option Resource
  | constructed _ _ (some d) => some (.driver d)
  | connected _ (some c) => some (.connection c)
  | _ => none

/-- What was closed. -/
def closes? : Event → Option Resource
  | closed d => some (.driver d)
  | hungUp c => some (.connection c)
  | _ => none

/-- The process that was asked to stop. -/
def stops? : Event → Option (Ref .process)
  | stopped p => some p
  | _ => none

/-- Events of processes. -/
def OfProcess : Event → Prop
  | started _ | stopped _ => True
  | _ => False

/-- Events of processes that start. -/
def OfStart : Event → Prop
  | started _ => True
  | _ => False

/-- The only event that stops a process. -/
theorem eq_stopped {e : Event} {p : Ref .process} (h : e.stops? = some p) : e = .stopped p := by
  cases e <;> cases h
  rfl

/-- Events that neither deliver, close nor stop anything. -/
structure Plain (e : Event) : Prop where
  delivers : e.delivers? = none
  closes : e.closes? = none
  stops : e.stops? = none

/-- All that was delivered in the course of these events was closed once in their course. -/
def Settled (es : List Event) : Prop :=
  ∀ x ∈ es.filterMap delivers?, (es.filterMap closes?).count x = 1

theorem OfStart.plain {e : Event} (h : e.OfStart) : e.Plain := by
  cases e with
  | started p => exact ⟨rfl, rfl, rfl⟩
  | stopped _ => exact h.elim
  | constructed _ _ _ => exact h.elim
  | connected _ _ => exact h.elim
  | closed _ => exact h.elim
  | hungUp _ => exact h.elim

/-- Events of processes are none of resources. -/
theorem OfProcess.resources {e : Event} (h : e.OfProcess) :
    e.delivers? = none ∧ e.closes? = none := by
  cases e with
  | started _ | stopped _ => exact ⟨rfl, rfl⟩
  | constructed _ _ _ => exact h.elim
  | connected _ _ => exact h.elim
  | closed _ => exact h.elim
  | hungUp _ => exact h.elim

end Event

namespace World

/-! ## Logs -/

/-- The second world's log is the first one's with events of one sort after it. -/
def Logs (sort : Event → Prop) (w w' : World) : Prop :=
  ∃ es, w'.log = w.log ++ es ∧ ∀ e ∈ es, sort e

variable {w w' w'' : World}

theorem Logs.refl (sort : Event → Prop) (w : World) : Logs sort w w :=
  ⟨[], by simp, by simp⟩

theorem Logs.of_log_eq {sort : Event → Prop} (h : w'.log = w.log) : Logs sort w w' :=
  ⟨[], by simp [h], by simp⟩

theorem Logs.trans {sort : Event → Prop} (h : Logs sort w w') (h' : Logs sort w' w'') :
    Logs sort w w'' := by
  obtain ⟨es, hlog, hsort⟩ := h
  obtain ⟨es', hlog', hsort'⟩ := h'
  refine ⟨es ++ es', by rw [hlog', hlog, List.append_assoc], fun e he => ?_⟩
  rcases List.mem_append.mp he with he | he
  · exact hsort e he
  · exact hsort' e he

theorem Logs.mono {sort sort' : Event → Prop} (hsorts : ∀ e, sort e → sort' e)
    (h : Logs sort w w') : Logs sort' w w' := by
  obtain ⟨es, hlog, hsort⟩ := h
  exact ⟨es, hlog, fun e he => hsorts e (hsort e he)⟩

/-- Logs only grow. -/
theorem Logs.log {sort : Event → Prop} (h : Logs sort w w') : w.log <+: w'.log := by
  obtain ⟨es, hlog, -⟩ := h
  rw [hlog]
  exact List.prefix_append _ _

/-! ## The ledger -/

/-- The deliveries, as they were logged. -/
def deliveries (w : World) : List Event := w.log.filter fun e => e.delivers?.isSome

/-- The resources that were delivered. -/
def delivered (w : World) : List Resource := w.log.filterMap Event.delivers?

/-- The resources that were closed. -/
def closings (w : World) : List Resource := w.log.filterMap Event.closes?

/-- The resources that were delivered are those of the deliveries. -/
theorem delivered_eq (w : World) : w.delivered = w.deliveries.filterMap Event.delivers? := by
  unfold delivered deliveries
  rw [List.filterMap_filter]
  congr 1
  funext e
  cases e.delivers? <;> rfl

/-- The processes that were stopped. -/
def stoppings (w : World) : List (Ref .process) := w.log.filterMap Event.stops?

/-- Without deliveries there is none more in the ledger. -/
theorem Logs.deliveries (h : Logs (fun e => e.delivers? = none) w w') :
    w'.deliveries = w.deliveries := by
  obtain ⟨es, hlog, hes⟩ := h
  have hnone : es.filter (fun e => e.delivers?.isSome) = [] := by
    refine List.filter_eq_nil_iff.mpr fun e he => ?_
    simp [hes e he]
  unfold World.deliveries
  rw [hlog, List.filter_append, hnone, List.append_nil]

/-- Where no event closes anything, no more is closed. -/
theorem Logs.closings (h : Logs (fun e => e.closes? = none) w w') : w'.closings = w.closings := by
  obtain ⟨es, hlog, hes⟩ := h
  have hnone : es.filterMap Event.closes? = [] := List.filterMap_eq_nil_iff.mpr hes
  unfold World.closings
  rw [hlog, List.filterMap_append, hnone, List.append_nil]

section Append

variable {es : List Event} (h : w'.log = w.log ++ es)

include h

/-- What later events deliver comes after what was delivered before. -/
theorem delivered_append : w'.delivered = w.delivered ++ es.filterMap Event.delivers? := by
  rw [delivered, h, List.filterMap_append, delivered]

theorem closings_append : w'.closings = w.closings ++ es.filterMap Event.closes? := by
  rw [closings, h, List.filterMap_append, closings]

theorem stoppings_append : w'.stoppings = w.stoppings ++ es.filterMap Event.stops? := by
  rw [stoppings, h, List.filterMap_append, stoppings]

end Append

/-- Only processes are stopped whose stops are of the sort of events that were logged. -/
theorem Logs.exists_stoppings {sort : Event → Prop} (h : Logs sort w w') :
    ∃ ps, w'.stoppings = w.stoppings ++ ps ∧ ∀ p ∈ ps, sort (.stopped p) := by
  obtain ⟨es, hlog, hes⟩ := h
  refine ⟨es.filterMap Event.stops?, stoppings_append hlog, fun p hp => ?_⟩
  obtain ⟨e, he, hep⟩ := List.mem_filterMap.mp hp
  rw [← Event.eq_stopped hep]
  exact hes e he

theorem Logs.stoppings (h : Logs (fun e => e.stops? = none) w w') :
    w'.stoppings = w.stoppings := by
  obtain ⟨es, hlog, hes⟩ := h
  have hnone : es.filterMap Event.stops? = [] := List.filterMap_eq_nil_iff.mpr hes
  unfold World.stoppings
  rw [hlog, List.filterMap_append, hnone, List.append_nil]

/-- What is in the ledger after an event. -/
theorem deliveries_of_log {e : Event} {x : Resource} (hlog : w'.log = w.log ++ [e])
    (he : e.delivers? = some x) : w'.deliveries = w.deliveries ++ [e] := by
  unfold deliveries
  rw [hlog, List.filter_append]
  simp [he]

theorem Logs.delivered (h : Logs (fun e => e.delivers? = none) w w') :
    w'.delivered = w.delivered := by
  rw [delivered_eq, delivered_eq, h.deliveries]

/-- An event that delivers a resource adds it to what was delivered. -/
theorem delivered_of_log {e : Event} {x : Resource} (hlog : w'.log = w.log ++ [e])
    (he : e.delivers? = some x) : w'.delivered = w.delivered ++ [x] := by
  rw [delivered_eq, delivered_eq, deliveries_of_log hlog he, List.filterMap_append,
    List.filterMap_cons_some he, List.filterMap_nil]

end World

end RobotHost
