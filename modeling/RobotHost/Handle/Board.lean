import RobotHost.Config.BoardDiff
import RobotHost.World.Basic

/-!
# Handles to boards

A handle to a board has a handle for each pin the board provides. When another board comes behind
it, the handles of the pins move along: a pin that both boards have keeps its handle, and one that
the new board lacks loses it.

A board can be exchanged as a whole, or by a diff. The diff makes a difference only for a pin that
it removes and adds again: this one gets a new handle.
-/

namespace RobotHost

namespace World

/-! ## Handles of pins -/

/-- Brings the handle of one pin in line with a board. -/
def syncPin (board : Ref .driver) (kind : PinKind) (pins : NameMap (Ref .pinProxy))
    (name : String) : StateM World (NameMap (Ref .pinProxy)) := do
  match (← get).pin? board kind name, pins.get? name with
  | none, _ => return pins.erase name
  | some pin, some h =>
    modify fun w => { w with pinProxies := w.pinProxies.set h pin }
    return pins
  | some pin, none =>
    let h ← addPinProxy pin
    return pins.insert name h

/-- Brings the handles of pins in line with a board, one after the other. -/
def syncPins (board : Ref .driver) (kind : PinKind) (pins : NameMap (Ref .pinProxy)) :
    List String → StateM World (NameMap (Ref .pinProxy))
  | [] => return pins
  | name :: rest => do
    let pins ← syncPin board kind pins name
    syncPins board kind pins rest

/-! ## Exchanging the board -/

/-- Which handles of pins are dropped first, and which are then brought in line. -/
structure PinPlan where
  dropped : List String
  synced : List String
deriving DecidableEq, Repr

/-- When a board is exchanged as a whole: drops what the new board lacks, brings in line what it
has. -/
def PinPlan.ofBoard (current provided : List String) : PinPlan where
  dropped := current.filter (· ∉ provided)
  synced := provided

/-- Names with some more at the end, each of them only if it is not listed before. -/
def listMore (names more : List String) : List String :=
  more.foldl (fun names name => if name ∈ names then names else names ++ [name]) names

theorem mem_listMore {names more : List String} {name : String} :
    name ∈ listMore names more ↔ name ∈ names ∨ name ∈ more := by
  induction more generalizing names with
  | nil => simp [listMore]
  | cons other more ih =>
    have hcons : listMore names (other :: more) =
        listMore (if other ∈ names then names else names ++ [other]) more := rfl
    rw [hcons, ih, List.mem_cons]
    by_cases hother : other ∈ names
    · rw [if_pos hother]
      refine ⟨fun h => h.imp_right .inr, fun h => ?_⟩
      rcases h with h | rfl | h
      · exact .inl h
      · exact .inl hother
      · exact .inr h
    · rw [if_neg hother, List.mem_append, List.mem_singleton, or_assoc]

/-- When a board is exchanged by a diff: drops what the diff removes, brings in line what is left
and then what it adds, each name once. -/
def PinPlan.ofChanges (current : List String) (c : PinChanges) : PinPlan where
  dropped := c.removed
  synced := listMore (current.filter (· ∉ c.removed)) c.added

theorem PinPlan.mem_synced_ofChanges {current : List String} {c : PinChanges} {name : String} :
    name ∈ (ofChanges current c).synced ↔
      (name ∈ current ∧ name ∉ c.removed) ∨ name ∈ c.added := by
  simp [ofChanges, mem_listMore]

/-- Carries out a plan on the handles of the pins of a kind. -/
def applyPlan (board : Ref .driver) (kind : PinKind) (pins : NameMap (Ref .pinProxy))
    (plan : PinPlan) : StateM World (NameMap (Ref .pinProxy)) :=
  syncPins board kind (pins.eraseAll plan.dropped) plan.synced

/-- A new handle to a board. -/
def wrapBoard (board : Ref .driver) : StateM World (Ref .boardProxy) := do
  let w ← get
  let analogs ← syncPins board .analog .empty (w.pinNames board .analog)
  let interrupts ← syncPins board .interrupt .empty (w.pinNames board .interrupt)
  addBoardProxy ⟨board, analogs, interrupts⟩

/-- Puts a board behind a handle and carries out a plan for each kind of pin. -/
def rebindBoard (h : Ref .boardProxy) (b : BoardProxy) (next : Ref .driver)
    (plan : PinKind → PinPlan) : StateM World Unit := do
  let analogs ← applyPlan next .analog b.analogs (plan .analog)
  let interrupts ← applyPlan next .interrupt b.interrupts (plan .interrupt)
  modify fun w => { w with boardProxies := w.boardProxies.set h ⟨next, analogs, interrupts⟩ }

/-- Puts a board behind a handle in place of the one that was there. The answer is the board that
has to be closed, if it is another. -/
def replaceBoard (h : Ref .boardProxy) (next : Ref .driver) : StateM World (Option (Ref .driver)) :=
  do
    let w ← get
    match w.boardProxies.get? h with
    | none => return none
    | some b =>
      rebindBoard h b next fun kind => .ofBoard (b.pins kind).names (w.pinNames next kind)
      return if b.actual = next then none else some b.actual

/-- Puts a board behind a handle, as a diff of the board says. The answer is the board that has to
be closed, if it is another. -/
def mergeBoard (h : Ref .boardProxy) (next : Ref .driver) (diff : BoardConfigDiff) :
    StateM World (Option (Ref .driver)) := do
  match (← get).boardProxies.get? h with
  | none => return none
  | some b =>
    rebindBoard h b next fun kind => .ofChanges (b.pins kind).names (diff.changes kind)
    return if b.actual = next then none else some b.actual

end World

end RobotHost
