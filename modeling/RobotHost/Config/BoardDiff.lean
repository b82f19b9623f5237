import RobotHost.Config.Board

/-!
# Board diffs

A board diff names the pins of a running board that are removed, modified and added, so that the
board can be rebuilt without touching the others. The names of the `added`, `removed` and `modified`
boards are not looked at.

Analog readers are changed first, then interrupts. For each kind all removals come first, then
modifications, then additions, and the first that does not fit is reported.
-/

namespace RobotHost

structure BoardConfigDiff where
  /-- The board that runs now. -/
  left : BoardConfig
  added : BoardConfig := { name := "" }
  removed : BoardConfig := { name := "" }
  modified : BoardConfig := { name := "" }

/-- The names of the pins of one kind that a diff touches. -/
structure PinChanges where
  added : List String
  removed : List String
  modified : List String
deriving DecidableEq, Repr

namespace BoardConfigDiff

def record : Record BoardConfigDiff where
  name := "BoardConfigDiff"
  blank := { left := { name := "" } }
  fields := [
    .needed "left" BoardConfig.codec left (fun r x => { r with left := x }),
    .defaulted "added" BoardConfig.codec added (fun r x => { r with added := x }),
    .defaulted "removed" BoardConfig.codec removed (fun r x => { r with removed := x }),
    .defaulted "modified" BoardConfig.codec modified (fun r x => { r with modified := x })]

def codec : Codec BoardConfigDiff := record.codec

def analogChanges (d : BoardConfigDiff) : PinChanges where
  added := d.added.analogs.map AnalogConfig.name
  removed := d.removed.analogs.map AnalogConfig.name
  modified := d.modified.analogs.map AnalogConfig.name

def interruptChanges (d : BoardConfigDiff) : PinChanges where
  added := d.added.interrupts.map InterruptConfig.name
  removed := d.removed.interrupts.map InterruptConfig.name
  modified := d.modified.interrupts.map InterruptConfig.name

def changes (d : BoardConfigDiff) : PinKind → PinChanges
  | .analog => d.analogChanges
  | .interrupt => d.interruptChanges

end BoardConfigDiff

/-! ## Changing a list of pins -/

section Pins

variable {α : Type} (nameOf : α → String) (kind : PinKind)

/-- Takes out the pins of these names; each name must be there when its turn comes. -/
def removePins (pins : List α) : List String → Except BoardDiffFault (List α)
  | [] => .ok pins
  | name :: rest =>
    let kept := pins.filter fun p => nameOf p ≠ name
    if kept.length = pins.length then .error (.absent .removed kind name)
    else removePins kept rest

/-- Writes a pin over the first of its name, if there is one. -/
def replacePin (pin : α) : List α → Option (List α)
  | [] => none
  | p :: rest =>
    if nameOf p = nameOf pin then some (pin :: rest) else (replacePin pin rest).map (p :: ·)

/-- Writes each pin over the first of its name; there must be one. -/
def modifyPins (pins : List α) : List α → Except BoardDiffFault (List α)
  | [] => .ok pins
  | pin :: rest =>
    match replacePin nameOf pin pins with
    | some pins => modifyPins pins rest
    | none => .error (.absent .modified kind (nameOf pin))

/-- Puts pins at the end; their names must be new. -/
def addPins (pins : List α) : List α → Except BoardDiffFault (List α)
  | [] => .ok pins
  | pin :: rest =>
    if pins.any fun p => nameOf p = nameOf pin then .error (.present kind (nameOf pin))
    else addPins (pins ++ [pin]) rest

/-- Removes, modifies and adds, in this order. -/
def changePins (pins removed modified added : List α) : Except BoardDiffFault (List α) := do
  let pins ← removePins nameOf kind pins (removed.map nameOf)
  let pins ← modifyPins nameOf kind pins modified
  addPins nameOf kind pins added

end Pins

/-! ## The new board -/

namespace BoardConfigDiff

/-- The pins of the new board, or the first change that does not fit. -/
def changedPins (d : BoardConfigDiff) :
    Except BoardDiffFault (List AnalogConfig × List InterruptConfig) := do
  let analogs ← changePins AnalogConfig.name .analog d.left.analogs d.removed.analogs
    d.modified.analogs d.added.analogs
  let interrupts ← changePins InterruptConfig.name .interrupt d.left.interrupts
    d.removed.interrupts d.modified.interrupts d.added.interrupts
  return (analogs, interrupts)

/-- The board that the diff describes: the running one with its pins changed, with the attributes
of `modified` over its own, and with the model of `modified` if that names one. -/
def toConfig (d : BoardConfigDiff) : Except ConfigError BoardConfig :=
  match d.changedPins with
  | .error fault => .error (.boardDiff d.left.name fault)
  | .ok (analogs, interrupts) =>
    .ok {
      name := d.left.name
      model := if d.modified.model.isEmpty then d.left.model else d.modified.model
      analogs := analogs
      interrupts := interrupts
      attributes := d.left.attributes.override d.modified.attributes }

end BoardConfigDiff

end RobotHost
