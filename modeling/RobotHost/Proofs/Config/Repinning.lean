import RobotHost.Config.BoardDiff

/-!
# The pins of a changed board

A diff that applies to its board leaves the pins that it does not remove and puts in those that it
adds, whatever it modifies (`BoardConfigDiff.mem_pinNames_toConfig`). A pin that is removed and added
is one of the new board. Whatever is removed was a pin of the board before
(`BoardConfigDiff.mem_left_of_removed`).
-/

namespace RobotHost

/-- The names of the pins of a kind. -/
def BoardConfig.pinNamesOf (c : BoardConfig) : PinKind → List String
  | .analog => c.analogs.map AnalogConfig.name
  | .interrupt => c.interrupts.map InterruptConfig.name

/-! ## Lists of pins -/

section Pins

variable {α : Type} {nameOf : α → String} {kind : PinKind} {name : String}

/-- Nothing goes where no pin has the name. -/
theorem length_filter_eq_iff {pins : List α} :
    (pins.filter fun p => nameOf p ≠ name).length = pins.length ↔ name ∉ pins.map nameOf := by
  rw [List.length_filter_eq_length_iff, List.mem_map]
  simp

/-- The names of the pins that a test on names leaves. -/
theorem mem_map_filter (keeps : String → Prop) [DecidablePred keeps] {pins : List α} :
    name ∈ (pins.filter fun p => keeps (nameOf p)).map nameOf ↔
      name ∈ pins.map nameOf ∧ keeps name := by
  constructor
  · intro h
    obtain ⟨p, hp, rfl⟩ := List.mem_map.mp h
    obtain ⟨hp, hkept⟩ := List.mem_filter.mp hp
    exact ⟨List.mem_map_of_mem hp, of_decide_eq_true hkept⟩
  · rintro ⟨h, hkept⟩
    obtain ⟨p, hp, rfl⟩ := List.mem_map.mp h
    exact List.mem_map_of_mem (List.mem_filter.mpr ⟨hp, decide_eq_true hkept⟩)

/-- A removal that applies takes out pins that are there, and leaves the others. -/
theorem removePins_ok {pins pins' : List α} {names : List String}
    (h : removePins nameOf kind pins names = .ok pins') :
    pins' = pins.filter (fun p => nameOf p ∉ names) ∧
      ∀ name ∈ names, name ∈ pins.map nameOf := by
  induction names generalizing pins with
  | nil =>
    cases h
    exact ⟨(List.filter_eq_self.mpr fun _ _ => by simp).symm, by simp⟩
  | cons first rest ih =>
    rw [removePins] at h
    split at h
    · cases h
    rename_i hlength
    obtain ⟨hkept, hthere⟩ := ih h
    refine ⟨?_, fun name hname => ?_⟩
    · rw [hkept, List.filter_filter]
      refine List.filter_congr fun p _ => ?_
      simp [Bool.and_comm]
    · rcases List.mem_cons.mp hname with rfl | hname
      -- a list that stays as long as it was has no pin of the name
      · exact Decidable.not_not.mp fun habsent => hlength (length_filter_eq_iff.mpr habsent)
      · obtain ⟨p, hp, rfl⟩ := List.mem_map.mp (hthere name hname)
        exact List.mem_map_of_mem (List.mem_filter.mp hp).1

theorem map_replacePin {pin : α} {pins pins' : List α}
    (h : replacePin nameOf pin pins = some pins') : pins'.map nameOf = pins.map nameOf := by
  induction pins generalizing pins' with
  | nil => cases h
  | cons p rest ih =>
    rw [replacePin] at h
    split at h
    · rename_i heq
      cases h
      simp [heq]
    · obtain ⟨rest', hrest, rfl⟩ := Option.map_eq_some_iff.mp h
      simp [ih hrest]

/-- A modification leaves all names where they are. -/
theorem map_modifyPins {pins pins' modified : List α}
    (h : modifyPins nameOf kind pins modified = .ok pins') :
    pins'.map nameOf = pins.map nameOf := by
  induction modified generalizing pins with
  | nil =>
    cases h
    rfl
  | cons pin rest ih =>
    rw [modifyPins] at h
    split at h
    · rename_i replaced hreplaced
      exact (ih h).trans (map_replacePin hreplaced)
    · cases h

/-- Additions that go well come last, in their order. -/
theorem addPins_ok {pins pins' added : List α} (h : addPins nameOf kind pins added = .ok pins') :
    pins' = pins ++ added := by
  induction added generalizing pins with
  | nil =>
    cases h
    simp
  | cons pin rest ih =>
    rw [addPins] at h
    split at h
    · cases h
    · rw [ih h, List.append_assoc]
      rfl

/-- Changes that apply are a removal, a modification and an addition that do. -/
theorem changePins_steps {pins removed modified added pins' : List α}
    (h : changePins nameOf kind pins removed modified added = .ok pins') :
    ∃ left changed, removePins nameOf kind pins (removed.map nameOf) = .ok left ∧
      modifyPins nameOf kind left modified = .ok changed ∧
      addPins nameOf kind changed added = .ok pins' := by
  unfold changePins at h
  cases hremoved : removePins nameOf kind pins (removed.map nameOf) with
  | error fault =>
    rw [hremoved] at h
    cases h
  | ok left =>
    rw [hremoved] at h
    replace h : (modifyPins nameOf kind left modified >>= fun pins =>
        addPins nameOf kind pins added) = .ok pins' := h
    cases hmodified : modifyPins nameOf kind left modified with
    | error fault =>
      rw [hmodified] at h
      cases h
    | ok changed =>
      rw [hmodified] at h
      exact ⟨left, changed, rfl, hmodified, h⟩

/-- What is there after all changes is what was left in and what was put in. -/
theorem changePins_ok {pins removed modified added pins' : List α}
    (h : changePins nameOf kind pins removed modified added = .ok pins') :
    (∀ name, name ∈ pins'.map nameOf ↔
      name ∈ pins.map nameOf ∧ name ∉ removed.map nameOf ∨ name ∈ added.map nameOf) ∧
    ∀ name ∈ removed.map nameOf, name ∈ pins.map nameOf := by
  obtain ⟨left, changed, hremoved, hmodified, hadded⟩ := changePins_steps h
  obtain ⟨rfl, hthere⟩ := removePins_ok hremoved
  refine ⟨fun name => ?_, hthere⟩
  rw [addPins_ok hadded, List.map_append, List.mem_append, map_modifyPins hmodified]
  exact or_congr_left (mem_map_filter fun name => name ∉ removed.map nameOf)

end Pins

/-! ## The new board -/

namespace BoardConfigDiff

variable {d : BoardConfigDiff} {c : BoardConfig}

/-- The analog readers of the new board. -/
def newAnalogs (d : BoardConfigDiff) : Except BoardDiffFault (List AnalogConfig) :=
  changePins AnalogConfig.name .analog d.left.analogs d.removed.analogs d.modified.analogs
    d.added.analogs

/-- The interrupts of the new board. -/
def newInterrupts (d : BoardConfigDiff) : Except BoardDiffFault (List InterruptConfig) :=
  changePins InterruptConfig.name .interrupt d.left.interrupts d.removed.interrupts
    d.modified.interrupts d.added.interrupts

/-- The analog readers are changed first, and the interrupts if that succeeds. -/
theorem toConfig_cases (d : BoardConfigDiff) :
    (∃ fault, d.newAnalogs = .error fault ∧ d.toConfig = .error (.boardDiff d.left.name fault)) ∨
    ∃ analogs, d.newAnalogs = .ok analogs ∧
      ((∃ fault, d.newInterrupts = .error fault ∧
        d.toConfig = .error (.boardDiff d.left.name fault)) ∨
      ∃ interrupts, d.newInterrupts = .ok interrupts ∧
        d.toConfig = .ok
          { name := d.left.name
            model := if d.modified.model.isEmpty then d.left.model else d.modified.model
            analogs := analogs
            interrupts := interrupts
            attributes := d.left.attributes.override d.modified.attributes }) := by
  have hpins : d.changedPins = (do return (← d.newAnalogs, ← d.newInterrupts)) := rfl
  unfold toConfig
  rw [hpins]
  cases d.newAnalogs with
  | error fault => exact .inl ⟨fault, rfl, rfl⟩
  | ok analogs =>
    refine .inr ⟨analogs, rfl, ?_⟩
    cases d.newInterrupts with
    | error fault => exact .inl ⟨fault, rfl, rfl⟩
    | ok interrupts => exact .inr ⟨interrupts, rfl, rfl⟩

/-- The pins of the new board are what the changes to each kind come to. -/
theorem pins_of_toConfig (h : d.toConfig = .ok c) :
    d.newAnalogs = .ok c.analogs ∧ d.newInterrupts = .ok c.interrupts := by
  rcases d.toConfig_cases with ⟨fault, -, hend⟩ |
    ⟨analogs, hanalogs, ⟨fault, -, hend⟩ | ⟨interrupts, hinterrupts, hend⟩⟩
  · rw [hend] at h
    cases h
  · rw [hend] at h
    cases h
  · rw [hend] at h
    cases h
    exact ⟨hanalogs, hinterrupts⟩

/-- The pins of the new board are those of the running one that are not removed, and those that are
added. -/
theorem mem_pinNames_toConfig (h : d.toConfig = .ok c) {kind : PinKind} {name : String} :
    name ∈ c.pinNamesOf kind ↔ name ∈ d.left.pinNamesOf kind ∧ name ∉ (d.changes kind).removed ∨
      name ∈ (d.changes kind).added := by
  obtain ⟨hanalogs, hinterrupts⟩ := pins_of_toConfig h
  cases kind with
  | analog => exact (changePins_ok hanalogs).1 name
  | interrupt => exact (changePins_ok hinterrupts).1 name

/-- What a diff removes was there, if the diff goes well. -/
theorem mem_left_of_removed (h : d.toConfig = .ok c) {kind : PinKind} {name : String}
    (hname : name ∈ (d.changes kind).removed) : name ∈ d.left.pinNamesOf kind := by
  obtain ⟨hanalogs, hinterrupts⟩ := pins_of_toConfig h
  cases kind with
  | analog => exact (changePins_ok hanalogs).2 name hname
  | interrupt => exact (changePins_ok hinterrupts).2 name hname

end BoardConfigDiff

end RobotHost
