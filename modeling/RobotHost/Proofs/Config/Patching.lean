import RobotHost.Proofs.Config.Repinning
import RobotHost.Proofs.Config.Screening

/-!
# What a board diff makes of a board

The entries of a diff are gone through in order: the analog readers that are removed, modified and
added, and then the interrupts. The first entry that does not fit is reported (`PinChanges.Fits`).
If all fit, the pins that are not removed stay in their order, each as it was modified last, and
those that are added come after them (`patched`).

`BoardConfigDiff.toConfig_exact` says so of all diffs to a board whose pins of one kind have
distinct names.
-/

namespace RobotHost

/-! ## Entries of a diff -/

/-- An entry of a board diff, with the name of its pin. -/
inductive PinEntry where
  | removed (name : String)
  | modified (name : String)
  | added (name : String)

/-- How an entry that does not fit is reported. -/
def PinEntry.fault (kind : PinKind) : PinEntry → BoardDiffFault
  | removed name => .absent .removed kind name
  | modified name => .absent .modified kind name
  | added name => .present kind name

namespace PinChanges

variable {names : List String} {changes : PinChanges}

/-- The entries for one kind of pin, in the order in which they are gone through. -/
def entries (changes : PinChanges) : List PinEntry :=
  changes.removed.map .removed ++ changes.modified.map .modified ++ changes.added.map .added

/-- Whether an entry fits pins of these names, after the entries before it. A pin can be removed
once; it can be modified if it is not removed; its name can be added once, if it is free by then. -/
def Fits (names : List String) (changes : PinChanges) (before : List PinEntry) : PinEntry → Prop
  | .removed name => name ∈ names ∧ .removed name ∉ before
  | .modified name => name ∈ names ∧ name ∉ changes.removed
  | .added name => (name ∈ names → name ∈ changes.removed) ∧ .added name ∉ before

/-- The changes can be made to pins of these names. -/
structure AppliesTo (names : List String) (changes : PinChanges) : Prop where
  removed : changes.removed.Nodup ∧ ∀ name ∈ changes.removed, name ∈ names
  modified : ∀ name ∈ changes.modified, name ∈ names ∧ name ∉ changes.removed
  added : changes.added.Nodup ∧ ∀ name ∈ changes.added, name ∈ names → name ∈ changes.removed

/-- Changes can be made exactly if every entry fits. -/
theorem allFit_entries : AllFit (changes.Fits names) changes.entries ↔ changes.AppliesTo names := by
  have hremoved : AllFit (changes.Fits names) (changes.removed.map .removed) ↔
      (∀ name ∈ changes.removed, name ∈ names) ∧ changes.removed.Nodup := by
    rw [allFit_map, ← allFit_const, ← allFit_nodup, ← allFit_and]
    simp [Fits]
  -- to modify a pin asks nothing of the other modifications, only that it is not removed
  have hmodified : AllFit
      (fun before => changes.Fits names (changes.removed.map .removed ++ before))
      (changes.modified.map .modified) ↔
        ∀ name ∈ changes.modified, name ∈ names ∧ name ∉ changes.removed := by
    rw [allFit_map, ← allFit_const]
    rfl
  have hadded : AllFit (fun before => changes.Fits names
      (changes.removed.map .removed ++ changes.modified.map .modified ++ before))
      (changes.added.map .added) ↔
        (∀ name ∈ changes.added, name ∈ names → name ∈ changes.removed) ∧ changes.added.Nodup := by
    rw [allFit_map, ← allFit_const, ← allFit_nodup, ← allFit_and]
    simp [Fits]
  rw [entries, allFit_append, allFit_append, hremoved, hmodified, hadded]
  constructor
  · rintro ⟨⟨⟨hthere, hnodup⟩, hmodified⟩, hnew, hnodup'⟩
    exact ⟨⟨hnodup, hthere⟩, hmodified, hnodup', hnew⟩
  · rintro ⟨⟨hnodup, hthere⟩, hmodified, hnodup', hnew⟩
    exact ⟨⟨⟨hthere, hnodup⟩, hmodified⟩, hnew, hnodup'⟩

end PinChanges

/-! ## Going through the entries -/

section Pins

variable {α : Type} {nameOf : α → String} {kind : PinKind}

/-- Removals end at the first name that is not there, or was removed before. -/
theorem removePins_screens (nameOf : α → String) (kind : PinKind) (pins : List α)
    (names : List String) :
    Screens (fun before name => name ∈ pins.map nameOf ∧ name ∉ before)
      (fun name fault => fault = .absent .removed kind name) names
      (removePins nameOf kind pins names) := by
  induction names generalizing pins with
  | nil => exact Screens.nil pins
  | cons name rest ih =>
    rw [removePins]
    split
    · next hlength =>
      exact Screens.stop (fun hfits => length_filter_eq_iff.mp hlength hfits.1) rfl
    · next hlength =>
      have hmem : name ∈ pins.map nameOf :=
        not_not.mp fun habsent => hlength (length_filter_eq_iff.mpr habsent)
      refine Screens.step ⟨hmem, List.not_mem_nil⟩ ?_
      refine (ih _).congr fun before other => ?_
      rw [mem_map_filter fun n => n ≠ name, List.mem_cons, not_or, and_assoc]

theorem isSome_replacePin_iff {pin : α} {pins : List α} :
    (replacePin nameOf pin pins).isSome ↔ nameOf pin ∈ pins.map nameOf := by
  induction pins with
  | nil => simp [replacePin]
  | cons p rest ih =>
    rw [replacePin, List.map_cons, List.mem_cons]
    by_cases hname : nameOf p = nameOf pin
    · simp [hname]
    · simp [hname, ih, Ne.symm hname]

/-- Modifications end at the first pin whose name is not there. -/
theorem modifyPins_screens (nameOf : α → String) (kind : PinKind) (pins modified : List α) :
    Screens (fun _ pin => nameOf pin ∈ pins.map nameOf)
      (fun pin fault => fault = .absent .modified kind (nameOf pin)) modified
      (modifyPins nameOf kind pins modified) := by
  induction modified generalizing pins with
  | nil => exact Screens.nil pins
  | cons pin rest ih =>
    rw [modifyPins]
    cases hreplaced : replacePin nameOf pin pins with
    | none =>
      have habsent : nameOf pin ∉ pins.map nameOf := fun hmem => by
        have hsome := isSome_replacePin_iff.mpr hmem
        simp [hreplaced] at hsome
      exact Screens.stop habsent rfl
    | some replaced =>
      have hmem : nameOf pin ∈ pins.map nameOf := isSome_replacePin_iff.mp (by simp [hreplaced])
      refine Screens.step hmem ((ih replaced).congr fun _ _ => ?_)
      rw [map_replacePin hreplaced]

/-- Additions end at the first pin whose name is taken, by a pin of before or an earlier addition.
-/
theorem addPins_screens (nameOf : α → String) (kind : PinKind) (pins added : List α) :
    Screens (fun before pin => nameOf pin ∉ pins.map nameOf ∧ nameOf pin ∉ before.map nameOf)
      (fun pin fault => fault = .present kind (nameOf pin)) added
      (addPins nameOf kind pins added) := by
  induction added generalizing pins with
  | nil => exact Screens.nil pins
  | cons pin rest ih =>
    have hany : (pins.any fun p => nameOf p = nameOf pin) = true ↔
        nameOf pin ∈ pins.map nameOf := by
      simp
    rw [addPins]
    by_cases hmem : nameOf pin ∈ pins.map nameOf
    · rw [if_pos (hany.mpr hmem)]
      exact Screens.stop (fun hfits => hfits.1 hmem) rfl
    · rw [if_neg (mt hany.mp hmem)]
      refine Screens.step ⟨hmem, by simp⟩ ((ih (pins ++ [pin])).congr fun before other => ?_)
      simp [and_assoc]

/-- The names that changes of pins touch. -/
def changesOf (nameOf : α → String) (removed modified added : List α) : PinChanges where
  added := added.map nameOf
  removed := removed.map nameOf
  modified := modified.map nameOf

/-- The three lists of changes are gone through as one, up to the first entry that does not fit what
the entries before it have left. -/
theorem changePins_screens (pins removed modified added : List α) :
    Screens ((changesOf nameOf removed modified added).Fits (pins.map nameOf))
      (fun entry fault => fault = entry.fault kind)
      (changesOf nameOf removed modified added).entries
      (changePins nameOf kind pins removed modified added) := by
  unfold PinChanges.entries changePins
  rw [List.append_assoc]
  refine Screens.bind ?_ fun left hleft => Screens.bind ?_ fun changed hchanged => ?_
  · have hremoved := removePins_screens nameOf kind pins (removed.map nameOf)
    refine (hremoved.congr fun before name => ?_).map fun _ _ h => h
    simp [PinChanges.Fits]
  · -- what is modified is looked for among the pins that are left
    obtain ⟨rfl, -⟩ := removePins_ok hleft
    have hmodified := modifyPins_screens nameOf kind
      (pins.filter fun p => nameOf p ∉ removed.map nameOf) modified
    show Screens _ _ ((modified.map nameOf).map _) _
    rw [List.map_map]
    refine (hmodified.congr fun before pin => ?_).map fun _ _ h => h
    exact (mem_map_filter fun name => name ∉ removed.map nameOf).symm
  · -- a modified pin keeps its name, so that these are still the names of the pins that are left
    obtain ⟨rfl, -⟩ := removePins_ok hleft
    have hadded := addPins_screens nameOf kind changed added
    have hnames := map_modifyPins hchanged
    show Screens _ _ ((added.map nameOf).map _) _
    rw [List.map_map]
    refine (hadded.congr fun before pin => ?_).map fun _ _ h => h
    rw [hnames, mem_map_filter fun name => name ∉ removed.map nameOf]
    simp [PinChanges.Fits, changesOf]

/-! ## The pins afterwards -/

/-- A pin as the last of the modifications of its name leaves it. -/
def revised (nameOf : α → String) (modified : List α) (p : α) : α :=
  (modified.reverse.find? fun q => nameOf q = nameOf p).getD p

/-- The pins after a diff: those that stay, as they were modified last, and then those that are
added. -/
def patched (nameOf : α → String) (pins removed modified added : List α) : List α :=
  (pins.filter fun p => nameOf p ∉ removed.map nameOf).map (revised nameOf modified) ++ added

/-- Where names are distinct, a pin is written over the only one of its name. -/
theorem replacePin_eq_map {pin : α} {pins pins' : List α} (hnames : (pins.map nameOf).Nodup)
    (h : replacePin nameOf pin pins = some pins') :
    pins' = pins.map fun p => if nameOf p = nameOf pin then pin else p := by
  induction pins generalizing pins' with
  | nil => cases h
  | cons p rest ih =>
    obtain ⟨hp, hrest⟩ := List.nodup_cons.mp hnames
    rw [replacePin] at h
    rw [List.map_cons]
    split at h
    · next heq =>
      cases h
      -- no other pin has the name, so that the rest is not touched
      have hsame : rest.map (fun p => if nameOf p = nameOf pin then pin else p) = rest.map id := by
        refine List.map_congr_left fun q hq => if_neg fun hname => hp ?_
        rw [heq, ← hname]
        exact List.mem_map_of_mem hq
      rw [if_pos heq, hsame, List.map_id]
    · next hne =>
      obtain ⟨rest', hrest', rfl⟩ := Option.map_eq_some_iff.mp h
      rw [if_neg hne, ih hrest hrest']

/-- The first modification is overwritten by those that come later. -/
theorem revised_cons (pin p : α) (rest : List α) : revised nameOf (pin :: rest) p =
    revised nameOf rest (if nameOf p = nameOf pin then pin else p) := by
  unfold revised
  rw [List.reverse_cons, List.find?_append]
  by_cases hname : nameOf p = nameOf pin
  · rw [if_pos hname, hname]
    cases rest.reverse.find? fun q => nameOf q = nameOf pin <;> simp
  · rw [if_neg hname]
    cases rest.reverse.find? fun q => nameOf q = nameOf p <;> simp [Ne.symm hname]

/-- Where names are distinct, modifications that go well revise each pin on its own. -/
theorem modifyPins_eq_map {pins pins' modified : List α} (hnames : (pins.map nameOf).Nodup)
    (h : modifyPins nameOf kind pins modified = .ok pins') :
    pins' = pins.map (revised nameOf modified) := by
  induction modified generalizing pins with
  | nil =>
    cases h
    exact (List.map_id _).symm
  | cons pin rest ih =>
    rw [modifyPins] at h
    split at h
    · next replaced hreplaced =>
      have hnames' : (replaced.map nameOf).Nodup := by rwa [map_replacePin hreplaced]
      rw [ih hnames' h, replacePin_eq_map hnames hreplaced, List.map_map]
      refine List.map_congr_left fun p _ => ?_
      exact (revised_cons pin p rest).symm
    · cases h

/-- Changes that go well one after the other come to what `patched` says in one expression. -/
theorem changePins_eq_patched {pins pins' removed modified added : List α}
    (hnames : (pins.map nameOf).Nodup)
    (h : changePins nameOf kind pins removed modified added = .ok pins') :
    pins' = patched nameOf pins removed modified added := by
  obtain ⟨left, changed, hremoved, hmodified, hadded⟩ := changePins_steps h
  obtain ⟨rfl, -⟩ := removePins_ok hremoved
  have hchanged := modifyPins_eq_map (hnames.sublist (List.filter_sublist.map nameOf)) hmodified
  rw [addPins_ok hadded, hchanged, patched]

end Pins

/-! ## The new board -/

namespace BoardConfigDiff

variable {d : BoardConfigDiff} {c : BoardConfig}

theorem newAnalogs_screens (d : BoardConfigDiff) :
    Screens ((d.changes .analog).Fits (d.left.pinNamesOf .analog))
      (fun entry fault => fault = entry.fault .analog) (d.changes .analog).entries d.newAnalogs :=
  changePins_screens d.left.analogs d.removed.analogs d.modified.analogs d.added.analogs

theorem newInterrupts_screens (d : BoardConfigDiff) :
    Screens ((d.changes .interrupt).Fits (d.left.pinNamesOf .interrupt))
      (fun entry fault => fault = entry.fault .interrupt) (d.changes .interrupt).entries
      d.newInterrupts :=
  changePins_screens d.left.interrupts d.removed.interrupts d.modified.interrupts d.added.interrupts

/-- There is a new board exactly if the changes can be made to the pins of either kind. -/
theorem exists_toConfig_iff : (∃ c, d.toConfig = .ok c) ↔
    ∀ kind, (d.changes kind).AppliesTo (d.left.pinNamesOf kind) := by
  have hanalogs := d.newAnalogs_screens.ok_iff.trans PinChanges.allFit_entries
  have hinterrupts := d.newInterrupts_screens.ok_iff.trans PinChanges.allFit_entries
  constructor
  · rintro ⟨c, hc⟩ kind
    obtain ⟨ha, hi⟩ := pins_of_toConfig hc
    cases kind with
    | analog => exact hanalogs.mp ⟨_, ha⟩
    | interrupt => exact hinterrupts.mp ⟨_, hi⟩
  · intro h
    obtain ⟨analogs, ha⟩ := hanalogs.mpr (h .analog)
    obtain ⟨interrupts, hi⟩ := hinterrupts.mpr (h .interrupt)
    -- both kinds fit, so that neither can be where the check ends
    rcases d.toConfig_cases with ⟨fault, hfault, -⟩ | ⟨_, -, ⟨fault, hfault, -⟩ | ⟨_, -, hend⟩⟩
    · rw [ha] at hfault
      cases hfault
    · rw [hi] at hfault
      cases hfault
    · exact ⟨_, hend⟩

/-- The board that a diff describes: the old name, the model of the modification if it has one, and
the attributes of the modification over the old ones. -/
structure Describes (d : BoardConfigDiff) (c : BoardConfig) : Prop where
  name : c.name = d.left.name
  model : c.model = if d.modified.model = "" then d.left.model else d.modified.model
  attributes : ∀ key, c.attributes.get? key =
    (d.modified.attributes.get? key).or (d.left.attributes.get? key)
  analogs : c.analogs = patched AnalogConfig.name d.left.analogs d.removed.analogs
    d.modified.analogs d.added.analogs
  interrupts : c.interrupts = patched InterruptConfig.name d.left.interrupts d.removed.interrupts
    d.modified.interrupts d.added.interrupts

/-- A diff that goes well describes the board that comes of it. -/
theorem describes_toConfig (hleft : ∀ kind, (d.left.pinNamesOf kind).Nodup)
    (h : d.toConfig = .ok c) : d.Describes c := by
  obtain ⟨ha, hi⟩ := pins_of_toConfig h
  have hanalogs := changePins_eq_patched (hleft .analog) ha
  have hinterrupts := changePins_eq_patched (hleft .interrupt) hi
  rcases d.toConfig_cases with ⟨_, -, hend⟩ | ⟨_, -, ⟨_, -, hend⟩ | ⟨_, -, hend⟩⟩
  all_goals rw [h] at hend; cases hend
  refine ⟨rfl, ?_, fun key => NameMap.get?_override _ _ key, hanalogs, hinterrupts⟩
  simp only [String.isEmpty_iff]

/-- A diff applies to its board exactly if its changes can be made to the pins of either kind, and
leads to the board that it describes. Of a diff that does not apply the first entry that does not
fit is reported, one for an interrupt only if all those for analog readers fit. -/
theorem toConfig_exact (d : BoardConfigDiff) (hleft : ∀ kind, (d.left.pinNamesOf kind).Nodup) :
    ((∃ c, d.toConfig = .ok c) ↔ ∀ kind, (d.changes kind).AppliesTo (d.left.pinNamesOf kind)) ∧
    (∀ c, d.toConfig = .ok c → d.Describes c) ∧
    ∀ e, d.toConfig = .error e → ∃ kind entry,
      FirstMisfit ((d.changes kind).Fits (d.left.pinNamesOf kind)) (d.changes kind).entries entry ∧
      (kind = .interrupt → (d.changes .analog).AppliesTo (d.left.pinNamesOf .analog)) ∧
      e = .boardDiff d.left.name (entry.fault kind) := by
  refine ⟨exists_toConfig_iff, fun c => describes_toConfig hleft, fun e he => ?_⟩
  rcases d.toConfig_cases with ⟨fault, hfault, hend⟩ |
    ⟨analogs, ha, ⟨fault, hfault, hend⟩ | ⟨_, -, hend⟩⟩
  all_goals rw [he] at hend; cases hend
  · have hscreens := d.newAnalogs_screens
    rw [hfault] at hscreens
    obtain ⟨entry, hfirst, rfl⟩ := hscreens
    exact ⟨.analog, entry, hfirst, nofun, rfl⟩
  · have hscreens := d.newInterrupts_screens
    rw [hfault] at hscreens
    obtain ⟨entry, hfirst, rfl⟩ := hscreens
    have hanalogs := d.newAnalogs_screens.ok_iff.mp ⟨analogs, ha⟩
    exact ⟨.interrupt, entry, hfirst, fun _ => PinChanges.allFit_entries.mp hanalogs, rfl⟩

namespace Sample

def board : BoardConfig where
  name := "board"
  analogs := [⟨"a", "1", 0⟩, ⟨"b", "2", 0⟩, ⟨"c", "3", 0⟩]
  interrupts := [⟨"encoder", "15", "basic"⟩]

/-- One reader is modified twice, and one is removed and added again. -/
def rewiring : BoardConfigDiff where
  left := board
  removed := { name := "", analogs := [⟨"b", "", 0⟩] }
  modified := { name := "", model := "pi", analogs := [⟨"a", "10", 0⟩, ⟨"a", "11", 5⟩] }
  added := { name := "", analogs := [⟨"b", "20", 0⟩] }

theorem board_distinct (kind : PinKind) : (board.pinNamesOf kind).Nodup := by
  cases kind <;> decide

end Sample

/-- The later modification counts, and the reader that is added again comes last. -/
theorem toConfig_exact_sample : (∀ kind, (Sample.rewiring.left.pinNamesOf kind).Nodup) ∧
    ∃ c, Sample.rewiring.toConfig = .ok c ∧ c.model = "pi" ∧
      c.analogs = [⟨"a", "11", 5⟩, ⟨"c", "3", 0⟩, ⟨"b", "20", 0⟩] ∧
      c.interrupts = [⟨"encoder", "15", "basic"⟩] := by
  obtain ⟨hiff, hboard, -⟩ := toConfig_exact Sample.rewiring Sample.board_distinct
  have happlies : ∀ kind, (Sample.rewiring.changes kind).AppliesTo
      (Sample.rewiring.left.pinNamesOf kind) := by
    intro kind
    cases kind <;> exact ⟨by decide, by decide, by decide⟩
  obtain ⟨c, hc⟩ := hiff.mpr happlies
  have hdescribes := hboard c hc
  exact ⟨Sample.board_distinct, c, hc, hdescribes.model, hdescribes.analogs, hdescribes.interrupts⟩

/-- A reader that is removed cannot be modified. That there is no interrupt to remove would be found
later. -/
example : toConfig {
    left := Sample.board
    removed := { name := "", analogs := [⟨"b", "", 0⟩], interrupts := [⟨"ghost", "", ""⟩] }
    modified := { name := "", analogs := [⟨"b", "10", 0⟩] } } =
      .error (.boardDiff "board" (.absent .modified .analog "b")) := rfl

end BoardConfigDiff

end RobotHost
