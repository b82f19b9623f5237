import RobotHost.Proofs.Config.Patching
import RobotHost.Proofs.Config.Requirements

/-!
# Whether a changed board is valid

No two pins of a valid board share a name, whatever their kinds. A diff looks for names of one kind
only: an analog reader may be added under the name of an interrupt that stays or is added as well,
and an interrupt under that of an analog reader. That is the only way in which a valid board becomes
one that is not (`BoardConfigDiff.validate_toConfig`).
-/

namespace RobotHost

/-! ## Changed pins -/

section Pins

variable {α : Type} {nameOf : α → String} {pins removed modified added : List α}

theorem nameOf_revised (modified : List α) (p : α) :
    nameOf (revised nameOf modified p) = nameOf p := by
  unfold revised
  cases hlast : modified.reverse.find? fun q => nameOf q = nameOf p with
  | none => rfl
  | some q => simpa using List.find?_some hlast

/-- A pin stays as it is, or becomes one of the modifications. -/
theorem revised_mem (nameOf : α → String) (modified : List α) (p : α) :
    revised nameOf modified p = p ∨ revised nameOf modified p ∈ modified := by
  unfold revised
  cases hlast : modified.reverse.find? fun q => nameOf q = nameOf p with
  | none => exact .inl rfl
  | some q => exact .inr (List.mem_reverse.mp (List.mem_of_find?_eq_some hlast))

/-- What holds of all pins that were there or are put in holds of those that are there
afterwards. -/
theorem forall_mem_patched {p : α → Prop} (hpins : ∀ x ∈ pins, p x)
    (hput : ∀ x ∈ added ++ modified, p x) :
    ∀ x ∈ patched nameOf pins removed modified added, p x := by
  intro x hx
  rcases List.mem_append.mp hx with hx | hx
  · obtain ⟨q, hq, rfl⟩ := List.mem_map.mp hx
    rcases revised_mem nameOf modified q with heq | hmem
    · rw [heq]
      exact hpins q (List.mem_filter.mp hq).1
    · exact hput _ (List.mem_append_right _ hmem)
  · exact hput x (List.mem_append_left _ hx)

/-- Changes that can be made leave pins of one kind with distinct names. -/
theorem nodup_patched (hpins : (pins.map nameOf).Nodup)
    (h : (changesOf nameOf removed modified added).AppliesTo (pins.map nameOf)) :
    ((patched nameOf pins removed modified added).map nameOf).Nodup := by
  have hnames : (patched nameOf pins removed modified added).map nameOf =
      (pins.filter fun p => nameOf p ∉ removed.map nameOf).map nameOf ++ added.map nameOf := by
    simp only [patched, List.map_append, List.map_map]
    congr 1
    exact List.map_congr_left fun p _ => nameOf_revised modified p
  rw [hnames]
  refine List.nodup_append.mpr ⟨hpins.sublist (List.filter_sublist.map nameOf), h.added.1, ?_⟩
  rintro name hleft _ hadded rfl
  obtain ⟨hmem, hkept⟩ := (mem_map_filter fun name => name ∉ removed.map nameOf).mp hleft
  exact hkept (h.added.2 name hadded hmem)

end Pins

/-- What comes again in two lists of distinct names is in both. -/
theorem mem_both_of_misfit {xs ys : List String} {name : String} (hxs : xs.Nodup) (hys : ys.Nodup)
    (h : FirstMisfit (fun before n => n ∉ before) (xs ++ ys) name) : name ∈ xs ∧ name ∈ ys := by
  obtain ⟨before, after, heq, -, hagain⟩ := h
  -- the name is counted twice, but only once in either list
  have htwice : 2 ≤ (xs ++ ys).count name := by
    rw [heq, List.count_append, List.count_cons_self]
    have := List.count_pos_iff.mpr (not_not.mp hagain)
    omega
  rw [List.count_append] at htwice
  have hx := List.nodup_iff_count_le_one.mp hxs name
  have hy := List.nodup_iff_count_le_one.mp hys name
  exact ⟨List.count_pos_iff.mp (by omega), List.count_pos_iff.mp (by omega)⟩

/-! ## Boards that are valid kind by kind -/

namespace BoardConfig

variable {b : BoardConfig}

/-- A board that has all it needs, except that pins of different kinds may share a name. -/
structure ValidByKind (b : BoardConfig) : Prop where
  name : b.name ≠ ""
  analogs : ∀ a ∈ b.analogs, a.name ≠ "" ∧ a.pin ≠ ""
  interrupts : ∀ i ∈ b.interrupts, i.name ≠ "" ∧ i.pin ≠ ""
  distinct : ∀ kind, (b.pinNamesOf kind).Nodup

theorem Valid.byKind (h : b.Valid) : b.ValidByKind where
  name := h.name
  analogs := h.analogs
  interrupts := h.interrupts
  distinct kind := by
    obtain ⟨hanalogs, hinterrupts, -⟩ := List.nodup_append.mp h.distinct
    cases kind with
    | analog => exact hanalogs
    | interrupt => exact hinterrupts

/-- No name of a valid board stands for pins of both kinds. -/
theorem Valid.apart (h : b.Valid) {name : String} (ha : name ∈ b.pinNamesOf .analog) :
    name ∉ b.pinNamesOf .interrupt :=
  fun hi => (List.nodup_append.mp h.distinct).2.2 name ha name hi rfl

/-- All that a board that is valid kind by kind can lack is that no name is used by both kinds. -/
theorem ValidByKind.valid_iff (h : b.ValidByKind) :
    b.Valid ↔ ∀ name ∈ b.pinNamesOf .analog, name ∉ b.pinNamesOf .interrupt := by
  refine ⟨fun hvalid name => hvalid.apart, fun hapart => ?_⟩
  refine ⟨h.name, h.analogs, h.interrupts, List.nodup_append.mpr ⟨h.distinct .analog,
    h.distinct .interrupt, ?_⟩⟩
  rintro name ha _ hi rfl
  exact hapart name ha hi

/-- Such a board can only be refused for a name of both kinds. -/
theorem ValidByKind.validate_error (h : b.ValidByKind) {path : String} {e : ConfigError}
    (he : b.validate path = .error e) : ∃ name, name ∈ b.pinNamesOf .analog ∧
      name ∈ b.pinNamesOf .interrupt ∧ e = .repeatedPinName path name := by
  have hchecks := b.validate_checks path
  rw [he] at hchecks
  obtain ⟨r, ⟨before, after, heq, -, hunmet⟩, hreports⟩ := hchecks
  have hmem : r ∈ b.requirements path := by
    rw [heq]
    exact List.mem_append_right _ List.mem_cons_self
  simp only [requirements, List.mem_append, List.mem_singleton] at hmem
  -- within each kind all is well, so only the check over both is left
  rcases hmem with ((rfl | hr) | hr) | rfl
  · exact absurd h.name hunmet
  · have hmet : r.Met :=
      (forall_mem_requiredOfEach AnalogConfig.forall_requirements).mpr h.analogs r hr
    exact absurd hmet hunmet
  · have hmet : r.Met :=
      (forall_mem_requiredOfEach InterruptConfig.forall_requirements).mpr h.interrupts r hr
    exact absurd hmet hunmet
  · obtain ⟨name, hagain, rfl⟩ := hreports
    obtain ⟨ha, hi⟩ := mem_both_of_misfit (h.distinct .analog) (h.distinct .interrupt) hagain
    exact ⟨name, ha, hi, rfl⟩

end BoardConfig

/-! ## The new board -/

namespace BoardConfigDiff

variable {d : BoardConfigDiff} {c : BoardConfig}

/-- What a diff puts in has names and pins. -/
structure Filled (d : BoardConfigDiff) : Prop where
  analogs : ∀ a ∈ d.added.analogs ++ d.modified.analogs, a.name ≠ "" ∧ a.pin ≠ ""
  interrupts : ∀ i ∈ d.added.interrupts ++ d.modified.interrupts, i.name ≠ "" ∧ i.pin ≠ ""

/-- The diff adds this name to the pins of one kind, while it stays or comes among those of the
other. -/
def Crosses (d : BoardConfigDiff) (name : String) : Prop :=
  ∃ kind other, kind ≠ other ∧ name ∈ (d.changes kind).added ∧
    (name ∈ (d.changes other).added ∨
      name ∈ d.left.pinNamesOf other ∧ name ∉ (d.changes other).removed)

/-- A diff keeps a board valid kind by kind. -/
theorem validByKind_toConfig (hleft : d.left.ValidByKind) (hfilled : d.Filled)
    (h : d.toConfig = .ok c) : c.ValidByKind := by
  have hc := describes_toConfig hleft.distinct h
  have happlies := exists_toConfig_iff.mp ⟨c, h⟩
  refine ⟨?_, ?_, ?_, fun kind => ?_⟩
  · rw [hc.name]
    exact hleft.name
  · rw [hc.analogs]
    exact forall_mem_patched hleft.analogs hfilled.analogs
  · rw [hc.interrupts]
    exact forall_mem_patched hleft.interrupts hfilled.interrupts
  · cases kind with
    | analog =>
      rw [BoardConfig.pinNamesOf, hc.analogs]
      exact nodup_patched (hleft.distinct .analog) (happlies .analog)
    | interrupt =>
      rw [BoardConfig.pinNamesOf, hc.interrupts]
      exact nodup_patched (hleft.distinct .interrupt) (happlies .interrupt)

/-- The names that both kinds come to share are those that cross. -/
theorem crosses_iff (hleft : d.left.Valid) (h : d.toConfig = .ok c) {name : String} :
    d.Crosses name ↔ name ∈ c.pinNamesOf .analog ∧ name ∈ c.pinNamesOf .interrupt := by
  rw [mem_pinNames_toConfig h, mem_pinNames_toConfig h]
  constructor
  · rintro ⟨kind, other, hne, hadded, hother⟩
    cases kind <;> cases other
    · exact absurd rfl hne
    · exact ⟨.inr hadded, hother.symm⟩
    · exact ⟨hother.symm, .inr hadded⟩
    · exact absurd rfl hne
  · -- a name of both kinds was added to one of them, since no pins of a valid board share it
    rintro ⟨ha | ha, hi | hi⟩
    · exact absurd hi.1 (hleft.apart ha.1)
    · exact ⟨.interrupt, .analog, nofun, hi, .inr ha⟩
    · exact ⟨.analog, .interrupt, nofun, ha, .inr hi⟩
    · exact ⟨.analog, .interrupt, nofun, ha, .inl hi⟩

/-- A diff to a valid board that puts in pins with names leads to a valid board exactly if no name
crosses. If one does, the new board would be refused for such a name. -/
theorem validate_toConfig (path path' : String) (hleft : d.left.validate path = .ok ())
    (hfilled : d.Filled) (h : d.toConfig = .ok c) :
    (c.validate path' = .ok () ↔ ∀ name, ¬d.Crosses name) ∧
    ∀ e, c.validate path' = .error e →
      ∃ name, d.Crosses name ∧ e = .repeatedPinName path' name := by
  have hleft := BoardConfig.validate_eq_ok.mp hleft
  have hc := validByKind_toConfig hleft.byKind hfilled h
  refine ⟨?_, fun e he => ?_⟩
  · rw [BoardConfig.validate_eq_ok, hc.valid_iff]
    exact forall_congr' fun name => by rw [crosses_iff hleft h, not_and]
  · obtain ⟨name, ha, hi, rfl⟩ := hc.validate_error he
    exact ⟨name, (crosses_iff hleft h).mpr ⟨ha, hi⟩, rfl⟩

namespace Sample

def knob : BoardConfig where
  name := "knob"
  interrupts := [⟨"turn", "15", "basic"⟩]

/-- The name goes from an interrupt to an analog reader. -/
def moving : BoardConfigDiff where
  left := knob
  removed := { name := "", interrupts := [⟨"turn", "", ""⟩] }
  added := { name := "", analogs := [⟨"turn", "9", 0⟩] }

/-- An analog reader is added under the name of an interrupt that stays. -/
def crossing : BoardConfigDiff where
  left := knob
  added := { name := "", analogs := [⟨"turn", "9", 0⟩] }

theorem knob_valid : knob.validate "boards.0" = .ok () := rfl

theorem moving_filled : moving.Filled := ⟨by decide, by decide⟩

theorem crossing_filled : crossing.Filled := ⟨by decide, by decide⟩

end Sample

theorem validate_toConfig_sample : Sample.knob.validate "boards.0" = .ok () ∧ Sample.moving.Filled ∧
    ∃ c, Sample.moving.toConfig = .ok c ∧ (∀ name, ¬Sample.moving.Crosses name) ∧
      c.validate "boards.1" = .ok () := by
  obtain ⟨c, hc⟩ : ∃ c, Sample.moving.toConfig = .ok c := ⟨_, rfl⟩
  have happart : ∀ name, ¬Sample.moving.Crosses name := by
    rintro name ⟨kind, other, hne, hadded, hother⟩
    revert hadded hother hne
    cases kind <;> cases other <;>
      simp +contextual [Sample.moving, Sample.knob, changes, analogChanges, interruptChanges,
        BoardConfig.pinNamesOf]
  obtain ⟨hvalid, -⟩ := validate_toConfig "boards.0" "boards.1" Sample.knob_valid
    Sample.moving_filled hc
  exact ⟨Sample.knob_valid, Sample.moving_filled, c, hc, happart, hvalid.mpr happart⟩

/-- A diff is carried out although the new board has an analog reader and an interrupt of one
name. -/
theorem crossing_name_accepted : Sample.crossing.left.validate "boards.0" = .ok () ∧
    Sample.crossing.Filled ∧ ∃ c, Sample.crossing.toConfig = .ok c ∧ ¬c.pinNames.Nodup ∧
      c.validate "boards.0" = .error (.repeatedPinName "boards.0" "turn") :=
  ⟨Sample.knob_valid, Sample.crossing_filled, _, rfl, by decide, rfl⟩

end BoardConfigDiff

end RobotHost
