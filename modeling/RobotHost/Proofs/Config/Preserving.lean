import RobotHost.Config.Basic
import RobotHost.Proofs.Json.Reordering

/-!
# Configurations that are written and read again

Nothing is lost when a configuration or a diff is written as JSON and read again, in whatever order
the members of its objects come (`Config.codec_lossless`), with one exception: a component type that
is kept as it was given, but goes by a known name, is read as the known type. A type that was read
is never of that sort (`Config.decode_proper`), as known names are told in any case when a type is
read. So whatever is read as a configuration stays as it is from then on.
-/

namespace RobotHost

/-! ## Types of components -/

/-- No type that is not known goes by a known name, in any case. -/
def ComponentType.Proper (t : ComponentType) : Prop :=
  ∀ name, t = .other name → ∀ known : ComponentType, known.isOther = false →
    name.toLower ≠ known.text

namespace ComponentType

/-- The types that are looked for by name are the known ones. -/
theorem isOther_eq_false_iff {t : ComponentType} :
    t.isOther = false ↔ t ∈ [arm, base, board, camera, gripper, lidar, sensor, provider] := by
  cases t <;> simp [isOther]

/-- A text in lower case stands for no type if no known type has it. -/
theorem ofLowerCase?_eq_none_iff {name : String} :
    ofLowerCase? name = none ↔
      ∀ known : ComponentType, known.isOther = false → name ≠ known.text := by
  rw [ofLowerCase?, List.find?_eq_none]
  simp only [← isOther_eq_false_iff, decide_eq_true_eq]
  exact ⟨fun h t ht heq => h t ht heq.symm, fun h t ht heq => h t ht heq.symm⟩

/-- A type is read back from its text unless it goes by a name that is not its own. -/
theorem ofString_text {t : ComponentType} (ht : t.Proper) : ofString t.text = t := by
  cases t with
  | other name =>
    have hnone : ofLowerCase? name.toLower = none := ofLowerCase?_eq_none_iff.mpr (ht name rfl)
    show (ofLowerCase? name.toLower).getD (other name) = other name
    rw [hnone, Option.getD_none]
  | arm | base | board | camera | gripper | lidar | sensor | provider => decide +kernel

/-- A type that is made of a name is known if the name is that of a known one, in any case. -/
theorem proper_ofString (name : String) : (ofString name).Proper := by
  unfold ofString
  cases h : ofLowerCase? name.toLower with
  | some t =>
    intro other hother
    obtain rfl : t = .other other := hother
    cases isOther_eq_false_iff.mpr (List.mem_of_find?_eq_some h)
  | none =>
    intro other hother
    obtain rfl := ComponentType.other.inj hother
    exact ofLowerCase?_eq_none_iff.mp h

/-- A proper type is read back from its text. -/
theorem codec_keeps {t : ComponentType} (ht : t.Proper) : codec.Keeps t :=
  Codec.through_keeps (Codec.string_keeps t.text) (ofString_text ht)

/-- Whatever text a type is read from, it is proper. -/
theorem proper_decode {d : Document} {t : ComponentType} (h : codec.decode d = .ok t) :
    t.Proper := by
  have hread : (Codec.string.decode d).map ofString = .ok t := h
  cases hs : Codec.string.decode d with
  | error e =>
    rw [hs] at hread
    cases hread
  | ok name =>
    rw [hs] at hread
    cases hread
    exact proper_ofString name

end ComponentType

/-! ## Sections -/

open Codec (string_keeps bool_keeps uint32_keeps uint64_keeps attributes_keeps)

theorem Codec.strings_keep (names : List String) : Codec.string.list.Keeps names :=
  Codec.list_keeps _ fun name _ => string_keeps name

theorem CloudConfig.codec_keeps (c : CloudConfig) : codec.Keeps c :=
  Record.keeps (by decide) <|
    .needed (string_keeps _) <|
    .defaulted (string_keeps _) <|
    .defaulted (string_keeps _) <|
    .defaulted (string_keeps _) <|
    .sparse (string_keeps _) String.isEmpty_iff.mp rfl <|
    .sparse (string_keeps _) String.isEmpty_iff.mp rfl <|
    .defaulted (uint64_keeps _) <|
    .nil c

theorem RemoteConfig.codec_keeps (r : RemoteConfig) : codec.Keeps r :=
  Record.keeps (by decide) <|
    .needed (string_keeps _) <|
    .needed (string_keeps _) <|
    .defaulted (bool_keeps _) <|
    .sparse (string_keeps _) String.isEmpty_iff.mp rfl <|
    .nil r

theorem ProcessConfig.codec_keeps (p : ProcessConfig) : codec.Keeps p :=
  Record.keeps (by decide) <|
    .needed (string_keeps _) <|
    .needed (string_keeps _) <|
    .sparse (Codec.strings_keep _) List.isEmpty_iff.mp rfl <|
    .sparse (string_keeps _) String.isEmpty_iff.mp rfl <|
    .defaulted (bool_keeps _) <|
    .defaulted (bool_keeps _) <|
    .nil p

theorem FunctionConfig.codec_keeps (f : FunctionConfig) : codec.Keeps f :=
  Record.keeps (by decide) <|
    .needed (string_keeps _) <|
    .needed (string_keeps _) <|
    .needed (string_keeps _) <|
    .nil f

theorem AnalogConfig.codec_keeps (a : AnalogConfig) : codec.Keeps a :=
  Record.keeps (by decide) <|
    .needed (string_keeps _) <|
    .needed (string_keeps _) <|
    .defaulted (uint32_keeps _) <|
    .nil a

theorem InterruptConfig.codec_keeps (i : InterruptConfig) : codec.Keeps i :=
  Record.keeps (by decide) <|
    .needed (string_keeps _) <|
    .needed (string_keeps _) <|
    .defaulted (string_keeps _) <|
    .nil i

theorem BoardConfig.codec_keeps (b : BoardConfig) : codec.Keeps b :=
  Record.keeps (by decide) <|
    .needed (string_keeps _) <|
    .defaulted (string_keeps _) <|
    .sparse (Codec.list_keeps _ fun a _ => a.codec_keeps) List.isEmpty_iff.mp rfl <|
    .sparse (Codec.list_keeps _ fun i _ => i.codec_keeps) List.isEmpty_iff.mp rfl <|
    .sparse (attributes_keeps _) NameMap.eq_empty_of_isEmpty rfl <|
    .nil b

theorem BoardConfigDiff.codec_keeps (d : BoardConfigDiff) : codec.Keeps d :=
  Record.keeps (by decide) <|
    .needed (BoardConfig.codec_keeps _) <|
    .defaulted (BoardConfig.codec_keeps _) <|
    .defaulted (BoardConfig.codec_keeps _) <|
    .defaulted (BoardConfig.codec_keeps _) <|
    .nil d

/-- A component is read back if its type is. -/
theorem Component.codec_keeps {c : Component} (hc : c.type.Proper) : codec.Keeps c :=
  Record.keeps (by decide) <|
    .needed (string_keeps _) <|
    .needed (ComponentType.codec_keeps hc) <|
    .sparse (string_keeps _) String.isEmpty_iff.mp rfl <|
    .defaulted (string_keeps _) <|
    .sparse (Codec.strings_keep _) List.isEmpty_iff.mp rfl <|
    .sparse (attributes_keeps _) NameMap.eq_empty_of_isEmpty rfl <|
    .nil c

/-- An optional value is read back if it is, and is not written as none. -/
theorem Codec.option_keeps {α : Type} {c : Codec α} (hc : ∀ x, c.Keeps x)
    (hsome : ∀ x, (c.encode x).toDocument ≠ .null) (x : Option α) : c.option.Keeps x := by
  cases x with
  | none => rfl
  | some x =>
    have hread : c.option.decode (c.encode x).toDocument =
        (c.decode (c.encode x).toDocument).map some := by
      simp only [Codec.option]
      split
      · next heq => exact absurd heq (hsome x)
      · rfl
    have hx : c.decode (c.encode x).toDocument = .ok x := hc x
    show c.option.decode (c.encode x).toDocument = _
    rw [hread, hx]
    rfl

/-! ## Configurations and diffs -/

/-- No component is of a type that goes by a known name but is not known. -/
def Config.Proper (c : Config) : Prop := ∀ x ∈ c.components, x.type.Proper

def ModifiedConfig.Proper (m : ModifiedConfig) : Prop := ∀ x ∈ m.components, x.type.Proper

structure Diff.Proper (d : Diff) : Prop where
  added : d.added.Proper
  modified : d.modified.Proper
  removed : d.removed.Proper

/-- A configuration is read back if the types of its components are; no other field has a value that
is lost. -/
theorem Config.codec_keeps {c : Config} (hc : c.Proper) : codec.Keeps c :=
  Record.keeps (by decide) <|
    .sparse (Codec.option_keeps CloudConfig.codec_keeps (fun _ => by rintro ⟨⟩) _)
      Option.isNone_iff_eq_none.mp rfl <|
    .sparse (Codec.list_keeps _ fun r _ => r.codec_keeps) List.isEmpty_iff.mp rfl <|
    .sparse (Codec.list_keeps _ fun b _ => b.codec_keeps) List.isEmpty_iff.mp rfl <|
    .sparse (Codec.list_keeps _ fun x hx => Component.codec_keeps (hc x hx))
      List.isEmpty_iff.mp rfl <|
    .sparse (Codec.list_keeps _ fun p _ => p.codec_keeps) List.isEmpty_iff.mp rfl <|
    .sparse (Codec.list_keeps _ fun f _ => f.codec_keeps) List.isEmpty_iff.mp rfl <|
    .nil c

theorem ModifiedConfig.codec_keeps {m : ModifiedConfig} (hm : m.Proper) : codec.Keeps m :=
  Record.keeps (by decide) <|
    .defaulted (Codec.list_keeps _ fun r _ => r.codec_keeps) <|
    .defaulted (Codec.table_keeps _ fun b _ => b.2.codec_keeps) <|
    .defaulted (Codec.list_keeps _ fun x hx => Component.codec_keeps (hm x hx)) <|
    .defaulted (Codec.list_keeps _ fun p _ => p.codec_keeps) <|
    .defaulted (Codec.list_keeps _ fun f _ => f.codec_keeps) <|
    .nil m

theorem Diff.codec_keeps {d : Diff} (hd : d.Proper) : codec.Keeps d :=
  Record.keeps (by decide) <|
    .defaulted (Config.codec_keeps hd.added) <|
    .defaulted (ModifiedConfig.codec_keeps hd.modified) <|
    .defaulted (Config.codec_keeps hd.removed) <|
    .nil d

/-! ## The order of members -/

@[simp]
theorem ComponentType.codec_steady : codec.Steady :=
  Codec.through_steady Codec.string_steady ofString text

@[simp]
theorem CloudConfig.codec_steady : codec.Steady :=
  Record.codec_steady (by simp [record]) (by simp [record])

@[simp]
theorem RemoteConfig.codec_steady : codec.Steady :=
  Record.codec_steady (by simp [record]) (by simp [record])

@[simp]
theorem ProcessConfig.codec_steady : codec.Steady :=
  Record.codec_steady (by simp [record]) (by simp [record])

@[simp]
theorem FunctionConfig.codec_steady : codec.Steady :=
  Record.codec_steady (by simp [record]) (by simp [record])

@[simp]
theorem AnalogConfig.codec_steady : codec.Steady :=
  Record.codec_steady (by simp [record]) (by simp [record])

@[simp]
theorem InterruptConfig.codec_steady : codec.Steady :=
  Record.codec_steady (by simp [record]) (by simp [record])

@[simp]
theorem BoardConfig.codec_steady : codec.Steady :=
  Record.codec_steady (by simp [record]) (by simp [record])

@[simp]
theorem BoardConfigDiff.codec_steady : codec.Steady :=
  Record.codec_steady (by simp [record]) (by simp [record])

@[simp]
theorem Component.codec_steady : codec.Steady :=
  Record.codec_steady (by simp [record]) (by simp [record])

@[simp]
theorem Config.codec_steady : codec.Steady :=
  Record.codec_steady (by simp [record]) (by simp [record])

@[simp]
theorem ModifiedConfig.codec_steady : codec.Steady :=
  Record.codec_steady (by simp [record]) (by simp [record])

@[simp]
theorem Diff.codec_steady : codec.Steady :=
  Record.codec_steady (by simp [record]) (by simp [record])

/-! ## What is read is proper -/

/-- Only one field of a component sets its type, and it reads proper ones. -/
theorem Component.decode_proper {d : Document} {c : Component} (h : codec.decode d = .ok c) :
    c.type.Proper := by
  have hblank : record.blank.type.Proper := by
    have htype : record.blank.type = .ofString "" := by decide +kernel
    rw [htype]
    exact ComponentType.proper_ofString ""
  refine Record.decode_holds (P := fun c : Component => c.type.Proper) hblank ?_ h
  have hsame : ∀ {τ : Type} {f : Field Component} {c : Codec τ} {set : Component → τ → Component},
      f.read = (fun d y => (c.decode d).map (set y)) → (∀ y v, (set y v).type = y.type) →
        f.Maintains fun c : Component => c.type.Proper := by
    intro _ _ _ _ hread htype
    exact Field.maintains hread fun d v y _ hy => (htype y v).symm ▸ hy
  simp only [record, List.forall_mem_cons]
  exact ⟨hsame rfl fun _ _ => rfl,
    Field.maintains rfl fun d t y ht _ => ComponentType.proper_decode ht,
    hsame rfl fun _ _ => rfl, hsame rfl fun _ _ => rfl, hsame rfl fun _ _ => rfl,
    hsame rfl fun _ _ => rfl, List.forall_mem_nil _⟩

/-- Only one field of a configuration sets its components, and it reads them with proper types. -/
theorem Config.decode_proper {d : Document} {c : Config} (h : codec.decode d = .ok c) :
    c.Proper := by
  have hblank : record.blank.Proper := fun x hx => by cases hx
  refine Record.decode_holds hblank ?_ h
  have hsame : ∀ {τ : Type} {f : Field Config} {c : Codec τ} {set : Config → τ → Config},
      f.read = (fun d y => (c.decode d).map (set y)) →
        (∀ y v, (set y v).components = y.components) → f.Maintains Config.Proper := by
    intro _ _ _ _ hread hcomponents
    refine Field.maintains hread fun d v y _ hy x hx => hy x ?_
    rwa [hcomponents] at hx
  simp only [record, List.forall_mem_cons]
  exact ⟨hsame rfl fun _ _ => rfl, hsame rfl fun _ _ => rfl, hsame rfl fun _ _ => rfl,
    Field.maintains rfl fun d xs y hxs _ =>
      Codec.list_holds (fun _ _ => Component.decode_proper) hxs,
    hsame rfl fun _ _ => rfl, hsame rfl fun _ _ => rfl, List.forall_mem_nil _⟩

/-- Nothing is lost in a configuration or a diff that is written and read again, nor in any section
of one, in whatever order the members of what was written are read. What was read as a
configuration, be it from an object or a list of fields, is what it is read as ever after. -/
theorem Config.codec_lossless :
    (∀ c : Config, c.Proper → codec.Recovers c) ∧ (∀ d : Diff, d.Proper → Diff.codec.Recovers d) ∧
      (∀ m : ModifiedConfig, m.Proper → ModifiedConfig.codec.Recovers m) ∧
      (∀ x : Component, x.type.Proper → Component.codec.Recovers x) ∧
      (∀ c : CloudConfig, CloudConfig.codec.Recovers c) ∧
      (∀ r : RemoteConfig, RemoteConfig.codec.Recovers r) ∧
      (∀ b : BoardConfig, BoardConfig.codec.Recovers b) ∧
      (∀ d : BoardConfigDiff, BoardConfigDiff.codec.Recovers d) ∧
      (∀ p : ProcessConfig, ProcessConfig.codec.Recovers p) ∧
      (∀ f : FunctionConfig, FunctionConfig.codec.Recovers f) ∧
      ∀ (d : Document) (c : Config), codec.decode d = .ok c → codec.Recovers c :=
  ⟨fun _ hc => (codec_keeps hc).recovers codec_steady,
    fun _ hd => (Diff.codec_keeps hd).recovers Diff.codec_steady,
    fun _ hm => (ModifiedConfig.codec_keeps hm).recovers ModifiedConfig.codec_steady,
    fun _ hx => (Component.codec_keeps hx).recovers Component.codec_steady,
    fun c => c.codec_keeps.recovers CloudConfig.codec_steady,
    fun r => r.codec_keeps.recovers RemoteConfig.codec_steady,
    fun b => b.codec_keeps.recovers BoardConfig.codec_steady,
    fun d => d.codec_keeps.recovers BoardConfigDiff.codec_steady,
    fun p => p.codec_keeps.recovers ProcessConfig.codec_steady,
    fun f => f.codec_keeps.recovers FunctionConfig.codec_steady,
    fun _ _ h => (codec_keeps (decode_proper h)).recovers codec_steady⟩

namespace Sample

/-- A component of a type that is not known, with a nested attribute. -/
def gadget : Component where
  name := "gadget"
  type := .other "Gizmo"
  dependsOn := ["hand"]
  attributes := .ofList [("size", ⟨.array [.int 3, .object [("unit", .string "mm")]],
    ⟨trivial, ⟨List.pairwise_singleton _ _, trivial, trivial⟩, trivial⟩⟩)]

theorem gadget_proper : gadget.type.Proper := by
  intro name hname known hknown
  obtain rfl := ComponentType.other.inj hname
  have hlower : "Gizmo".toLower = "gizmo" := by decide +kernel
  rw [hlower]
  cases known <;> simp [ComponentType.text, ComponentType.isOther] at hknown ⊢

/-- What the component is written as, sorted by key. -/
def gadgetByKey : Document :=
  .object [(some "attributes", .object [(some "size", .array
      [.int 3, .object [(some "unit", .string "mm")] .strict] .strict)] .strict),
    (some "depends_on", .array [.string "hand"] .strict), (some "model", .string ""),
    (some "name", .string "gadget"), (some "type", .string "Gizmo")] .strict

/-- The keys are declared in the opposite order, but for the first two. -/
theorem gadgetByKey_reordered :
    (Component.codec.encode gadget).toDocument.Reordered gadgetByKey :=
  .order .strict ((List.reverse_perm _).symm.trans <| .cons _ <| .cons _ <| .cons _ <| .swap _ _ _)
    (by decide)

/-- A document that spells a known type in capitals. -/
def shouted : Document :=
  .object [(some "components", .array [.object
    [(some "name", .string "hand"), (some "type", .string "ARM")] .strict] .strict)] .strict

/-- What it is read as. -/
def spoken : Config := { components := [{ name := "hand", type := .arm }] }

end Sample

/-- A type that is not known is kept as it was given, also if its component is read from members in
the order of their keys, and one in capitals is read as the one that it names. -/
theorem Config.codec_lossless_sample :
    codec.Recovers { components := [Sample.gadget] } ∧
      Diff.codec.Recovers { removed := { components := [Sample.gadget] } } ∧
      Component.codec.decode Sample.gadgetByKey = .ok Sample.gadget ∧
      codec.decode Sample.shouted = .ok Sample.spoken ∧ codec.Recovers Sample.spoken := by
  have hgadget : Config.Proper { components := [Sample.gadget] } := by
    simpa [Config.Proper] using Sample.gadget_proper
  have hnone : Config.Proper {} := fun x hx => by cases hx
  have hsame : ModifiedConfig.Proper {} := fun x hx => by cases hx
  have hshouted : codec.decode Sample.shouted = .ok Sample.spoken := by with_unfolding_all rfl
  obtain ⟨hconfigs, hdiffs, -, hcomponents, -, -, -, -, -, -, hread⟩ := codec_lossless
  exact ⟨hconfigs _ hgadget, hdiffs _ ⟨hnone, hsame, hgadget⟩,
    hcomponents _ Sample.gadget_proper _ Sample.gadgetByKey_reordered, hshouted, hread _ _ hshouted⟩

end RobotHost
