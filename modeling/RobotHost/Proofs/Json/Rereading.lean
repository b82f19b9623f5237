import RobotHost.Json.Record

/-!
# Records that are read again

A record is written as an object with a member for each field that is not left out. Reading that
object goes through the members in the order of the fields, so what a record was written as is read
back field by field: a field that was written sets its value, and one that was left out keeps what a
blank record has. `Record.keeps` puts this together for a whole record.

The second theme is what can be said of everything that is read. A property that a blank record has,
and that reading a field maintains, holds of whatever a document is read as (`Record.decode_holds`).
-/

namespace RobotHost

variable {σ τ : Type}

/-! ## From one field to the next -/

/-- Reading what the field writes of `x` leads from `y` to `z`. A field that is left out may be
missing, and changes nothing. -/
def Field.Carries (f : Field σ) (x y z : σ) : Prop :=
  match f.write x with
  | some j => f.read j.toDocument y = .ok z
  | none => f.required = false ∧ z = y

/-- Reading what fields write of `x`, one after the other, leads from one record to another. -/
inductive Refills (x : σ) : List (Field σ) → σ → σ → Prop
  | nil (y : σ) : Refills x [] y y
  | cons {f : Field σ} {fields : List (Field σ)} {y z y' : σ} (hf : f.Carries x y z)
    (hrest : Refills x fields z y') : Refills x (f :: fields) y y'

namespace Refills

variable {c : Codec τ} {key : String} {get : σ → τ} {set : σ → τ → σ} {isNothing : τ → Bool}
  {fields : List (Field σ)} {x y y' : σ}

/-- What a field writes of a record sets its value in another. -/
theorem read_encode (hc : c.Keeps (get x)) :
    (c.decode (c.encode (get x)).toDocument).map (set y) = .ok (set y (get x)) :=
  congrArg (Except.map (set y)) hc

/-- A field that must be given is always written. -/
theorem needed (hc : c.Keeps (get x)) (hrest : Refills x fields (set y (get x)) y') :
    Refills x (.needed key c get set :: fields) y y' :=
  cons (read_encode hc) hrest

theorem defaulted (hc : c.Keeps (get x)) (hrest : Refills x fields (set y (get x)) y') :
    Refills x (.defaulted key c get set :: fields) y y' :=
  cons (read_encode hc) hrest

/-- A field that holds nothing is left out; then the record that is being read must hold nothing in
it either. -/
theorem sparse (hc : c.Keeps (get x)) (hnothing : isNothing (get x) = true → get x = get y)
    (hset : set y (get y) = y) (hrest : Refills x fields (set y (get x)) y') :
    Refills x (.sparse key c isNothing get set :: fields) y y' := by
  refine cons ?_ hrest
  by_cases hx : isNothing (get x) = true
  · have hwrite : (Field.sparse key c isNothing get set).write x = none := if_pos hx
    simp only [Field.Carries, hwrite, hnothing hx, hset]
    exact ⟨rfl, trivial⟩
  · have hwrite : (Field.sparse key c isNothing get set).write x = some (c.encode (get x)) :=
      if_neg hx
    simp only [Field.Carries, hwrite]
    exact read_encode hc

end Refills

/-! ## Whole records -/

namespace Record

variable {r : Record σ} {x y z : σ}

/-- The members that some fields of a record are written as. -/
def membersOf (fields : List (Field σ)) (x : σ) : List (String × Json) :=
  fields.filterMap fun f => (f.write x).map fun j => (f.key, j)

theorem membersOf_cons_some {f : Field σ} {j : Json} (hf : f.write x = some j)
    (fields : List (Field σ)) : membersOf (f :: fields) x = (f.key, j) :: membersOf fields x := by
  simp [membersOf, hf]

theorem membersOf_cons_none {f : Field σ} (hf : f.write x = none) (fields : List (Field σ)) :
    membersOf (f :: fields) x = membersOf fields x := by
  simp [membersOf, hf]

/-- A field is found by its key, as no two fields share one. -/
theorem find?_key {before after : List (Field σ)} {f : Field σ}
    (hkeys : ((before ++ f :: after).map Field.key).Nodup) :
    (before ++ f :: after).find? (fun g => g.key = f.key) = some f := by
  rw [List.map_append, List.map_cons, List.nodup_append] at hkeys
  have hbefore : ∀ g ∈ before, g.key ≠ f.key := fun g hg =>
    hkeys.2.2 g.key (List.mem_map_of_mem hg) f.key List.mem_cons_self
  rw [List.find?_append, List.find?_eq_none.mpr (by simpa using hbefore)]
  simp

/-- What the fields after some others are written as is read back. The fields before have been
dealt with: those that were seen are among them, and none that is required was missed. -/
theorem decodeFields_members {before after : List (Field σ)} {seen : List String}
    (hr : r.fields = before ++ after) (hkeys : (r.fields.map Field.key).Nodup)
    (hseen : ∀ key ∈ seen, key ∈ before.map Field.key)
    (hrequired : ∀ f ∈ before, f.required = true → f.key ∈ seen) (h : Refills x after y z) :
    r.decodeFields .strict seen y
      ((membersOf after x).map fun m => (some m.1, m.2.toDocument)) = .ok z := by
  induction h generalizing before seen with
  -- nothing is left to be read, so a field that has to be there was seen
  | nil y =>
    have hmissing : r.missing? seen = none := by
      refine List.find?_eq_none.mpr fun f hf hbad => ?_
      rw [hr, List.append_nil] at hf
      simp only [Bool.and_eq_true, Bool.not_eq_true', List.contains_eq_mem,
        decide_eq_false_iff_not] at hbad
      exact hbad.2 (hrequired f hf hbad.1)
    simp [membersOf, decodeFields, hmissing]
  | @cons f fields y u z hf hrest ih =>
    have hr' : r.fields = (before ++ [f]) ++ fields := by simp [hr]
    have hlater : ∀ key ∈ seen, key ∈ (before ++ [f]).map Field.key := fun key hkey => by
      simp only [List.map_append, List.mem_append]
      exact Or.inl (hseen key hkey)
    unfold Field.Carries at hf
    cases hwrite : f.write x with
    | none =>
      rw [hwrite] at hf
      -- a field that is not written may be missing, and then its default is what it had
      obtain ⟨hoptional, rfl⟩ := hf
      rw [membersOf_cons_none hwrite]
      refine ih hr' hlater fun g hg hreq => ?_
      rcases List.mem_append.mp hg with hg | hg
      · exact hrequired g hg hreq
      · rw [List.mem_singleton.mp hg, hoptional] at hreq
        cases hreq
    | some j =>
      rw [hwrite] at hf
      have hfind : r.fields.find? (fun g => g.key = f.key) = some f := by
        rw [hr] at hkeys ⊢
        exact find?_key hkeys
      -- keys differ from field to field, and only those of earlier fields were seen
      have hnew : seen.contains f.key = false := by
        rw [List.contains_eq_mem, decide_eq_false_iff_not]
        intro hmem
        rw [hr, List.map_append, List.map_cons, List.nodup_append] at hkeys
        exact hkeys.2.2 f.key (hseen _ hmem) f.key List.mem_cons_self rfl
      rw [membersOf_cons_some hwrite, List.map_cons, decodeFields, hfind]
      simp only [hnew, Bool.false_eq_true, if_false, hf]
      refine ih hr' (fun key hkey => ?_) fun g hg hreq => ?_
      · rcases List.mem_cons.mp hkey with rfl | hkey
        · simp
        · exact hlater key hkey
      · rcases List.mem_append.mp hg with hg | hg
        · exact List.mem_cons_of_mem _ (hrequired g hg hreq)
        · rw [List.mem_singleton.mp hg]
          exact List.mem_cons_self

/-- A record whose fields lead from a blank one back to it is read back as it was written. -/
theorem keeps (hkeys : (r.fields.map Field.key).Nodup) (h : Refills x r.fields r.blank x) :
    r.codec.Keeps x := by
  have hmembers : (r.codec.encode x).toDocument =
      .object ((membersOf r.fields x).map fun m => (some m.1, m.2.toDocument)) .strict := by
    show Document.object _ _ = _
    rw [Json.membersToDocument_eq_map]
    rfl
  have hall : r.fields = [] ++ r.fields := rfl
  show r.decode (r.codec.encode x).toDocument = .ok x
  rw [hmembers]
  exact decodeFields_members hall hkeys (by simp) (by simp) h

end Record

/-! ## What holds of all that is read -/

/-- Reading the field leaves a property of records true. -/
def Field.Maintains (f : Field σ) (P : σ → Prop) : Prop :=
  ∀ d y z, f.read d y = .ok z → P y → P z

/-- It does if setting any value that can be read leaves it true. -/
theorem Field.maintains {f : Field σ} {c : Codec τ} {set : σ → τ → σ} {P : σ → Prop}
    (hf : f.read = fun d y => (c.decode d).map (set y))
    (h : ∀ d v y, c.decode d = .ok v → P y → P (set y v)) : f.Maintains P := by
  intro d y z hz hy
  have hset : (c.decode d).map (set y) = .ok z := by
    rw [hf] at hz
    exact hz
  cases hv : c.decode d with
  | error e =>
    rw [hv] at hset
    cases hset
  | ok v =>
    rw [hv] at hset
    cases hset
    exact h d v y hv hy

namespace Record

variable {r : Record σ} {P : σ → Prop} {ending : Ending} {x y : σ}

/-- A property that fields maintain is kept through the members of an object. -/
theorem decodeFields_holds (hfields : ∀ f ∈ r.fields, f.Maintains P) {seen : List String}
    {fields : List (Option String × Document)} (hx : P x)
    (h : r.decodeFields ending seen x fields = .ok y) : P y := by
  induction fields generalizing seen x with
  | nil =>
    unfold decodeFields at h
    split at h
    · cases h
    · split at h
      · cases h
      · cases h
        exact hx
  | cons e rest ih =>
    obtain ⟨key, d⟩ := e
    cases key with
    | none => cases h
    | some key =>
      unfold decodeFields at h
      cases hfind : r.fields.find? fun f => f.key = key with
      | none =>
        simp only [hfind] at h
        split at h
        · exact ih hx h
        · cases h
      | some f =>
        simp only [hfind] at h
        split at h
        · cases h
        · cases hread : f.read d x with
          | error e =>
            rw [hread] at h
            cases h
          | ok z =>
            rw [hread] at h
            exact ih (hfields f (List.mem_of_find?_eq_some hfind) d x z hread hx) h

theorem decodeItems_holds {index : Nat} {fields : List (Field σ)} {items : List Document}
    (hfields : ∀ f ∈ fields, f.Maintains P) (hx : P x)
    (h : r.decodeItems ending index x fields items = .ok y) : P y := by
  induction fields generalizing index items x with
  | nil =>
    cases items with
    | nil =>
      unfold decodeItems at h
      split at h
      · cases h
      · cases h
        exact hx
    | cons d rest =>
      unfold decodeItems at h
      split at h
      · cases h
        exact hx
      · cases h
  | cons f fields ih =>
    have hrest := fun g hg => hfields g (List.mem_cons_of_mem f hg)
    cases items with
    | nil =>
      unfold decodeItems at h
      split at h
      · cases h
      · split at h
        · cases h
        · exact ih hrest hx h
    | cons d rest =>
      unfold decodeItems at h
      cases hread : f.read d x with
      | error e =>
        rw [hread] at h
        cases h
      | ok z =>
        rw [hread] at h
        exact ih hrest (hfields f List.mem_cons_self d x z hread hx) h

/-- What a blank record has, and the reading of each field maintains, is true of every record that is
read, be it from an object or from a list of fields. -/
theorem decode_holds (hblank : P r.blank) (hfields : ∀ f ∈ r.fields, f.Maintains P)
    {d : Document} (h : r.decode d = .ok y) : P y := by
  cases d with
  | object fields ending => exact decodeFields_holds hfields hblank h
  | array items ending => exact decodeItems_holds hfields hblank h
  | null | bool | int | float | string | unfit | broken => cases h

end Record

/-- What is true of every value that a codec reads is true of every element of a list that is read. -/
theorem Codec.list_holds {c : Codec τ} {P : τ → Prop} (hc : ∀ d x, c.decode d = .ok x → P x)
    {d : Document} {xs : List τ} (h : c.list.decode d = .ok xs) : ∀ x ∈ xs, P x := by
  cases d with
  | array items ending =>
    have hitems : c.decodeItems ending items = .ok xs := h
    -- the ending is looked at only after the last item, so it is the same throughout
    induction items generalizing xs with
    | nil =>
      unfold Codec.decodeItems at hitems
      split at hitems
      · cases hitems
      · cases hitems
        simp
    | cons d rest ih =>
      unfold Codec.decodeItems at hitems
      cases hx : c.decode d with
      | error e =>
        rw [hx] at hitems
        cases hitems
      | ok x =>
        cases hrest : c.decodeItems ending rest with
        | error e =>
          rw [hx, hrest] at hitems
          cases hitems
        | ok ys =>
          rw [hx, hrest] at hitems
          cases hitems
          refine List.forall_mem_cons.mpr ⟨hc d x hx, ih hrest hrest⟩
  | object | null | bool | int | float | string | unfit | broken => cases h

end RobotHost
