import Mathlib.Data.List.Pairwise
import RobotHost.Proofs.Json.Rereading

/-!
# Documents in another order

What is written as JSON may come back with the members of its objects in another order, sorted by
key for one. A document is *reordered* if the members of some of its objects, at any depth, stand in
another order than before; an object that repeats a key is left as it is.

A codec is *steady* if it reads the same from a reordered document. All objects are read member by
member, so for each of the three readers it is enough that it does not matter which of two
neighbours with different keys comes first; what that says of a whole object is said once
(`Reads.perm`). For a record it comes down to its fields: each is read steadily, and any two may be
set in either order (`Record.codec_steady`).

A value that is read back as it was written is then read back from any reordering of it, too
(`Codec.Keeps.recovers`).
-/

namespace RobotHost

/-! ## Reordered documents -/

/-- The second document is the first one with members of objects in another order. -/
inductive Document.Reordered : Document → Document → Prop
  | refl (d : Document) : Reordered d d
  | trans {d d' d'' : Document} (h : Reordered d d') (h' : Reordered d' d'') : Reordered d d''
  /-- Something is reordered within an element of a list. -/
  | item {d d' : Document} (before after : List Document) (ending : Ending) (h : Reordered d d') :
    Reordered (.array (before ++ d :: after) ending) (.array (before ++ d' :: after) ending)
  /-- Something is reordered within a member of an object. -/
  | member {d d' : Document} (key : Option String) (before after : List (Option String × Document))
    (ending : Ending) (h : Reordered d d') :
    Reordered (.object (before ++ (key, d) :: after) ending)
      (.object (before ++ (key, d') :: after) ending)
  /-- The members of an object are reordered. -/
  | order {fields fields' : List (Option String × Document)} (ending : Ending)
    (hperm : fields.Perm fields') (hkeys : (fields.map Prod.fst).Nodup) :
    Reordered (.object fields ending) (.object fields' ending)

theorem Document.skippableItems_iff {items : List Document} :
    skippableItems items = true ↔ ∀ d ∈ items, d.skippable = true := by
  induction items with
  | nil => simp [skippableItems]
  | cons d rest ih => simp [skippableItems, ih]

theorem Document.skippableFields_iff {fields : List (Option String × Document)} :
    skippableFields fields = true ↔ ∀ e ∈ fields, e.2.skippable = true := by
  induction fields with
  | nil => simp [skippableFields]
  | cons e rest ih =>
    obtain ⟨key, d⟩ := e
    simp [skippableFields, ih]

/-- What can be skipped can be skipped in any order. -/
theorem Document.Reordered.skippable {d d' : Document} (h : d.Reordered d')
    (hd : d.skippable = true) : d'.skippable = true := by
  induction h with
  | refl d => exact hd
  | trans _ _ ih ih' => exact ih' (ih hd)
  | item before after ending _ ih =>
    simp only [Document.skippable, Bool.and_eq_true, skippableItems_iff, List.mem_append,
      List.mem_cons] at hd ⊢
    refine ⟨hd.1, fun e he => ?_⟩
    rcases he with he | rfl | he
    · exact hd.2 e (.inl he)
    · exact ih (hd.2 _ (.inr (.inl rfl)))
    · exact hd.2 e (.inr (.inr he))
  | member key before after ending _ ih =>
    simp only [Document.skippable, Bool.and_eq_true, skippableFields_iff, List.mem_append,
      List.mem_cons] at hd ⊢
    refine ⟨hd.1, fun e he => ?_⟩
    rcases he with he | rfl | he
    · exact hd.2 e (.inl he)
    · exact ih (hd.2 (key, _) (.inr (.inl rfl)))
    · exact hd.2 e (.inr (.inr he))
  | order ending hperm _ =>
    simp only [Document.skippable, Bool.and_eq_true, skippableFields_iff] at hd ⊢
    exact ⟨hd.1, fun e he => hd.2 e (hperm.mem_iff.mpr he)⟩

/-! ## Going through a list -/

section Reads

variable {σ ε α β : Type} {run : σ → List α → Except ε β} {xs ys before after : List α} {x y : α}

/-- From any state on, what comes of the one list comes of the other, too. -/
def Reads (run : σ → List α → Except ε β) (xs ys : List α) : Prop :=
  ∀ s r, run s xs = .ok r → run s ys = .ok r

theorem Reads.trans {zs : List α} (h : Reads run xs ys) (h' : Reads run ys zs) :
    Reads run xs zs :=
  fun s r hr => h' s r (h s r hr)

/-- Elements are dealt with one after the other. -/
def InSequence (run : σ → List α → Except ε β) : Prop :=
  ∀ x xs ys, Reads run xs ys → Reads run (x :: xs) (x :: ys)

/-- An element can be exchanged anywhere if it can be at the front. -/
theorem Reads.replace (hrun : InSequence run)
    (hfront : ∀ rest, Reads run (x :: rest) (y :: rest)) :
    Reads run (before ++ x :: after) (before ++ y :: after) := by
  induction before with
  | nil => exact hfront after
  | cons z before ih => exact hrun z _ _ ih

/-- Members of different keys can be put in any order if neighbours can be swapped. -/
theorem Reads.perm {κ τ : Type} {run : σ → List (κ × τ) → Except ε β} {xs ys : List (κ × τ)}
    (hrun : InSequence run)
    (hswap : ∀ x y rest, x.1 ≠ y.1 → Reads run (x :: y :: rest) (y :: x :: rest))
    (hperm : xs.Perm ys) (hkeys : (xs.map Prod.fst).Nodup) : Reads run xs ys := by
  induction hperm with
  | nil => exact fun _ _ hr => hr
  | cons x _ ih => exact hrun x _ _ (ih (List.nodup_cons.mp hkeys).2)
  | swap x y rest =>
    have hne : y.1 ≠ x.1 := fun heq => by simp [heq] at hkeys
    exact hswap y x rest hne
  | trans h _ ih ih' => exact (ih hkeys).trans (ih' ((h.map Prod.fst).nodup_iff.mp hkeys))

end Reads

/-! ## Steady codecs -/

namespace Codec

variable {α β : Type} {c : Codec α} {d d' : Document}

/-- The order of members makes no difference to what is read. -/
def Steady (c : Codec α) : Prop :=
  ∀ d d' x, d.Reordered d' → c.decode d = .ok x → c.decode d' = .ok x

/-- The value is found again in what it was written as, in whatever order the members come. -/
def Recovers (c : Codec α) (x : α) : Prop :=
  ∀ d, (c.encode x).toDocument.Reordered d → c.decode d = .ok x

/-- A steady codec that reads a value back does so from every reordering of what was written. -/
theorem Keeps.recovers {x : α} (h : c.Keeps x) (hc : c.Steady) : c.Recovers x :=
  fun d hd => hc _ d x hd h

/-- A codec is steady if it is for what happens within a list, within a member, and to members. -/
theorem steady_of
    (hitem : ∀ {d d' before after ending x}, d.Reordered d' →
      c.decode (.array (before ++ d :: after) ending) = .ok x →
      c.decode (.array (before ++ d' :: after) ending) = .ok x)
    (hmember : ∀ {d d' key before after ending x}, d.Reordered d' →
      c.decode (.object (before ++ (key, d) :: after) ending) = .ok x →
      c.decode (.object (before ++ (key, d') :: after) ending) = .ok x)
    (horder : ∀ {fields fields' ending x}, fields.Perm fields' → (fields.map Prod.fst).Nodup →
      c.decode (.object fields ending) = .ok x → c.decode (.object fields' ending) = .ok x) :
    c.Steady := by
  intro d d' x h hx
  induction h with
  | refl d => exact hx
  | trans _ _ ih ih' => exact ih' (ih hx)
  | item before after ending h => exact hitem h hx
  | member key before after ending h => exact hmember h hx
  | order ending hperm hkeys => exact horder hperm hkeys hx

/-- Texts, truth values and numbers have no members. -/
@[simp]
theorem string_steady : string.Steady :=
  steady_of (fun _ h => by cases h) (fun _ h => by cases h) fun _ _ h => by cases h

@[simp]
theorem bool_steady : bool.Steady :=
  steady_of (fun _ h => by cases h) (fun _ h => by cases h) fun _ _ h => by cases h

@[simp]
theorem uint32_steady : uint32.Steady :=
  steady_of (fun _ h => by cases h) (fun _ h => by cases h) fun _ _ h => by cases h

@[simp]
theorem uint64_steady : uint64.Steady :=
  steady_of (fun _ h => by cases h) (fun _ h => by cases h) fun _ _ h => by cases h

/-! ### Lists and other values -/

/-- A list is read if its first element is and then the others are. -/
theorem decodeItems_cons_eq_ok_iff {ending : Ending} {rest : List Document} {xs : List α} :
    c.decodeItems ending (d :: rest) = .ok xs ↔
      ∃ y ys, c.decode d = .ok y ∧ c.decodeItems ending rest = .ok ys ∧ xs = y :: ys := by
  rw [decodeItems]
  cases c.decode d with
  | error e => simp [bind, Except.bind]
  | ok y =>
    cases c.decodeItems ending rest with
    | error e => simp [bind, Except.bind]
    | ok ys => simp [bind, Except.bind, pure, Except.pure, eq_comm]

/-- A list is read element by element, each at its place. -/
@[simp]
theorem list_steady (hc : c.Steady) : c.list.Steady := by
  refine steady_of (fun {d d' before after ending xs} hd hxs => ?_) (fun _ h => by cases h)
    fun _ _ h => by cases h
  have hrun : InSequence fun (_ : Unit) => c.decodeItems ending := by
    intro d items items' h _ xs hxs
    obtain ⟨y, ys, hy, hys, rfl⟩ := decodeItems_cons_eq_ok_iff.mp hxs
    exact decodeItems_cons_eq_ok_iff.mpr ⟨y, ys, hy, h () _ hys, rfl⟩
  refine Reads.replace hrun (fun rest _ xs hxs => ?_) () xs hxs
  obtain ⟨y, ys, hy, hys, rfl⟩ := decodeItems_cons_eq_ok_iff.mp hxs
  exact decodeItems_cons_eq_ok_iff.mpr ⟨y, ys, hc d d' y hd hy, hys, rfl⟩

theorem map_eq_ok {ε : Type} {f : α → β} {r r' : Except ε α} {y : β}
    (h : ∀ x, r = .ok x → r' = .ok x) (hy : r.map f = .ok y) : r'.map f = .ok y := by
  cases hr : r with
  | error e =>
    rw [hr] at hy
    cases hy
  | ok x => rwa [h x hr, ← hr]

/-- What is read may be converted. -/
@[simp]
theorem through_steady (hc : c.Steady) (read : α → β) (write : β → α) :
    (c.through read write).Steady :=
  fun d d' _ hd => map_eq_ok fun x => hc d d' x hd

/-- Neither a list nor an object is `null`, so that the values within are read. -/
@[simp]
theorem option_steady (hc : c.Steady) : c.option.Steady :=
  steady_of (fun hd => map_eq_ok fun x => hc _ _ x (.item _ _ _ hd))
    (fun hd => map_eq_ok fun x => hc _ _ x (.member _ _ _ _ hd))
    fun hperm hkeys => map_eq_ok fun x => hc _ _ x (.order _ hperm hkeys)

/-! ### Tables -/

/-- A table is read if its first member is and, with that written down, the others are. -/
theorem decodeEntries_cons_eq_ok_iff {ending : Ending} {m m' : NameMap α} {key : Option String}
    {rest : List (Option String × Document)} :
    c.decodeEntries ending m ((key, d) :: rest) = .ok m' ↔
      ∃ name x, key = some name ∧ c.decode d = .ok x ∧
        c.decodeEntries ending (m.insert name x) rest = .ok m' := by
  cases key with
  | none => simp [decodeEntries]
  | some name =>
    rw [decodeEntries]
    cases c.decode d with
    | error e => simp
    | ok x => simp

/-- Entries of different names can be written to a table in any order. -/
@[simp]
theorem table_steady (hc : c.Steady) : c.table.Steady := by
  have hrun : ∀ ending, InSequence (c.decodeEntries ending) := by
    intro ending ⟨key, d⟩ fields fields' h m m' hm
    obtain ⟨name, x, hkey, hx, hrest⟩ := decodeEntries_cons_eq_ok_iff.mp hm
    exact decodeEntries_cons_eq_ok_iff.mpr ⟨name, x, hkey, hx, h _ _ hrest⟩
  refine steady_of (fun _ h => by cases h) (fun {d d' key before after ending m} hd => ?_)
    fun {fields fields' ending m} hperm hkeys => ?_
  · refine Reads.replace (hrun ending) (fun rest m m' hm => ?_) .empty m
    obtain ⟨name, x, hkey, hx, hrest⟩ := decodeEntries_cons_eq_ok_iff.mp hm
    exact decodeEntries_cons_eq_ok_iff.mpr ⟨name, x, hkey, hc d d' x hd hx, hrest⟩
  · refine Reads.perm (hrun ending) (fun e e' rest hne m m' hm => ?_) hperm hkeys .empty m
    obtain ⟨name, x, hkey, hx, hm⟩ := decodeEntries_cons_eq_ok_iff.mp hm
    obtain ⟨name', x', hkey', hx', hm⟩ := decodeEntries_cons_eq_ok_iff.mp hm
    have hnames : name' ≠ name := fun heq => hne (by rw [hkey, hkey', heq])
    refine decodeEntries_cons_eq_ok_iff.mpr ⟨name', x', hkey', hx', ?_⟩
    refine decodeEntries_cons_eq_ok_iff.mpr ⟨name, x, hkey, hx, ?_⟩
    -- entries of two names come to the same table in either order
    rw [NameMap.insert_comm m hnames]
    exact hm

/-! ### Free-form values -/

theorem decodeJsonItems_cons_eq_ok_iff {ending : Ending} {rest : List Document} {xs : List Json} :
    decodeJsonItems ending (d :: rest) = .ok xs ↔
      ∃ y ys, decodeJson d = .ok y ∧ decodeJsonItems ending rest = .ok ys ∧ xs = y :: ys := by
  rw [decodeJsonItems]
  cases decodeJson d with
  | error e => simp
  | ok y =>
    cases decodeJsonItems ending rest with
    | error e => simp [Except.map]
    | ok ys => simp [Except.map, eq_comm]

/-- The members of a free-form object are read like those of a table. -/
theorem decodeJsonFields_cons_eq_ok_iff {ending : Ending} {acc members : List (String × Json)}
    {key : Option String} {rest : List (Option String × Document)} :
    decodeJsonFields ending acc ((key, d) :: rest) = .ok members ↔
      ∃ name x, key = some name ∧ decodeJson d = .ok x ∧
        decodeJsonFields ending (Entries.insert acc name x) rest = .ok members := by
  cases key with
  | none => simp [decodeJsonFields]
  | some name =>
    rw [decodeJsonFields]
    cases decodeJson d with
    | error e => simp
    | ok x => simp

theorem decodeJsonItems_inSequence (ending : Ending) :
    InSequence fun (_ : Unit) => decodeJsonItems ending := by
  intro d items items' h _ xs hxs
  obtain ⟨y, ys, hy, hys, rfl⟩ := decodeJsonItems_cons_eq_ok_iff.mp hxs
  exact decodeJsonItems_cons_eq_ok_iff.mpr ⟨y, ys, hy, h () _ hys, rfl⟩

theorem decodeJsonFields_inSequence (ending : Ending) : InSequence (decodeJsonFields ending) := by
  intro ⟨key, d⟩ fields fields' h acc members hmembers
  obtain ⟨name, x, hkey, hx, hrest⟩ := decodeJsonFields_cons_eq_ok_iff.mp hmembers
  exact decodeJsonFields_cons_eq_ok_iff.mpr ⟨name, x, hkey, hx, h _ _ hrest⟩

/-- Free-form values lose the order of their members when they are read. -/
theorem decodeJson_reordered (h : d.Reordered d') {j : Json} (hj : decodeJson d = .ok j) :
    decodeJson d' = .ok j := by
  induction h generalizing j with
  | refl d => exact hj
  | trans _ _ ih ih' => exact ih' (ih hj)
  | item before after ending _ ih =>
    simp only [decodeJson] at hj ⊢
    refine map_eq_ok (Reads.replace (decodeJsonItems_inSequence ending) ?_ ()) hj
    intro rest _ xs hxs
    obtain ⟨y, ys, hy, hys, rfl⟩ := decodeJsonItems_cons_eq_ok_iff.mp hxs
    exact decodeJsonItems_cons_eq_ok_iff.mpr ⟨y, ys, ih hy, hys, rfl⟩
  | member key before after ending _ ih =>
    simp only [decodeJson] at hj ⊢
    refine map_eq_ok (Reads.replace (decodeJsonFields_inSequence ending) ?_ []) hj
    intro rest acc members hmembers
    obtain ⟨name, x, hkey, hx, hrest⟩ := decodeJsonFields_cons_eq_ok_iff.mp hmembers
    exact decodeJsonFields_cons_eq_ok_iff.mpr ⟨name, x, hkey, ih hx, hrest⟩
  | order ending hperm hkeys =>
    simp only [decodeJson] at hj ⊢
    refine map_eq_ok (Reads.perm (decodeJsonFields_inSequence ending) ?_ hperm hkeys []) hj
    intro e e' rest hne acc members hmembers
    obtain ⟨name, x, hkey, hx, hm⟩ := decodeJsonFields_cons_eq_ok_iff.mp hmembers
    obtain ⟨name', x', hkey', hx', hm⟩ := decodeJsonFields_cons_eq_ok_iff.mp hm
    have hnames : name' ≠ name := fun heq => hne (by rw [hkey, hkey', heq])
    refine decodeJsonFields_cons_eq_ok_iff.mpr ⟨name', x', hkey', hx', ?_⟩
    refine decodeJsonFields_cons_eq_ok_iff.mpr ⟨name, x, hkey, hx, ?_⟩
    -- the names differ, so the members come to the same object
    rw [Entries.insert_comm hnames]
    exact hm

/-- An attribute is read exactly where its tree is. -/
theorem freeForm_decode_eq_ok_iff {a : Attribute} :
    freeForm.decode d = .ok a ↔ decodeJson d = .ok a.json := by
  simp only [freeForm]
  split
  · next j hj =>
    simp only [hj, Except.ok.injEq]
    exact ⟨fun h => congrArg Attribute.json h, fun h => Attribute.ext h⟩
  · next e he => simp [he]

/-- The tree that an attribute holds is in order already, whatever order it is read in. -/
@[simp]
theorem freeForm_steady : freeForm.Steady := by
  intro d d' a hd ha
  rw [freeForm_decode_eq_ok_iff] at ha ⊢
  exact decodeJson_reordered hd ha

@[simp]
theorem attributes_steady : attributes.Steady := table_steady freeForm_steady

end Codec

/-! ## Reading into records -/

section Readings

variable {σ τ τ' : Type} {read read' : Document → σ → Except ReadError σ}

/-- The order of members makes no difference to what is read into a record. -/
def ReadsSteadily (read : Document → σ → Except ReadError σ) : Prop :=
  ∀ d d' x y, d.Reordered d' → read d x = .ok y → read d' x = .ok y

/-- Two values can be read into a record in either order. -/
def ReadsApart (read read' : Document → σ → Except ReadError σ) : Prop :=
  ∀ d d' x y, (read d x >>= read' d') = .ok y ↔ (read' d' x >>= read d) = .ok y

instance : Std.Symm (ReadsApart : (Document → σ → Except ReadError σ) → _ → Prop) where
  symm _ _ h := fun d d' x y => (h d' d x y).symm

/-- Reads a value and sets it. -/
def Codec.into (c : Codec τ) (set : σ → τ → σ) (d : Document) (x : σ) : Except ReadError σ :=
  (c.decode d).map (set x)

@[simp]
theorem Codec.into_steady {c : Codec τ} (hc : c.Steady) (set : σ → τ → σ) :
    ReadsSteadily (c.into set) :=
  fun d d' _ _ hd => map_eq_ok fun v => hc d d' v hd

/-- It must not matter which of the two values is set first. -/
@[simp]
theorem Codec.into_apart {set : σ → τ → σ} {set' : σ → τ' → σ}
    (hset : ∀ x v v', set' (set x v) v' = set (set' x v') v) (c : Codec τ) (c' : Codec τ') :
    ReadsApart (c.into set) (c'.into set') := by
  intro d d' x y
  unfold into
  cases c.decode d <;> cases c'.decode d' <;> simp [bind, Except.bind, Except.map, hset]

variable {key : String} {c : Codec τ} {get : σ → τ} {set : σ → τ → σ}

@[simp]
theorem Field.read_needed : (needed key c get set).read = c.into set := rfl

@[simp]
theorem Field.read_defaulted : (defaulted key c get set).read = c.into set := rfl

@[simp]
theorem Field.read_sparse {isNothing : τ → Bool} :
    (sparse key c isNothing get set).read = c.into set := rfl

end Readings

/-! ## Records -/

namespace Record

variable {σ : Type} {r : Record σ} {ending : Ending}

/-- What one member of an object does to the keys that were seen and to what has been read. -/
inductive Takes (r : Record σ) : Option String × Document → List String × σ → List String × σ → Prop
  | skip {key : String} {d : Document} (s : List String × σ)
    (hfind : r.fields.find? (fun f => f.key = key) = none) (hd : d.skippable = true) :
    Takes r (some key, d) s s
  | read {key : String} {f : Field σ} {d : Document} {seen : List String} {x y : σ}
    (hfind : r.fields.find? (fun f => f.key = key) = some f) (hseen : key ∉ seen)
    (hread : f.read d x = .ok y) : Takes r (some key, d) (seen, x) (key :: seen, y)

/-- A record is read if its first member is taken and the others are read from there on. -/
theorem decodeFields_cons_eq_ok_iff {e : Option String × Document}
    {rest : List (Option String × Document)} {s : List String × σ} {y : σ} :
    r.decodeFields ending s.1 s.2 (e :: rest) = .ok y ↔
      ∃ t, Takes r e s t ∧ r.decodeFields ending t.1 t.2 rest = .ok y := by
  obtain ⟨seen, x⟩ := s
  obtain ⟨key, d⟩ := e
  cases key with
  | none =>
    refine ⟨fun h => ?_, ?_⟩
    · cases h
    · rintro ⟨t, ht, -⟩
      cases ht
  -- a member is skipped or read by whether a field has its key; each time the other way is
  -- ruled out by what was found
  | some key =>
    rw [decodeFields]
    cases hfind : r.fields.find? fun f => f.key = key with
    | none =>
      refine ⟨fun h => ?_, ?_⟩
      · simp only at h
        split at h
        · next hd => exact ⟨_, .skip _ hfind hd, h⟩
        · cases h
      · rintro ⟨t, ht, hrest⟩
        cases ht with
        | skip _ _ hd =>
          rw [if_pos hd]
          exact hrest
        | read hfind' =>
          rw [hfind] at hfind'
          cases hfind'
    | some f =>
      refine ⟨fun h => ?_, ?_⟩
      · simp only at h
        split at h
        · cases h
        · next hseen =>
          have hnew : key ∉ seen := by simpa using hseen
          cases hread : f.read d x with
          | error e =>
            rw [hread] at h
            cases h
          | ok z =>
            rw [hread] at h
            exact ⟨_, .read hfind hnew hread, h⟩
      · rintro ⟨t, ht, hrest⟩
        cases ht with
        | skip _ hfind' =>
          rw [hfind] at hfind'
          cases hfind'
        | read hfind' hseen hread =>
          rw [hfind] at hfind'
          cases hfind'
          simp [hseen, hread, hrest]

/-- Of the keys that were seen it only matters which they are. -/
theorem decodeFields_seen {seen seen' : List String} (hseen : ∀ key, key ∈ seen ↔ key ∈ seen')
    (x : σ) (fields : List (Option String × Document)) :
    r.decodeFields ending seen x fields = r.decodeFields ending seen' x fields := by
  induction fields generalizing seen seen' x with
  | nil => simp only [decodeFields, missing?, List.contains_eq_mem, hseen]
  | cons e rest ih =>
    obtain ⟨_ | key, d⟩ := e
    · rfl
    · have hmore : ∀ k, k ∈ key :: seen ↔ k ∈ key :: seen' := fun k => by simp [hseen]
      simp only [decodeFields, List.contains_eq_mem, hseen, ih hseen, ih hmore]

theorem decodeFields_inSequence (r : Record σ) (ending : Ending) :
    InSequence fun s : List String × σ => r.decodeFields ending s.1 s.2 := by
  intro e fields fields' h s y hy
  obtain ⟨t, ht, hrest⟩ := decodeFields_cons_eq_ok_iff.mp hy
  exact decodeFields_cons_eq_ok_iff.mpr ⟨t, ht, h t y hrest⟩

/-- A member is taken alike if its value is reordered, as its field reads steadily. -/
theorem Takes.reordered (hfields : ∀ f ∈ r.fields, ReadsSteadily f.read) {key : Option String}
    {d d' : Document} {s t : List String × σ} (h : r.Takes (key, d) s t) (hd : d.Reordered d') :
    r.Takes (key, d') s t := by
  cases h with
  | skip _ hfind hskip => exact .skip s hfind (hd.skippable hskip)
  | read hfind hseen hread =>
    have hf := hfields _ (List.mem_of_find?_eq_some hfind)
    exact .read hfind hseen (hf _ _ _ _ hd hread)

/-- Members of different keys are read into different fields, if into any, so that either may come
first. -/
theorem Takes.swap (hapart : r.fields.Pairwise fun f g => ReadsApart f.read g.read)
    {e e' : Option String × Document} (hne : e.1 ≠ e'.1) {s t u : List String × σ}
    (h : r.Takes e s t) (h' : r.Takes e' t u) :
    ∃ t' u', r.Takes e' s t' ∧ r.Takes e t' u' ∧ u'.2 = u.2 ∧ ∀ key, key ∈ u'.1 ↔ key ∈ u.1 := by
  cases h with
  -- a member that is skipped changes nothing, so it can come at any place
  | skip _ hfind hskip =>
    exact ⟨u, u, h', .skip u hfind hskip, rfl, fun _ => .rfl⟩
  | @read key f d seen x y hfind hseen hread =>
    cases h' with
    | skip _ hfind' hskip' =>
      exact ⟨_, _, .skip _ hfind' hskip', .read hfind hseen hread, rfl, fun _ => .rfl⟩
    | @read key' f' d' _ _ z hfind' hseen' hread' =>
      have hkeys : key ≠ key' := fun heq => hne (congrArg some heq)
      have hkey : f.key = key := by simpa using List.find?_some hfind
      have hkey' : f'.key = key' := by simpa using List.find?_some hfind'
      -- two keys stand for two fields, and these read in either order
      have hff' : f ≠ f' := fun heq => hkeys (by rw [← hkey, ← hkey', heq])
      have happ := hapart.forall (List.mem_of_find?_eq_some hfind)
        (List.mem_of_find?_eq_some hfind') hff'
      have hboth : (f'.read d' x >>= f.read d) = .ok z :=
        (happ d d' x z).mp (by rw [hread]; exact hread')
      cases hfirst : f'.read d' x with
      | error e =>
        rw [hfirst] at hboth
        cases hboth
      | ok y' =>
        rw [hfirst] at hboth
        have hnew' : key' ∉ seen := fun hmem => hseen' (List.mem_cons_of_mem _ hmem)
        have hnew : key ∉ key' :: seen := by simp [hkeys, hseen]
        refine ⟨_, _, .read hfind' hnew' hfirst, .read hfind hnew hboth, rfl, fun k => ?_⟩
        simp only [List.mem_cons]
        exact or_left_comm

theorem decodeItems_cons_eq_ok_iff {index : Nat} {f : Field σ} {fields : List (Field σ)}
    {d : Document} {rest : List Document} {x y : σ} :
    r.decodeItems ending index x (f :: fields) (d :: rest) = .ok y ↔
      ∃ z, f.read d x = .ok z ∧ r.decodeItems ending (index + 1) z fields rest = .ok y := by
  rw [decodeItems]
  cases f.read d x with
  | error e => simp
  | ok z => simp

/-- Each element is read into the next field, and what comes after the last field is not read. -/
theorem decodeItems_reordered {d d' : Document} (hd : d.Reordered d')
    {before after : List Document} {fields : List (Field σ)}
    (hfields : ∀ f ∈ fields, ReadsSteadily f.read) {index : Nat} {x y : σ}
    (h : r.decodeItems ending index x fields (before ++ d :: after) = .ok y) :
    r.decodeItems ending index x fields (before ++ d' :: after) = .ok y := by
  induction before generalizing fields index x with
  | nil =>
    cases fields with
    | nil => exact h
    | cons f fields =>
      obtain ⟨z, hread, hrest⟩ := decodeItems_cons_eq_ok_iff.mp h
      have hf := hfields f List.mem_cons_self
      exact decodeItems_cons_eq_ok_iff.mpr ⟨z, hf d d' x z hd hread, hrest⟩
  | cons e before ih =>
    cases fields with
    | nil => exact h
    | cons f fields =>
      obtain ⟨z, hread, hrest⟩ := decodeItems_cons_eq_ok_iff.mp h
      have hlater := ih (fun g hg => hfields g (List.mem_cons_of_mem f hg)) hrest
      exact decodeItems_cons_eq_ok_iff.mpr ⟨z, hread, hlater⟩

/-- A record is read steadily if its fields are, and any two of them can be read in either order. -/
theorem codec_steady (hfields : ∀ f ∈ r.fields, ReadsSteadily f.read)
    (hapart : r.fields.Pairwise fun f g => ReadsApart f.read g.read) : r.codec.Steady := by
  refine Codec.steady_of (fun {d d' before after ending x} hd => ?_)
    (fun {d d' key before after ending x} hd => ?_)
    fun {fields fields' ending x} hperm hkeys => ?_
  · exact decodeItems_reordered hd hfields
  · refine Reads.replace (decodeFields_inSequence r ending) (fun rest s y hy => ?_) ([], r.blank) x
    obtain ⟨t, ht, hrest⟩ := decodeFields_cons_eq_ok_iff.mp hy
    exact decodeFields_cons_eq_ok_iff.mpr ⟨t, ht.reordered hfields hd, hrest⟩
  · refine Reads.perm (decodeFields_inSequence r ending) (fun e e' rest hne s y hy => ?_) hperm
      hkeys ([], r.blank) x
    obtain ⟨t, ht, hy⟩ := decodeFields_cons_eq_ok_iff.mp hy
    obtain ⟨u, hu, hy⟩ := decodeFields_cons_eq_ok_iff.mp hy
    -- the two members change places; the keys are seen in another order, which does not count
    obtain ⟨t', u', ht', hu', hsame, hseen⟩ := ht.swap hapart hne hu
    refine decodeFields_cons_eq_ok_iff.mpr ⟨t', ht', ?_⟩
    refine decodeFields_cons_eq_ok_iff.mpr ⟨u', hu', ?_⟩
    rw [hsame, decodeFields_seen hseen]
    exact hy

end Record

end RobotHost
