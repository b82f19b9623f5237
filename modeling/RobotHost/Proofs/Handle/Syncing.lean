import Mathlib.Logic.Function.Basic
import RobotHost.Proofs.Handle.Wrapping

/-!
# Handles of pins brought in line

When another board comes behind a handle, the handles of its pins are brought in line with it, name
by name (`World.Synced`). A name that the new board provides keeps its handle or gets a new one, and
the handle stands for what the board gives for the name. A name that it does not provide loses its
handle. A handle that is not listed stands for what it stood for before.

Both kinds of pins are treated as one table here, since a handle of one kind must not move when the
handles of the other are brought in line.
-/

namespace RobotHost

namespace World

variable {board : Ref .driver} {due due' : PinKind → String → Prop}
  {pins pins' pins'' : PinKind → NameMap (Ref .pinProxy)} {w w' w'' : World}

/-- The handles of a table of pins are all in the world, and none stands in two places. -/
structure Held (w : World) (pins : PinKind → NameMap (Ref .pinProxy)) : Prop where
  known : ∀ {kind name p}, (pins kind).get? name = some p → w.pinProxies.get? p ≠ none
  apart : ∀ {kind kind' name name' p}, (pins kind).get? name = some p →
    (pins kind').get? name' = some p → kind = kind' ∧ name = name'

theorem held_empty (w : World) : w.Held fun _ => .empty where
  known h := by cases h
  apart h := by cases h

/-- Handles that are dropped make no difference to the others. -/
theorem Held.eraseAll (h : w.Held pins) (dropped : PinKind → List String) :
    w.Held fun kind => (pins kind).eraseAll (dropped kind) := by
  have hpins : ∀ {kind name p}, ((pins kind).eraseAll (dropped kind)).get? name = some p →
      (pins kind).get? name = some p := by
    intro kind name p hp
    rw [NameMap.get?_eraseAll] at hp
    split at hp
    · cases hp
    · exact hp
  exact ⟨fun hp => h.known (hpins hp), fun hp hp' => h.apart (hpins hp) (hpins hp')⟩

/-- The names that are due were brought in line with a board. -/
structure Synced (board : Ref .driver) (due : PinKind → String → Prop)
    (pins : PinKind → NameMap (Ref .pinProxy)) (w : World)
    (pins' : PinKind → NameMap (Ref .pinProxy)) (w' : World) : Prop where
  /-- Only handles of pins are touched. -/
  world : ∃ t, w' = { w with pinProxies := t }
  grows : ∀ {p}, w'.pinProxies.get? p = none → w.pinProxies.get? p = none
  held : w'.Held pins'
  /-- A handle for a name that is due stands for what the board gives for it. -/
  bound : ∀ {kind name p}, due kind name → (pins' kind).get? name = some p →
    name ∈ w.pinNames board kind ∧ w'.pinProxies.get? p = some ⟨board, kind, name⟩
  provided : ∀ {kind name}, due kind name → name ∈ w.pinNames board kind →
    ∃ p, (pins' kind).get? name = some p
  /-- A name has the handle that it had, or a new one if it had none. -/
  origin : ∀ {kind name p}, (pins' kind).get? name = some p →
    (pins kind).get? name = some p ∨ (pins kind).get? name = none ∧ w.pinProxies.get? p = none
  others : ∀ {kind name}, ¬due kind name → (pins' kind).get? name = (pins kind).get? name
  /-- What is not listed under a name that is due stands for what it stood for. -/
  rows : ∀ {p pin}, w.pinProxies.get? p = some pin →
    (∀ kind name, due kind name → (pins' kind).get? name ≠ some p) →
    w'.pinProxies.get? p = some pin

namespace Synced

theorem pinNames (h : Synced board due pins w pins' w') (d : Ref .driver) (kind : PinKind) :
    w'.pinNames d kind = w.pinNames d kind := by
  obtain ⟨t, rfl⟩ := h.world
  rfl

/-- A name that is due and that the board provides keeps its handle. -/
theorem keeps (h : Synced board due pins w pins' w') {kind : PinKind} {name : String}
    {p : Ref .pinProxy} (hdue : due kind name) (hname : name ∈ w.pinNames board kind)
    (hp : (pins kind).get? name = some p) : (pins' kind).get? name = some p := by
  obtain ⟨q, hq⟩ := h.provided hdue hname
  rcases h.origin hq with hold | ⟨hnone, -⟩
  · rw [hp] at hold
    cases hold
    exact hq
  · rw [hp] at hnone
    cases hnone

/-- If all that had a handle is due, then so is all that has one. -/
theorem due_of_listed (h : Synced board due pins w pins' w')
    (hold : ∀ {kind name p}, (pins kind).get? name = some p → due kind name) {kind : PinKind}
    {name : String} {p : Ref .pinProxy} (hp : (pins' kind).get? name = some p) : due kind name := by
  by_contra hdue
  rw [h.others hdue] at hp
  exact hdue (hold hp)

/-- Nothing is due. -/
theorem of_none (hheld : w.Held pins) (hdue : ∀ kind name, ¬due kind name) :
    Synced board due pins w pins w where
  world := ⟨w.pinProxies, rfl⟩
  grows h := h
  held := hheld
  bound h := absurd h (hdue _ _)
  provided h := absurd h (hdue _ _)
  origin h := .inl h
  others _ := rfl
  rows h _ := h

/-- What is brought in line first stays so when more names are brought in line with the same
board. -/
theorem trans (h : Synced board due pins w pins' w') (h' : Synced board due' pins' w' pins'' w'') :
    Synced board (fun kind name => due kind name ∨ due' kind name) pins w pins'' w'' where
  world := by
    obtain ⟨t, rfl⟩ := h.world
    obtain ⟨t', rfl⟩ := h'.world
    exact ⟨t', rfl⟩
  grows hp := h.grows (h'.grows hp)
  held := h'.held
  bound := by
    intro kind name p hdue hp
    by_cases hlater : due' kind name
    · obtain ⟨hname, hrow⟩ := h'.bound hlater hp
      exact ⟨h.pinNames board kind ▸ hname, hrow⟩
    -- the second round does not reach the name, and no other name has its handle
    have hdue : due kind name := hdue.resolve_right hlater
    obtain ⟨hname, hrow⟩ := h.bound hdue (h'.others hlater ▸ hp)
    refine ⟨hname, h'.rows hrow fun kind' name' hdue' hp' => ?_⟩
    obtain ⟨rfl, rfl⟩ := h'.held.apart hp hp'
    exact hlater hdue'
  provided := by
    intro kind name hdue hname
    by_cases hlater : due' kind name
    · exact h'.provided hlater (h.pinNames board kind ▸ hname)
    · rw [h'.others hlater]
      exact h.provided (hdue.resolve_right hlater) hname
  origin := by
    intro kind name p hp
    rcases h'.origin hp with hp' | ⟨hnone, hnew⟩
    · exact h.origin hp'
    -- the name gets its handle in the second round, so the first did not reach it
    have hlater : due' kind name := by
      by_contra hlater
      rw [h'.others hlater, hnone] at hp
      cases hp
    have hname := h.pinNames board kind ▸ (h'.bound hlater hp).1
    have hearlier : ¬due kind name := by
      intro hdue
      obtain ⟨q, hq⟩ := h.provided hdue hname
      rw [hnone] at hq
      cases hq
    rw [h.others hearlier] at hnone
    exact .inr ⟨hnone, h.grows hnew⟩
  others := by
    intro kind name hdue
    rw [h'.others fun hd => hdue (.inr hd), h.others fun hd => hdue (.inl hd)]
  rows := by
    intro p pin hrow hlisted
    refine h'.rows (h.rows hrow fun kind name hdue hp => ?_) fun kind name hdue =>
      hlisted kind name (.inr hdue)
    refine hlisted kind name (.inl hdue) ?_
    by_cases hlater : due' kind name
    · exact h'.keeps hlater (h.pinNames board kind ▸ (h.bound hdue hp).1) hp
    · rw [h'.others hlater, hp]

/-! ## One name -/

/-- A name that the board does not provide loses its handle. -/
theorem erase {kind : PinKind} {name : String} (hheld : w.Held pins)
    (hname : name ∉ w.pinNames board kind) :
    Synced board (fun k n => k = kind ∧ n = name) pins w
      (Function.update pins kind ((pins kind).erase name)) w := by
  -- a handle that is left is an old one, and not the one that was dropped
  have hget : ∀ {k n p}, (Function.update pins kind ((pins kind).erase name) k).get? n = some p →
      (pins k).get? n = some p ∧ ¬(k = kind ∧ n = name) := by
    intro k n p hp
    by_cases hk : k = kind
    · subst hk
      rw [Function.update_self, NameMap.get?_erase] at hp
      split at hp
      · cases hp
      · rename_i hn
        exact ⟨hp, fun h => hn h.2.symm⟩
    · rw [Function.update_of_ne hk] at hp
      exact ⟨hp, fun h => hk h.1⟩
  exact {
    world := ⟨w.pinProxies, rfl⟩
    grows := fun h => h
    held := ⟨fun hp => hheld.known (hget hp).1, fun hp hp' => hheld.apart (hget hp).1 (hget hp').1⟩
    bound := fun hdue hp => absurd hdue (hget hp).2
    provided := by
      rintro k n ⟨rfl, rfl⟩ hn
      exact absurd hn hname
    origin := fun hp => .inl (hget hp).1
    others := by
      intro k n hdue
      by_cases hk : k = kind
      · subst hk
        rw [Function.update_self, NameMap.get?_erase, if_neg fun h => hdue ⟨rfl, h.symm⟩]
      · rw [Function.update_of_ne hk]
    rows := fun h _ => h }

/-- A name that the board provides and that has a handle keeps it, and the handle stands for what the
board gives. -/
theorem set {kind : PinKind} {name : String} {p : Ref .pinProxy} (hheld : w.Held pins)
    (hname : name ∈ w.pinNames board kind) (hp : (pins kind).get? name = some p) :
    Synced board (fun k n => k = kind ∧ n = name) pins w pins
      { w with pinProxies := w.pinProxies.set p ⟨board, kind, name⟩ } where
  world := ⟨_, rfl⟩
  grows := by
    intro q hq
    have hq' : (w.pinProxies.set p ⟨board, kind, name⟩).get? q = none := hq
    rw [Table.get?_set] at hq'
    split at hq'
    · exact Option.map_eq_none_iff.mp hq'
    · exact hq'
  held := by
    refine ⟨fun {k n q} hq hnone => hheld.known hq ?_, hheld.apart⟩
    have hnone' : (w.pinProxies.set p ⟨board, kind, name⟩).get? q = none := hnone
    rw [Table.get?_set] at hnone'
    split at hnone'
    · exact Option.map_eq_none_iff.mp hnone'
    · exact hnone'
  bound := by
    rintro k n q ⟨rfl, rfl⟩ hq
    rw [hp] at hq
    cases hq
    refine ⟨hname, ?_⟩
    obtain ⟨pin, hpin⟩ := Option.ne_none_iff_exists'.mp (hheld.known hp)
    show (w.pinProxies.set p _).get? p = _
    rw [Table.get?_set, if_pos rfl, hpin, Option.map_some]
  provided := by
    rintro k n ⟨rfl, rfl⟩ -
    exact ⟨p, hp⟩
  origin h := .inl h
  others _ := rfl
  rows := by
    intro q pin hq hlisted
    have hne : p ≠ q := by
      rintro rfl
      exact hlisted kind name ⟨rfl, rfl⟩ hp
    show (w.pinProxies.set p _).get? q = _
    rw [Table.get?_set, if_neg hne, hq]

/-- A name that the board provides and that has no handle gets a new one, which stands for what the
board gives. -/
theorem push {kind : PinKind} {name : String} (hheld : w.Held pins)
    (hname : name ∈ w.pinNames board kind) (hnone : (pins kind).get? name = none) :
    Synced board (fun k n => k = kind ∧ n = name) pins w
      (Function.update pins kind ((pins kind).insert name w.pinProxies.next))
      { w with pinProxies := w.pinProxies.push ⟨board, kind, name⟩ } := by
  have hkeeps := Table.keeps_push w.pinProxies (⟨board, kind, name⟩ : Pin)
  have hother : ∀ {k n}, ¬(k = kind ∧ n = name) →
      (Function.update pins kind ((pins kind).insert name w.pinProxies.next) k).get? n =
        (pins k).get? n := by
    intro k n hne
    by_cases hk : k = kind
    · subst hk
      rw [Function.update_self, NameMap.get?_insert, if_neg fun h => hne ⟨rfl, h.symm⟩]
    · rw [Function.update_of_ne hk]
  have hself : (Function.update pins kind ((pins kind).insert name w.pinProxies.next) kind).get? name
      = some w.pinProxies.next := by
    rw [Function.update_self, NameMap.get?_insert_self]
  -- the new handle was in no place before
  have hnew : ∀ {k n}, (pins k).get? n ≠ some w.pinProxies.next :=
    fun h => hheld.known h (Table.get?_next _)
  exact {
    world := ⟨_, rfl⟩
    grows := by
      intro q hq
      cases hw : w.pinProxies.get? q with
      | none => rfl
      | some pin =>
        have hq' : (w.pinProxies.push ⟨board, kind, name⟩).get? q = none := hq
        rw [hkeeps q pin hw] at hq'
        cases hq'
    held := by
      refine ⟨fun {k n q} hq => ?_, fun {k k' n n' q} hq hq' => ?_⟩
      · by_cases hkn : k = kind ∧ n = name
        · obtain ⟨rfl, rfl⟩ := hkn
          rw [hself] at hq
          cases hq
          show (w.pinProxies.push _).get? _ ≠ none
          rw [Table.get?_push, if_pos rfl]
          exact Option.some_ne_none _
        · rw [hother hkn] at hq
          obtain ⟨pin, hpin⟩ := Option.ne_none_iff_exists'.mp (hheld.known hq)
          show (w.pinProxies.push _).get? _ ≠ none
          rw [hkeeps q pin hpin]
          exact Option.some_ne_none _
      · by_cases hkn : k = kind ∧ n = name <;> by_cases hkn' : k' = kind ∧ n' = name
        · exact ⟨hkn.1.trans hkn'.1.symm, hkn.2.trans hkn'.2.symm⟩
        · obtain ⟨rfl, rfl⟩ := hkn
          rw [hself] at hq
          cases hq
          rw [hother hkn'] at hq'
          exact absurd hq' hnew
        · obtain ⟨rfl, rfl⟩ := hkn'
          rw [hself] at hq'
          cases hq'
          rw [hother hkn] at hq
          exact absurd hq hnew
        · rw [hother hkn] at hq
          rw [hother hkn'] at hq'
          exact hheld.apart hq hq'
    bound := by
      rintro k n q ⟨rfl, rfl⟩ hq
      rw [hself] at hq
      cases hq
      refine ⟨hname, ?_⟩
      show (w.pinProxies.push _).get? _ = _
      rw [Table.get?_push, if_pos rfl]
    provided := by
      rintro k n ⟨rfl, rfl⟩ -
      exact ⟨_, hself⟩
    origin := by
      intro k n q hq
      by_cases hkn : k = kind ∧ n = name
      · obtain ⟨rfl, rfl⟩ := hkn
        rw [hself] at hq
        cases hq
        exact .inr ⟨hnone, Table.get?_next _⟩
      · rw [hother hkn] at hq
        exact .inl hq
    others := hother
    rows := fun hq _ => hkeeps _ _ hq }

end Synced

/-- One name is brought in line. -/
theorem synced_syncPin (board : Ref .driver) (kind : PinKind) (name : String)
    (hheld : w.Held pins) :
    Synced board (fun k n => k = kind ∧ n = name) pins w
      (Function.update pins kind (syncPin board kind (pins kind) name w).1)
      (syncPin board kind (pins kind) name w).2 := by
  unfold syncPin
  rw [get_bind]
  by_cases hname : name ∈ w.pinNames board kind
  · have hpin : w.pin? board kind name = some ⟨board, kind, name⟩ := if_pos hname
    rw [hpin]
    cases hp : (pins kind).get? name with
    | none => exact .push hheld hname hp
    | some p =>
      have hsame : Function.update pins kind (pins kind) = pins := Function.update_eq_self kind pins
      show Synced _ _ _ _ (Function.update pins kind (pins kind)) _
      rw [hsame]
      exact .set hheld hname hp
  · have hpin : w.pin? board kind name = none := if_neg hname
    rw [hpin]
    exact .erase hheld hname

/-! ## All names -/

/-- The names of a list are brought in line, one after the other. -/
theorem synced_syncPins (board : Ref .driver) (kind : PinKind) (names : List String)
    (hheld : w.Held pins) :
    Synced board (fun k n => k = kind ∧ n ∈ names) pins w
      (Function.update pins kind (syncPins board kind (pins kind) names w).1)
      (syncPins board kind (pins kind) names w).2 := by
  induction names generalizing pins w with
  | nil =>
    have hsame : Function.update pins kind (pins kind) = pins := Function.update_eq_self kind pins
    show Synced _ _ _ _ (Function.update pins kind (pins kind)) w
    rw [hsame]
    exact .of_none hheld fun _ _ h => List.not_mem_nil h.2
  | cons name rest ih =>
    have hfirst := synced_syncPin board kind name hheld
    have hrest := ih hfirst.held
    rw [Function.update_self, Function.update_idem] at hrest
    have hdue : (fun k n => (k = kind ∧ n = name) ∨ (k = kind ∧ n ∈ rest)) =
        fun k n => k = kind ∧ n ∈ name :: rest := by
      funext k n
      rw [← and_or_left, List.mem_cons]
    exact hdue ▸ hfirst.trans hrest

/-- The names of both kinds are brought in line, those of the analog readers first. -/
theorem synced_both (board : Ref .driver) (names : PinKind → List String) (hheld : w.Held pins)
    (b : BoardProxy)
    (hanalogs : b.analogs = (syncPins board .analog (pins .analog) (names .analog) w).1)
    (hinterrupts : b.interrupts = (syncPins board .interrupt (pins .interrupt) (names .interrupt)
      (syncPins board .analog (pins .analog) (names .analog) w).2).1) :
    Synced board (fun k n => n ∈ names k) pins w b.pins
      (syncPins board .interrupt (pins .interrupt) (names .interrupt)
        (syncPins board .analog (pins .analog) (names .analog) w).2).2 := by
  have hfirst := synced_syncPins board .analog (names .analog) hheld
  have hsecond := synced_syncPins board .interrupt (names .interrupt) hfirst.held
  rw [Function.update_of_ne (by decide)] at hsecond
  -- the two rounds together reach the names of both kinds
  have hdue : (fun k n => (k = PinKind.analog ∧ n ∈ names .analog) ∨
      (k = PinKind.interrupt ∧ n ∈ names .interrupt)) = fun k n => n ∈ names k := by
    funext k n
    cases k <;> simp
  have hpins : Function.update (Function.update pins .analog
      (syncPins board .analog (pins .analog) (names .analog) w).1) .interrupt
      (syncPins board .interrupt (pins .interrupt) (names .interrupt)
        (syncPins board .analog (pins .analog) (names .analog) w).2).1 = b.pins := by
    funext k
    cases k with
    | analog => rw [Function.update_of_ne (by decide), Function.update_self, ← hanalogs]; rfl
    | interrupt => rw [Function.update_self, ← hinterrupts]; rfl
  have h := hfirst.trans hsecond
  rwa [hdue, hpins] at h

end World

end RobotHost
