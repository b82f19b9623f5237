import Mathlib.Data.List.Nodup
import RobotHost.Proofs.Config.Visiting

/-!
# Going through a list for what does not fit

Checks and diffs are gone through in order, and the first entry that does not fit is reported.
Whether an entry fits may depend on those before it, as it does where names must not come twice.

* `AllFit` and `FirstMisfit` say of a list which entries fit, with their laws for `::`, `++` and
  `map`.
* `Screens` says of a result that it comes of going through a list in this way. `Screens.bind` puts
  two such results after each other.
-/

namespace RobotHost

variable {α β γ ε : Type} {fits : List α → α → Prop} {x y : α} {xs ys : List α}

/-- Every entry fits after those before it. -/
def AllFit (fits : List α → α → Prop) (xs : List α) : Prop :=
  ∀ before x after, xs = before ++ x :: after → fits before x

/-- This is the first entry that does not fit after those before it. -/
def FirstMisfit (fits : List α → α → Prop) (xs : List α) (x : α) : Prop :=
  ∃ before after, xs = before ++ x :: after ∧ AllFit fits before ∧ ¬fits before x

/-- A list that has a first misfit does not fit as a whole. -/
theorem FirstMisfit.not_allFit (h : FirstMisfit fits xs x) : ¬AllFit fits xs := by
  obtain ⟨before, after, heq, -, hmisfit⟩ := h
  exact fun hall => hmisfit (hall before x after heq)

/-- Only one entry is the first that does not fit. -/
theorem FirstMisfit.unique (hx : FirstMisfit fits xs x) (hy : FirstMisfit fits xs y) : x = y := by
  obtain ⟨before, after, rfl, hbefore, hx⟩ := hx
  obtain ⟨before', after', heq, hbefore', hy⟩ := hy
  -- of two such entries one would stand among those that fit before the other
  rcases List.append_eq_append_iff.mp heq with ⟨between, hmore, hsplit⟩ | ⟨between, hmore, hsplit⟩
  · cases between with
    | nil => exact (List.cons.inj hsplit).1
    | cons z between =>
      obtain ⟨rfl, -⟩ := List.cons.inj hsplit
      exact absurd (hbefore' before x between hmore) hx
  · cases between with
    | nil => exact (List.cons.inj hsplit).1.symm
    | cons z between =>
      obtain ⟨rfl, -⟩ := List.cons.inj hsplit
      exact absurd (hbefore before' y between hmore) hy

/-! ## Lists put together -/

theorem allFit_nil : AllFit fits [] := by
  intro before x after h
  simp at h

/-- The rest of a list is judged with its head before it. -/
theorem allFit_cons :
    AllFit fits (x :: xs) ↔ fits [] x ∧ AllFit (fun before => fits (x :: before)) xs := by
  constructor
  · intro h
    refine ⟨h [] x xs rfl, fun before y after heq => ?_⟩
    exact h (x :: before) y after (by rw [heq, List.cons_append])
  · rintro ⟨hhead, hrest⟩ before y after heq
    rcases List.cons_eq_append_iff.mp heq with ⟨rfl, hsplit⟩ | ⟨before, rfl, hsplit⟩
    · obtain ⟨rfl, -⟩ := List.cons.inj hsplit
      exact hhead
    · exact hrest before y after hsplit

/-- A list fits if its front does, and the rest does after that front. -/
theorem allFit_append :
    AllFit fits (xs ++ ys) ↔ AllFit fits xs ∧ AllFit (fun before => fits (xs ++ before)) ys := by
  induction xs generalizing fits with
  | nil => simp [allFit_nil]
  | cons x xs ih =>
    rw [List.cons_append, allFit_cons, allFit_cons, ih, and_assoc]
    rfl

theorem allFit_map {f : β → α} {zs : List β} :
    AllFit fits (zs.map f) ↔ AllFit (fun before z => fits (before.map f) (f z)) zs := by
  induction zs generalizing fits with
  | nil => simp [allFit_nil]
  | cons z zs ih => rw [List.map_cons, allFit_cons, allFit_cons, ih, List.map_nil]; rfl

/-- Where entries do not depend on those before, each has to fit. -/
theorem allFit_const {p : α → Prop} : AllFit (fun _ => p) xs ↔ ∀ x ∈ xs, p x := by
  induction xs with
  | nil => simp [allFit_nil]
  | cons x xs ih => rw [allFit_cons, ih, List.forall_mem_cons]

/-- Two conditions on the elements can be checked one after the other. -/
theorem allFit_and {fits' : List α → α → Prop} :
    AllFit (fun before x => fits before x ∧ fits' before x) xs ↔
      AllFit fits xs ∧ AllFit fits' xs := by
  constructor
  · intro h
    exact ⟨fun before x after heq => (h before x after heq).1,
      fun before x after heq => (h before x after heq).2⟩
  · rintro ⟨h, h'⟩ before x after heq
    exact ⟨h before x after heq, h' before x after heq⟩

/-- Where entries must not have come before, they are distinct. -/
theorem allFit_nodup : AllFit (fun before x => x ∉ before) xs ↔ xs.Nodup := by
  constructor
  · intro h
    induction xs with
    | nil => exact List.nodup_nil
    | cons x xs ih =>
      obtain ⟨-, hrest⟩ := allFit_cons.mp h
      refine List.nodup_cons.mpr ⟨fun hmem => ?_, ih fun before y after heq hbefore => ?_⟩
      · -- if the head came again, it would stand before itself
        obtain ⟨before, after, rfl⟩ := List.append_of_mem hmem
        exact hrest before x after rfl List.mem_cons_self
      · exact hrest before y after heq (List.mem_cons_of_mem x hbefore)
  · rintro hnodup before x after rfl hbefore
    exact (List.nodup_append.mp hnodup).2.2 x hbefore x List.mem_cons_self rfl

theorem FirstMisfit.append_left (h : FirstMisfit fits xs x) (ys : List α) :
    FirstMisfit fits (xs ++ ys) x := by
  obtain ⟨before, after, rfl, hbefore, hmisfit⟩ := h
  exact ⟨before, after ++ ys, by simp, hbefore, hmisfit⟩

/-- The first misfit after a front that fits is the first of the whole list. -/
theorem FirstMisfit.append_right (hxs : AllFit fits xs)
    (h : FirstMisfit (fun before => fits (xs ++ before)) ys y) : FirstMisfit fits (xs ++ ys) y := by
  obtain ⟨before, after, rfl, hbefore, hmisfit⟩ := h
  exact ⟨xs ++ before, after, by simp, allFit_append.mpr ⟨hxs, hbefore⟩, hmisfit⟩

theorem FirstMisfit.map {f : β → α} {zs : List β} {z : β}
    (h : FirstMisfit (fun before z => fits (before.map f) (f z)) zs z) :
    FirstMisfit fits (zs.map f) (f z) := by
  obtain ⟨before, after, rfl, hbefore, hmisfit⟩ := h
  exact ⟨before.map f, after.map f, by simp, allFit_map.mpr hbefore, hmisfit⟩

/-! ## Results -/

/-- A result that comes of going through a list: it is a value if all entries fit, and else it
reports the first that does not. -/
def Screens (fits : List α → α → Prop) (reports : α → ε → Prop) (xs : List α) (r : Except ε β) :
    Prop :=
  Outcome (fun _ => AllFit fits xs) (fun e => ∃ x, FirstMisfit fits xs x ∧ reports x e) r

namespace Screens

variable {reports : α → ε → Prop} {r : Except ε β}

/-- What is reported is determined, if it is for each entry. -/
theorem error_iff (h : Screens fits reports xs r)
    (hreports : ∀ x e e', reports x e → reports x e' → e = e') {e : ε} :
    r = .error e ↔ ∃ x, FirstMisfit fits xs x ∧ reports x e := by
  constructor
  · rintro rfl
    exact h
  · rintro ⟨x, hx, he⟩
    cases r with
    | ok b => exact absurd h hx.not_allFit
    | error e' =>
      obtain ⟨y, hy, he'⟩ := h
      obtain rfl := hx.unique hy
      rw [hreports x e e' he he']

theorem nil (b : β) : Screens fits reports [] (.ok b) := allFit_nil

/-- A head that does not fit is reported. -/
theorem stop (hx : ¬fits [] x) {e : ε} (he : reports x e) :
    Screens fits reports (x :: xs) (.error e : Except ε β) :=
  ⟨x, ⟨[], xs, rfl, allFit_nil, hx⟩, he⟩

/-- After a head that fits the rest is gone through. -/
theorem step (hx : fits [] x) (h : Screens (fun before => fits (x :: before)) reports xs r) :
    Screens fits reports (x :: xs) r := by
  cases r with
  | ok b => exact allFit_cons.mpr ⟨hx, h⟩
  | error e =>
    obtain ⟨y, hy, he⟩ := h
    have hhead : AllFit fits [x] := allFit_cons.mpr ⟨hx, allFit_nil⟩
    exact ⟨y, hy.append_right hhead, he⟩

/-- A screening goes well exactly if all elements fit. -/
theorem ok_iff (h : Screens fits reports xs r) : (∃ b, r = .ok b) ↔ AllFit fits xs := by
  cases r with
  | ok b => exact ⟨fun _ => h, fun _ => ⟨b, rfl⟩⟩
  | error e =>
    obtain ⟨x, hx, -⟩ := h
    exact ⟨nofun, fun hall => absurd hall hx.not_allFit⟩

/-- To go through two lists is to go through one and, if all its entries fit, through the other. -/
theorem bind {f : β → Except ε γ} (h : Screens fits reports xs r)
    (hf : ∀ b, r = .ok b → Screens (fun before => fits (xs ++ before)) reports ys (f b)) :
    Screens fits reports (xs ++ ys) (r >>= f) := by
  cases r with
  | error e =>
    obtain ⟨x, hx, he⟩ := h
    exact ⟨x, hx.append_left ys, he⟩
  | ok b =>
    have hrest := hf b rfl
    show Screens fits reports (xs ++ ys) (f b)
    cases hfb : f b with
    | ok c =>
      rw [hfb] at hrest
      exact allFit_append.mpr ⟨h, hrest⟩
    | error e =>
      rw [hfb] at hrest
      obtain ⟨y, hy, he⟩ := hrest
      exact ⟨y, hy.append_right h, he⟩

theorem congr {fits' : List α → α → Prop} (h : Screens fits reports xs r)
    (hfits : ∀ before x, fits' before x ↔ fits before x) : Screens fits' reports xs r := by
  have hsame : fits' = fits := by
    funext before x
    exact propext (hfits before x)
  rwa [hsame]

/-- Entries may be gone through under other names. -/
theorem map {f : α → γ} {fits : List γ → γ → Prop} {reports' : γ → ε → Prop}
    (h : Screens (fun before x => fits (before.map f) (f x)) reports xs r)
    (hreports : ∀ x e, reports x e → reports' (f x) e) : Screens fits reports' (xs.map f) r := by
  cases r with
  | ok b => exact allFit_map.mpr h
  | error e =>
    obtain ⟨x, hx, he⟩ := h
    exact ⟨f x, hx.map, hreports x e he⟩

end Screens

end RobotHost
