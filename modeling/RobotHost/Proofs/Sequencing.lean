/-!
# Taking sequences of steps apart

A step that may fail leaves a state behind either way. A sequence of two steps succeeds exactly if
both do, and fails where the first of them fails that does.
-/

namespace RobotHost

variable {ε σ α β : Type}

/-- The state that a step leaves behind. -/
def stateAfter : EStateM.Result ε σ α → σ
  | .ok _ s => s
  | .error _ s => s

/-- Two steps succeed if the first does and then the second does from there. -/
theorem bind_eq_ok {f : EStateM ε σ α} {g : α → EStateM ε σ β} {s t : σ} {b : β} :
    (f >>= g) s = .ok b t ↔ ∃ a u, f s = .ok a u ∧ g a u = .ok b t := by
  show EStateM.bind f g s = _ ↔ _
  unfold EStateM.bind
  cases f s with
  | ok a u =>
    constructor
    · intro h
      exact ⟨a, u, rfl, h⟩
    · rintro ⟨_, _, hf, hg⟩
      cases hf
      exact hg
  | error e u => simp

/-- Two steps fail if the first does, or the second does after it. -/
theorem bind_eq_error {f : EStateM ε σ α} {g : α → EStateM ε σ β} {s t : σ} {e : ε} :
    (f >>= g) s = .error e t ↔
      f s = .error e t ∨ ∃ a u, f s = .ok a u ∧ g a u = .error e t := by
  show EStateM.bind f g s = _ ↔ _
  unfold EStateM.bind
  cases f s with
  | ok a u =>
    constructor
    · intro h
      exact Or.inr ⟨a, u, rfl, h⟩
    · rintro (hf | ⟨_, _, hf, hg⟩)
      · cases hf
      · cases hf
        exact hg
  | error e u => simp

/-- A step that reads the state cannot fail. -/
theorem read_bind (f : σ → EStateM ε σ α) (s : σ) : (get >>= f) s = f s s := rfl

theorem pure_eq_ok {s t : σ} {a b : α} :
    (pure a : EStateM ε σ α) s = .ok b t ↔ a = b ∧ s = t := by
  show EStateM.Result.ok a s = EStateM.Result.ok b t ↔ _
  simp

theorem adaptExcept_eq_ok {ε' : Type} {f : ε → ε'} {x : EStateM ε σ α} {s t : σ} {a : α} :
    EStateM.adaptExcept f x s = .ok a t ↔ x s = .ok a t := by
  unfold EStateM.adaptExcept
  cases x s <;> simp

theorem adaptExcept_eq_error {ε' : Type} {f : ε → ε'} {x : EStateM ε σ α} {s t : σ} {e : ε'} :
    EStateM.adaptExcept f x s = .error e t ↔ ∃ d, x s = .error d t ∧ f d = e := by
  unfold EStateM.adaptExcept
  cases x s with
  | ok a u => simp
  | error d u =>
    simp only [EStateM.Result.error.injEq]
    constructor
    · rintro ⟨he, rfl⟩
      exact ⟨d, ⟨rfl, rfl⟩, he⟩
    · rintro ⟨_, ⟨rfl, rfl⟩, he⟩
      exact ⟨he, rfl⟩

/-- To drop an answer makes no difference to the state. -/
theorem stateAfter_discard (f : EStateM ε σ α) (s : σ) :
    stateAfter ((do let _ ← f : EStateM ε σ Unit) s) = stateAfter (f s) := by
  show stateAfter (EStateM.bind f (fun _ => pure ()) s) = _
  unfold EStateM.bind
  cases f s <;> rfl

/-! ## Steps that cannot fail -/

/-- A step that reads the state goes on with it. -/
theorem get_bind (f : σ → StateM σ α) (s : σ) : (get >>= f) s = f s s := rfl

theorem run_bind (x : StateM σ α) (f : α → StateM σ β) (s : σ) :
    (x >>= f) s = f (x s).1 (x s).2 := rfl

/-! ## Steps along a relation -/

/-- Whether it succeeds or not, a step leads along a relation. -/
def Along (R : σ → σ → Prop) (f : EStateM ε σ α) : Prop := ∀ s, R s (stateAfter (f s))

theorem along_pure {R : σ → σ → Prop} (hrefl : ∀ s, R s s) (a : α) :
    Along R (pure a : EStateM ε σ α) :=
  fun s => hrefl s

/-- Two steps lead along a relation if each does, as far as they get. -/
theorem Along.bind {R : σ → σ → Prop} (htrans : ∀ s t u, R s t → R t u → R s u)
    {f : EStateM ε σ α} {g : α → EStateM ε σ β} (hf : Along R f) (hg : ∀ a, Along R (g a)) :
    Along R (f >>= g) := by
  intro s
  have hs := hf s
  show R s (stateAfter (EStateM.bind f g s))
  unfold EStateM.bind
  cases hfs : f s with
  | error e t => rwa [hfs] at hs
  | ok a t =>
    rw [hfs] at hs
    exact htrans _ _ _ hs (hg a t)

theorem Along.of_ok {R : σ → σ → Prop} {f : EStateM ε σ α} (hf : Along R f) {s t : σ} {a : α}
    (h : f s = .ok a t) : R s t := by
  have hs := hf s
  rwa [h] at hs

theorem Along.of_error {R : σ → σ → Prop} {f : EStateM ε σ α} (hf : Along R f) {s t : σ} {e : ε}
    (h : f s = .error e t) : R s t := by
  have hs := hf s
  rwa [h] at hs

end RobotHost
