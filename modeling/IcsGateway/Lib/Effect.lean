/-!
# Computations that keep their state when they stop

A program in an imperative language changes its state step by step; when a step
throws, the changes made before it stay. `Eff ε σ` is that monad, and the rules below
evaluate a program one statement at a time through `exec`.
-/

namespace IcsGateway.Lib

/-- A computation over states `σ` that returns a value or stops with a reason `ε`. -/
abbrev Eff (ε σ : Type) := ExceptT ε (StateM σ)

namespace Eff

variable {ε σ α β : Type}

/-- The outcome of a computation from a state, and the state it leaves behind. -/
def exec (m : Eff ε σ α) (s : σ) : Except ε α × σ := ExceptT.run m s

/-- The result of a pure fallible operation, as a computation without effect. -/
def ofExcept (r : Except ε α) : Eff ε σ α :=
  match r with
  | .ok a => pure a
  | .error e => throw e

/-- Returning leaves the state alone. -/
@[simp] theorem exec_pure (a : α) (s : σ) : exec (pure a : Eff ε σ α) s = (.ok a, s) := rfl

/-- Stopping keeps the state reached. -/
@[simp] theorem exec_throw (e : ε) (s : σ) :
    exec (throw e : Eff ε σ α) s = (.error e, s) := rfl

/-- Sequencing goes on from the state reached, and stops where the first part stops. -/
theorem exec_bind (m : Eff ε σ α) (f : α → Eff ε σ β) (s : σ) :
    exec (m >>= f) s =
      match exec m s with
      | (.ok a, s') => exec (f a) s'
      | (.error e, s') => (.error e, s') := by
  change ExceptT.run (m >>= f) s = match ExceptT.run m s with
    | (.ok a, s') => ExceptT.run (f a) s'
    | (.error e, s') => (.error e, s')
  rw [ExceptT.run_bind]
  change (match ExceptT.run m s with
    | (r, s') => (match r with
      | .ok a => ExceptT.run (f a)
      | .error e => pure (.error e)) s') = _
  rcases ExceptT.run m s with ⟨r, s'⟩
  cases r <;> rfl

/-- Sequencing after a part that returned. -/
theorem exec_bind_of_ok {m : Eff ε σ α} {f : α → Eff ε σ β} {s s' : σ} {a : α}
    (h : exec m s = (.ok a, s')) : exec (m >>= f) s = exec (f a) s' := by
  rw [exec_bind, h]

/-- Sequencing after a part that stopped. -/
theorem exec_bind_of_error {m : Eff ε σ α} {f : α → Eff ε σ β} {s s' : σ} {e : ε}
    (h : exec m s = (.error e, s')) : exec (m >>= f) s = (.error e, s') := by
  rw [exec_bind, h]

/-- A sequence returns what its last part returns. -/
theorem exec_bind_ne {f : α → Eff ε σ β} {b : β} {s' : σ}
    (hf : ∀ a s, exec (f a) s ≠ (.ok b, s')) (m : Eff ε σ α) (s : σ) :
    exec (m >>= f) s ≠ (.ok b, s') := by
  rw [exec_bind]
  rcases exec m s with ⟨r, s₁⟩
  cases r with
  | ok a => exact hf a s₁
  | error e =>
    intro h
    cases h

/-- One that returns `a` at its end returns nothing else. -/
theorem exec_bind_pure_ne {a b : β} (hab : a ≠ b) (m : Eff ε σ α) (s s' : σ) :
    exec (m >>= fun _ ↦ pure a) s ≠ (.ok b, s') := by
  apply exec_bind_ne
  intro _ s₁ h
  exact hab (Except.ok.inj (congrArg Prod.fst h))

/-- Reading the state. -/
@[simp] theorem exec_get (s : σ) : exec (get : Eff ε σ σ) s = (.ok s, s) := rfl

/-- Replacing the state. -/
@[simp] theorem exec_set (s s' : σ) : exec (set s' : Eff ε σ PUnit) s = (.ok ⟨⟩, s') := rfl

/-- Updating the state. -/
@[simp] theorem exec_modify (f : σ → σ) (s : σ) :
    exec (modify f : Eff ε σ PUnit) s = (.ok ⟨⟩, f s) := rfl

/-- A pure fallible operation leaves the state alone. -/
@[simp] theorem exec_ofExcept (r : Except ε α) (s : σ) :
    exec (ofExcept r : Eff ε σ α) s = (r, s) := by
  cases r <;> rfl

/-- Sequencing after a pure fallible operation. -/
@[simp] theorem exec_ofExcept_bind (r : Except ε α) (f : α → Eff ε σ β) (s : σ) :
    exec (ofExcept r >>= f) s =
      match r with
      | .ok a => exec (f a) s
      | .error e => (.error e, s) := by
  rw [exec_bind, exec_ofExcept]
  cases r <;> rfl

/-- Handling a stop: the handler runs in the state in which the body stopped. -/
theorem exec_tryCatch (m : Eff ε σ α) (h : ε → Eff ε σ α) (s : σ) :
    exec (tryCatch m h) s =
      match exec m s with
      | (.ok a, s') => (.ok a, s')
      | (.error e, s') => exec (h e) s' := by
  change (match ExceptT.run m s with
    | (r, s') => (match r with
      | Except.ok a => pure (Except.ok a)
      | Except.error e => ExceptT.run (h e)) s') = _
  unfold exec
  rcases ExceptT.run m s with ⟨r, s'⟩
  cases r <;> rfl

/-- A conditional runs the chosen branch. -/
@[simp] theorem exec_ite (c : Prop) [Decidable c] (m₁ m₂ : Eff ε σ α) (s : σ) :
    exec (if c then m₁ else m₂) s = if c then exec m₁ s else exec m₂ s := by
  split <;> rfl

/-- Sequencing looks at its first part's outcome only. -/
theorem exec_bind_congr {m m' : Eff ε σ α} {s s' : σ} (h : exec m s = exec m' s')
    (f : α → Eff ε σ β) : exec (m >>= f) s = exec (m' >>= f) s' := by
  rw [exec_bind, exec_bind, h]

/-! ### What holds however a computation ends -/

/-- From a state with `I` a computation leaves one with `J`, whether it returns or stops. -/
def Leads (I J : σ → Prop) (m : Eff ε σ α) : Prop := ∀ s, I s → J (exec m s).2

section Leads

variable {I J : σ → Prop}

/-- Returning changes nothing. -/
theorem leads_pure (a : α) : Leads I I (pure a : Eff ε σ α) := fun _ h ↦ h

/-- Stopping changes nothing. -/
theorem leads_throw (e : ε) : Leads I I (throw e : Eff ε σ α) := fun _ h ↦ h

/-- A pure fallible operation changes nothing. -/
theorem leads_ofExcept (r : Except ε α) : Leads I I (ofExcept r : Eff ε σ α) := by
  intro s h
  rw [exec_ofExcept]
  exact h

/-- An update changes what it is given. -/
theorem leads_modify {f : σ → σ} (h : ∀ s, I s → J (f s)) :
    Leads I J (modify f : Eff ε σ PUnit) := h

/-- What the first part of a sequence reaches the second has to keep. -/
theorem Leads.bind {m : Eff ε σ α} {f : α → Eff ε σ β} (hm : Leads I J m)
    (hf : ∀ a, Leads J J (f a)) : Leads I J (m >>= f) := by
  intro s h
  have hs := hm s h
  rw [exec_bind]
  rcases hexec : exec m s with ⟨r, s'⟩
  rw [hexec] at hs
  cases r with
  | ok a => exact hf a s' hs
  | error e => exact hs

/-- What a computation reaches its handler has to keep. -/
theorem Leads.tryCatch {m : Eff ε σ α} {f : ε → Eff ε σ α} (hm : Leads I J m)
    (hf : ∀ e, Leads J J (f e)) : Leads I J (tryCatch m f) := by
  intro s h
  have hs := hm s h
  rw [exec_tryCatch]
  rcases hexec : exec m s with ⟨r, s'⟩
  rw [hexec] at hs
  cases r with
  | ok a => exact hs
  | error e => exact hf e s' hs

end Leads

/-! ### How a computation does not stop -/

/-- From no state a computation stops with `e`. -/
def Avoids (e : ε) (m : Eff ε σ α) : Prop := ∀ s, (exec m s).1 ≠ .error e

section Avoids

variable {e : ε}

/-- Returning is not stopping. -/
theorem avoids_pure (a : α) : Avoids e (pure a : Eff ε σ α) := by
  intro s h
  cases h

/-- Stopping with something else. -/
theorem avoids_throw {e' : ε} (h : e' ≠ e) : Avoids e (throw e' : Eff ε σ α) := by
  intro s hs
  exact h (Except.error.inj hs)

/-- A pure fallible operation that does not fail with `e`. -/
theorem avoids_ofExcept {r : Except ε α} (h : r ≠ .error e) :
    Avoids e (ofExcept r : Eff ε σ α) := by
  intro s
  rw [exec_ofExcept]
  exact h

/-- Reading the state is not stopping. -/
theorem avoids_get : Avoids e (get : Eff ε σ σ) := by
  intro s h
  cases h

/-- Nor is replacing it. -/
theorem avoids_set (s' : σ) : Avoids e (set s' : Eff ε σ PUnit) := by
  intro s h
  cases h

/-- Nor is updating it. -/
theorem avoids_modify (f : σ → σ) : Avoids e (modify f : Eff ε σ PUnit) := by
  intro s h
  cases h

/-- A sequence stops where one of its parts does. -/
theorem Avoids.bind {m : Eff ε σ α} {f : α → Eff ε σ β} (hm : Avoids e m)
    (hf : ∀ a, Avoids e (f a)) : Avoids e (m >>= f) := by
  intro s
  have hs := hm s
  rw [exec_bind]
  rcases hexec : exec m s with ⟨r, s'⟩
  rw [hexec] at hs
  cases r with
  | ok a => exact hf a s'
  | error e' => exact fun h ↦ hs (congrArg Except.error (Except.error.inj h))

/-- A handled computation stops as its handler does. -/
theorem Avoids.tryCatch {m : Eff ε σ α} {f : ε → Eff ε σ α} (hm : Avoids e m)
    (hf : ∀ e', e' ≠ e → Avoids e (f e')) : Avoids e (tryCatch m f) := by
  intro s
  have hs := hm s
  rw [exec_tryCatch]
  rcases hexec : exec m s with ⟨r, s'⟩
  rw [hexec] at hs
  cases r with
  | ok a => exact fun h ↦ by cases h
  | error e' => exact hf e' (fun h ↦ hs (congrArg Except.error h)) s'

end Avoids

end Eff
end IcsGateway.Lib
