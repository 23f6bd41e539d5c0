import Mathlib.Tactic.Common

/-!
# Stateful code that can fail

A computation ends in a value or in an error, and in a state either way: what
it had changed before it failed stays changed. `exec_bind_ok` takes a
successful run apart.
-/

abbrev Fallible (ε σ : Type) := ExceptT ε (StateM σ)

namespace Fallible

variable {ε σ α β γ : Type}

def exec (x : Fallible ε σ α) (s : σ) : Except ε α × σ := x.run.run s

@[simp] theorem exec_pure (a : α) (s : σ) : exec (pure a : Fallible ε σ α) s = (.ok a, s) := rfl

@[simp] theorem exec_throw (e : ε) (s : σ) : exec (throw e : Fallible ε σ α) s = (.error e, s) := rfl

@[simp] theorem exec_get (s : σ) : exec (get : Fallible ε σ σ) s = (.ok s, s) := rfl

@[simp] theorem exec_set (s s' : σ) : exec (set s' : Fallible ε σ PUnit) s = (.ok ⟨⟩, s') := rfl

@[simp] theorem exec_modify (f : σ → σ) (s : σ) : exec (modify f : Fallible ε σ PUnit) s = (.ok ⟨⟩, f s) := rfl

theorem exec_bind (x : Fallible ε σ α) (k : α → Fallible ε σ β) (s : σ) :
    exec (x >>= k) s =
      match exec x s with
      | (.ok a, s') => exec (k a) s'
      | (.error e, s') => (.error e, s') := by
  unfold exec ExceptT.run StateT.run
  simp only [bind, ExceptT.bind, ExceptT.mk, StateT.bind, ExceptT.bindCont]
  rcases x s with ⟨e | a, s'⟩ <;> rfl

theorem exec_bind_of_ok {x : Fallible ε σ α} {k : α → Fallible ε σ β} (h : exec x s = (.ok a, s')) :
    exec (x >>= k) s = exec (k a) s' := by
  rw [exec_bind, h]

theorem exec_bind_of_error {x : Fallible ε σ α} {k : α → Fallible ε σ β} (h : exec x s = (.error e, s')) :
    exec (x >>= k) s = (.error e, s') := by
  rw [exec_bind, h]

theorem exec_bind_ok {x : Fallible ε σ α} {k : α → Fallible ε σ β} (h : exec (x >>= k) s = (.ok b, s')) :
    ∃ a s₁, exec x s = (.ok a, s₁) ∧ exec (k a) s₁ = (.ok b, s') := by
  rw [exec_bind] at h
  rcases hx : exec x s with ⟨e | a, s₁⟩
  · rw [hx] at h
    cases h
  · rw [hx] at h
    exact ⟨a, s₁, rfl, h⟩

theorem exec_tryCatch (x : Fallible ε σ α) (k : ε → Fallible ε σ α) (s : σ) :
    exec (tryCatch x k) s =
      match exec x s with
      | (.ok a, s') => (.ok a, s')
      | (.error e, s') => exec (k e) s' := by
  unfold exec ExceptT.run StateT.run
  simp only [tryCatch, tryCatchThe, MonadExceptOf.tryCatch, ExceptT.tryCatch, ExceptT.mk, bind, StateT.bind]
  rcases x s with ⟨e | a, s'⟩ <;> rfl

theorem exec_tryCatch_pure (x : Fallible ε σ Unit) (s : σ) :
    exec (tryCatch x fun _ => pure ()) s = (.ok (), (exec x s).2) := by
  rw [exec_tryCatch]
  rcases exec x s with ⟨e | a, s'⟩ <;> rfl

theorem bind_eq_ok {x : Except ε α} {f : α → Except ε β} :
    (x >>= f) = .ok b ↔ ∃ a, x = .ok a ∧ f a = .ok b := by
  cases x with
  | error e => exact ⟨nofun, nofun⟩
  | ok a => exact ⟨fun h => ⟨a, rfl, h⟩, fun ⟨_, h, hf⟩ => by cases h; exact hf⟩

-- ---------------------------------------------------------------------------
-- Frame rules
-- ---------------------------------------------------------------------------

def Keeps (f : σ → γ) (x : Fallible ε σ α) : Prop := ∀ s, f (exec x s).2 = f s

section
variable {f : σ → γ}

theorem Keeps.pure (a : α) : Keeps f (Pure.pure a : Fallible ε σ α) := fun _ => rfl

theorem Keeps.throw (e : ε) : Keeps f (MonadExcept.throw e : Fallible ε σ α) := fun _ => rfl

theorem Keeps.modify {g : σ → σ} (h : ∀ s, f (g s) = f s) : Keeps f (modify g : Fallible ε σ PUnit) := h

theorem Keeps.bind {x : Fallible ε σ α} {k : α → Fallible ε σ β} (hx : Keeps f x) (hk : ∀ a, Keeps f (k a)) :
    Keeps f (x >>= k) := by
  intro s
  have hs := hx s
  rw [exec_bind]
  rcases hexec : exec x s with ⟨e | a, s'⟩ <;> rw [hexec] at hs
  · exact hs
  · exact (hk a s').trans hs

theorem Keeps.ite {x y : Fallible ε σ α} (c : Prop) [Decidable c] (hx : Keeps f x) (hy : Keeps f y) :
    Keeps f (if c then x else y) := by
  split
  · exact hx
  · exact hy

def FailsKeeping (f : σ → γ) (x : Fallible ε σ α) : Prop := ∀ s e s', exec x s = (.error e, s') → f s' = f s

theorem Keeps.failsKeeping {x : Fallible ε σ α} (h : Keeps f x) : FailsKeeping f x := by
  intro s e s' hexec
  have hs := h s
  rw [hexec] at hs
  exact hs

theorem FailsKeeping.bind {x : Fallible ε σ α} {k : α → Fallible ε σ β} (hx : Keeps f x)
    (hk : ∀ a, FailsKeeping f (k a)) : FailsKeeping f (x >>= k) := by
  intro s e s' hexec
  have hs := hx s
  rw [exec_bind] at hexec
  rcases hrun : exec x s with ⟨e' | a, s₁⟩ <;> rw [hrun] at hexec hs
  · cases hexec
    exact hs
  · exact (hk a s₁ e s' hexec).trans hs

end

end Fallible
