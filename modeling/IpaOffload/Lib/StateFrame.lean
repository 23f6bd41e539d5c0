import Mathlib.Tactic.Common

/-!
# Frame rules for stateful code

`Preserves f x`: running `x` does not change the part `f` of the state. The
rules follow the shape of the code, so a frame fact about a long command is
put together from those of its parts.
-/

namespace StateFrame

variable {S α β γ : Type}

theorem run_bind (x : StateM S α) (k : α → StateM S β) (s : S) :
    (x >>= k).run s = (k (x.run s).1).run (x.run s).2 := rfl

theorem run_get_bind (k : S → StateM S β) (s : S) : (MonadState.get >>= k).run s = (k s).run s := rfl

theorem run_modify (f : S → S) (s : S) : (modify f : StateM S Unit).run s = ((), f s) := rfl

def Preserves (f : S → γ) (x : StateM S α) : Prop := ∀ s, f (x.run s).2 = f s

theorem Preserves.pure (f : S → γ) (a : α) : Preserves f (Pure.pure a : StateM S α) := fun _ => rfl

theorem Preserves.bind {f : S → γ} {x : StateM S α} {k : α → StateM S β}
    (hx : Preserves f x) (hk : ∀ a, Preserves f (k a)) : Preserves f (x >>= k) :=
  fun s => (hk (x.run s).1 (x.run s).2).trans (hx s)

theorem Preserves.get (f : S → γ) : Preserves f (MonadState.get : StateM S S) := fun _ => rfl

theorem Preserves.modify {f : S → γ} {g : S → S} (h : ∀ s, f (g s) = f s) :
    Preserves f (modify g : StateM S Unit) := h

theorem Preserves.dite {f : S → γ} {x y : StateM S α} (c : Prop) [Decidable c]
    (hx : c → Preserves f x) (hy : ¬ c → Preserves f y) : Preserves f (if c then x else y) := by
  split
  · exact hx ‹c›
  · exact hy ‹¬ c›

theorem Preserves.ite {f : S → γ} {x y : StateM S α} (c : Prop) [Decidable c]
    (hx : Preserves f x) (hy : Preserves f y) : Preserves f (if c then x else y) :=
  Preserves.dite c (fun _ => hx) fun _ => hy

theorem Preserves.forM {f : S → γ} {body : β → StateM S Unit} (l : List β)
    (h : ∀ b, Preserves f (body b)) : Preserves f (l.forM body) := by
  induction l with
  | nil => exact Preserves.pure f ()
  | cons b l ih => exact (h b).bind fun _ => ih

theorem Preserves.comp {f : S → γ} {x : StateM S α} (h : Preserves f x) (g : γ → β) :
    Preserves (fun s => g (f s)) x := fun s => congrArg g (h s)

def Yields (p : α → Prop) (x : StateM S α) : Prop := ∀ s, p (x.run s).1

theorem Yields.pure {p : α → Prop} (h : p a) : Yields p (Pure.pure a : StateM S α) := fun _ => h

theorem Yields.bind {p : β → Prop} {x : StateM S α} {k : α → StateM S β} (h : ∀ a, Yields p (k a)) :
    Yields p (x >>= k) := fun s => h (x.run s).1 (x.run s).2

/-- `x` neither looks at nor touches the part of the state that `upd` sets. -/
def Ignores (upd : S → γ → S) (x : StateM S α) : Prop :=
  ∀ s c, x.run (upd s c) = ((x.run s).1, upd (x.run s).2 c)

theorem Ignores.pure (upd : S → γ → S) (a : α) : Ignores upd (Pure.pure a : StateM S α) := fun _ _ => rfl

theorem Ignores.bind {upd : S → γ → S} {x : StateM S α} {k : α → StateM S β} (hx : Ignores upd x)
    (hk : ∀ a, Ignores upd (k a)) : Ignores upd (x >>= k) := by
  intro s c
  rw [run_bind, hx s c, hk]
  rfl

/-- Reading the state is harmless where what follows depends on the rest of it
only. -/
theorem Ignores.get_bind {upd : S → γ → S} {k : S → StateM S β} (hk : ∀ s, Ignores upd (k s))
    (h : ∀ s c, k (upd s c) = k s) : Ignores upd (MonadState.get >>= k) := by
  intro s c
  rw [run_get_bind, run_get_bind, h, hk]

theorem Ignores.modify {upd : S → γ → S} {g : S → S} (h : ∀ s c, g (upd s c) = upd (g s) c) :
    Ignores upd (modify g : StateM S Unit) := by
  intro s c
  rw [run_modify, run_modify, h]

theorem Ignores.ite {upd : S → γ → S} {x y : StateM S α} (c : Prop) [Decidable c] (hx : Ignores upd x)
    (hy : Ignores upd y) : Ignores upd (if c then x else y) := by
  split
  · exact hx
  · exact hy

theorem Ignores.preserves {upd : S → γ → S} {part : S → γ} (hself : ∀ s, upd s (part s) = s)
    (hset : ∀ s c, part (upd s c) = c) {x : StateM S α} (h : Ignores upd x) : Preserves part x := by
  intro s
  have hrun := h s (part s)
  rw [hself] at hrun
  rw [hrun, hset]

theorem Ignores.forM {upd : S → γ → S} {body : β → StateM S Unit} (l : List β)
    (h : ∀ b, Ignores upd (body b)) : Ignores upd (l.forM body) := by
  induction l with
  | nil => exact Ignores.pure upd ()
  | cons b l ih => exact (h b).bind fun _ => ih

end StateFrame
