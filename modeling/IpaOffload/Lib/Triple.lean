import IpaOffload.Lib.Fallible

/-!
# Pre- and postconditions of stateful code that can fail

`Triple P x Q E`: from a state with `P`, a success of `x` ends with `Q`, which
sees the value too, and a failure with `E`. There is a rule for each way such
code is put together.
-/

namespace Fallible

variable {ε σ α β : Type}

def Triple (P : σ → Prop) (x : Fallible ε σ α) (Q : α → σ → Prop) (E : σ → Prop) : Prop :=
  ∀ s, P s →
    match exec x s with
    | (.ok a, s') => Q a s'
    | (.error _, s') => E s'

namespace Triple

variable {P : σ → Prop} {Q : α → σ → Prop} {E : σ → Prop}

theorem ok {x : Fallible ε σ α} (h : Triple P x Q E) {s s' : σ} {a : α} (hs : P s) (hexec : exec x s = (.ok a, s')) :
    Q a s' := by
  have hx := h s hs
  rw [hexec] at hx
  exact hx

theorem error {x : Fallible ε σ α} (h : Triple P x Q E) {s s' : σ} {e : ε} (hs : P s)
    (hexec : exec x s = (.error e, s')) : E s' := by
  have hx := h s hs
  rw [hexec] at hx
  exact hx

/-- What holds either way. -/
theorem always {x : Fallible ε σ α} {R : σ → Prop} (h : Triple P x (fun _ => R) R) {s : σ} (hs : P s) :
    R (exec x s).2 := by
  rcases hexec : exec x s with ⟨_ | _, s'⟩
  · exact h.error hs hexec
  · exact h.ok hs hexec

theorem of_exec {x : Fallible ε σ α} {a : α} {f : σ → σ} (hexec : ∀ s, P s → exec x s = (.ok a, f s))
    (h : ∀ s, P s → Q a (f s)) : Triple P x Q E := by
  intro s hs
  rw [hexec s hs]
  exact h s hs

theorem pure {a : α} (h : ∀ s, P s → Q a s) : Triple P (pure a : Fallible ε σ α) Q E := h

theorem throw {e : ε} (h : ∀ s, P s → E s) : Triple P (throw e : Fallible ε σ α) Q E := h

/-- A guard: what follows a failure does not run. -/
theorem throw_bind {e : ε} {k : β → Fallible ε σ α} (h : ∀ s, P s → E s) :
    Triple P ((MonadExcept.throw e : Fallible ε σ β) >>= k) Q E := h

theorem get : Triple P (get : Fallible ε σ σ) (fun a s => a = s ∧ P s) E := fun _ hs => ⟨rfl, hs⟩

theorem get_bind {k : σ → Fallible ε σ α} (h : ∀ s, P s → Triple (· = s) (k s) Q E) :
    Triple P ((MonadState.get : Fallible ε σ σ) >>= k) Q E := fun s hs => h s hs s rfl

theorem modify {f : σ → σ} {R : PUnit → σ → Prop} (h : ∀ s, P s → R ⟨⟩ (f s)) :
    Triple P (modify f : Fallible ε σ PUnit) R E := h

theorem bind {x : Fallible ε σ α} {k : α → Fallible ε σ β} {R : β → σ → Prop} (hx : Triple P x Q E)
    (hk : ∀ a, Triple (Q a) (k a) R E) : Triple P (x >>= k) R E := by
  intro s hs
  rw [exec_bind]
  rcases hexec : exec x s with ⟨e | a, s'⟩
  · exact hx.error hs hexec
  · exact hk a s' (hx.ok hs hexec)

theorem ite {x y : Fallible ε σ α} {c : Prop} [Decidable c] (hx : c → Triple P x Q E) (hy : ¬ c → Triple P y Q E) :
    Triple P (if c then x else y) Q E := by
  split
  · exact hx ‹_›
  · exact hy ‹_›

theorem when_bind {x : Fallible ε σ Unit} {k : Unit → Fallible ε σ α} {c : Prop} [Decidable c]
    (hx : Triple P x (fun _ => P) E) (hk : Triple P (k ()) Q E) : Triple P (if c then x >>= k else k ()) Q E :=
  .ite (fun _ => .bind hx fun _ => hk) fun _ => hk

theorem tryCatch {x : Fallible ε σ α} {k : ε → Fallible ε σ α} {E' : σ → Prop} (hx : Triple P x Q E')
    (hk : ∀ e, Triple E' (k e) Q E) : Triple P (tryCatch x k) Q E := by
  intro s hs
  rw [exec_tryCatch]
  rcases hexec : exec x s with ⟨e | a, s'⟩
  · exact hk e s' (hx.error hs hexec)
  · exact hx.ok hs hexec

theorem conseq {x : Fallible ε σ α} {P' : σ → Prop} {Q' : α → σ → Prop} {E' : σ → Prop} (h : Triple P' x Q' E')
    (hP : ∀ s, P s → P' s) (hQ : ∀ a s, Q' a s → Q a s) (hE : ∀ s, E' s → E s) : Triple P x Q E := by
  intro s hs
  rcases hexec : exec x s with ⟨e | a, s'⟩
  · exact hE s' (h.error (hP s hs) hexec)
  · exact hQ a s' (h.ok (hP s hs) hexec)

theorem pre {x : Fallible ε σ α} {P' : σ → Prop} (h : Triple P' x Q E) (hP : ∀ s, P s → P' s) : Triple P x Q E :=
  h.conseq hP (fun _ _ => id) fun _ => id

theorem post {x : Fallible ε σ α} {Q' : α → σ → Prop} (h : Triple P x Q' E) (hQ : ∀ a s, Q' a s → Q a s) :
    Triple P x Q E :=
  h.conseq (fun _ => id) hQ fun _ => id

theorem fails {x : Fallible ε σ α} {E' : σ → Prop} (h : Triple P x Q E') (hE : ∀ s, E' s → E s) : Triple P x Q E :=
  h.conseq (fun _ => id) (fun _ _ => id) hE

end Triple

end Fallible
