import Mathlib.Tactic.Common

/-!
# Runs of a step function

A run is a list of actions, taken one after the other. `Meets C` says that
every action of a run is taken in a state where `C` allows it; an invariant
that allowed steps keep holds in every state such a run reaches.
-/

namespace Runs

variable {S A : Type} (step : S → A → S)

def run (s : S) : List A → S
  | [] => s
  | a :: as => run (step s a) as

def Meets (C : S → A → Prop) (s : S) : List A → Prop
  | [] => True
  | a :: as => C s a ∧ Meets C (step s a) as

variable {step}

theorem run_append (s : S) (as bs : List A) : run step s (as ++ bs) = run step (run step s as) bs := by
  induction as generalizing s with
  | nil => rfl
  | cons a as ih => exact ih (step s a)

theorem Meets.append {C : S → A → Prop} {s : S} {as bs : List A} (h : Meets step C s (as ++ bs)) :
    Meets step C s as ∧ Meets step C (run step s as) bs := by
  induction as generalizing s with
  | nil => exact ⟨trivial, h⟩
  | cons a as ih =>
    obtain ⟨hc, hrest⟩ := h
    obtain ⟨h1, h2⟩ := ih hrest
    exact ⟨⟨hc, h1⟩, h2⟩

theorem Meets.of_append {C : S → A → Prop} {s : S} {as bs : List A} (h : Meets step C s as)
    (h' : Meets step C (run step s as) bs) : Meets step C s (as ++ bs) := by
  induction as generalizing s with
  | nil => exact h'
  | cons a as ih => exact ⟨h.1, ih h.2 h'⟩

/-- The invariant rule. -/
theorem run_inv {I : S → Prop} {C : S → A → Prop} (hstep : ∀ s a, I s → C s a → I (step s a))
    {s : S} {as : List A} (h0 : I s) (hm : Meets step C s as) : I (run step s as) := by
  induction as generalizing s with
  | nil => exact h0
  | cons a as ih => exact ih (hstep s a h0 hm.1) hm.2

theorem run_invariant {I : S → Prop} (hstep : ∀ s a, I s → I (step s a)) {s : S} (h0 : I s) (as : List A) :
    I (run step s as) := by
  induction as generalizing s with
  | nil => exact h0
  | cons a as ih => exact ih (hstep s a h0)

theorem run_at {I : S → Prop} {C : S → A → Prop} (hstep : ∀ s a, I s → C s a → I (step s a))
    {s : S} {pre post : List A} {a : A} (h0 : I s) (hm : Meets step C s (pre ++ a :: post)) :
    I (run step s pre) ∧ C (run step s pre) a := by
  obtain ⟨hpre, hpost⟩ := hm.append
  exact ⟨run_inv hstep h0 hpre, hpost.1⟩

/-- Where steps outside `C` break `J` at once, `J` holds all along a run just if
the run meets `C`. -/
theorem run_inv_iff {I J : S → Prop} {C : S → A → Prop} (himp : ∀ s, I s → J s)
    (hstep : ∀ s a, I s → C s a → I (step s a)) (hback : ∀ s a, I s → J (step s a) → C s a) {s : S} (h0 : I s)
    (as : List A) : (∀ pre, pre <+: as → J (run step s pre)) ↔ Meets step C s as := by
  induction as generalizing s with
  | nil =>
    refine ⟨fun _ => trivial, fun _ pre hpre => ?_⟩
    rw [List.prefix_nil.mp hpre]
    exact himp s h0
  | cons a as ih =>
    constructor
    · intro hall
      have hc : C s a := hback s a h0 (hall [a] (by simp))
      refine ⟨hc, (ih (hstep s a h0 hc)).mp fun pre hpre => ?_⟩
      exact hall (a :: pre) (List.cons_prefix_cons.mpr ⟨rfl, hpre⟩)
    · rintro ⟨hc, hrest⟩ pre hpre
      cases pre with
      | nil => exact himp s h0
      | cons b pre =>
        obtain ⟨rfl, htail⟩ := List.cons_prefix_cons.mp hpre
        exact (ih (hstep s b h0 hc)).mpr hrest pre htail

theorem Meets.of_forall {C : S → A → Prop} {as : List A} (h : ∀ a ∈ as, ∀ s, C s a) (s : S) : Meets step C s as := by
  induction as generalizing s with
  | nil => trivial
  | cons a as ih => exact ⟨h a (by simp) s, ih (fun b hb => h b (by simp [hb])) (step s a)⟩

/-- A rank that no action raises and the actions of a kind lower. -/
theorem run_rank (rank : S → Nat) (kind : A → Bool) (hle : ∀ s a, rank (step s a) ≤ rank s)
    (hlt : ∀ s a, kind a = true → rank (step s a) ≤ rank s - 1) (s : S) (as : List A) :
    rank (run step s as) ≤ rank s - as.countP kind := by
  induction as generalizing s with
  | nil => exact Nat.le_refl _
  | cons a as ih =>
    have htail := ih (step s a)
    rw [run, List.countP_cons]
    by_cases hk : kind a = true
    · have := hlt s a hk
      rw [if_pos hk]
      omega
    · have := hle s a
      rw [if_neg hk]
      omega

end Runs
