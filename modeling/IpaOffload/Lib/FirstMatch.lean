import Mathlib.Data.List.Basic

/-!
# First-match rule lists

A rule may decide a packet (`some v`) or let it pass on (`none`); the first
rule that decides wins, and the policy decides what no rule does. `eraseN`
takes away copies of one rule from the front of the list.
-/

namespace FirstMatch

variable {R P V : Type}

def verdict (sem : R → P → Option V) (policy : V) : List R → P → V
  | [], _ => policy
  | r :: rs, p => (sem r p).getD (verdict sem policy rs p)

section
variable {sem : R → P → Option V} {policy : V} {p : P}

/-- What follows a list of rules is the policy they fall back on. -/
theorem verdict_append (as bs : List R) :
    verdict sem policy (as ++ bs) p = verdict sem (verdict sem policy bs p) as p := by
  induction as with
  | nil => rfl
  | cons a as ih => simp only [List.cons_append, verdict, ih]

theorem verdict_of_none (h : ∀ x ∈ l, sem x p = none) : verdict sem policy l p = policy := by
  induction l with
  | nil => rfl
  | cons x l ih =>
    have hx : sem x p = none := h x (by simp)
    simp only [verdict, hx, Option.getD_none]
    exact ih fun y hy => h y (by simp [hy])

theorem verdict_past (h : ∀ x ∈ as, sem x p = none) (bs : List R) :
    verdict sem policy (as ++ bs) p = verdict sem policy bs p := by
  rw [verdict_append, verdict_of_none h]

theorem verdict_head (h : sem r p = some v) (bs : List R) : verdict sem policy (r :: bs) p = v := by
  simp only [verdict, h, Option.getD_some]

theorem verdict_decided (h : ¬ ∀ x ∈ as, sem x p = none) (bs cs : List R) :
    verdict sem policy (as ++ bs) p = verdict sem policy (as ++ cs) p := by
  induction as with
  | nil => simp at h
  | cons x as ih =>
    cases hx : sem x p with
    | some v => rw [List.cons_append, List.cons_append, verdict_head hx, verdict_head hx]
    | none =>
      have has : ¬ ∀ y ∈ as, sem y p = none := fun hall => h (by simpa [hx] using hall)
      simp only [List.cons_append, verdict, hx, Option.getD_none, ih has]

theorem exists_last (h : r ∈ l) : ∃ mid suf : List R, l = mid ++ r :: suf ∧ r ∉ suf := by
  induction l with
  | nil => simp at h
  | cons x l ih =>
    by_cases hl : r ∈ l
    · obtain ⟨mid, suf, rfl, hsuf⟩ := ih hl
      exact ⟨x :: mid, suf, rfl, hsuf⟩
    · rcases List.mem_cons.mp h with rfl | hmem
      · exact ⟨[], l, rfl, hl⟩
      · exact absurd hmem hl

end

-- ---------------------------------------------------------------------------
-- Deleting copies
-- ---------------------------------------------------------------------------

variable [BEq R] [LawfulBEq R]

def eraseN (r : R) : Nat → List R → List R
  | 0, l => l
  | n + 1, l => eraseN r n (l.erase r)

def others (r : R) (l : List R) : List R := l.filter (· != r)

theorem eraseN_of_not_mem {r : R} {l : List R} (h : r ∉ l) : eraseN r n l = l := by
  induction n with
  | zero => rfl
  | succ n ih => simp only [eraseN, List.erase_of_not_mem h, ih]

theorem eraseN_cons_self (r : R) (n : Nat) (l : List R) : eraseN r (n + 1) (r :: l) = eraseN r n l := by
  simp only [eraseN, List.erase_cons_head]

theorem eraseN_append {r : R} {as : List R} (h : r ∉ as) (n : Nat) (bs : List R) :
    eraseN r n (as ++ bs) = as ++ eraseN r n bs := by
  induction n generalizing bs with
  | zero => rfl
  | succ n ih => simp only [eraseN, List.erase_append_right _ h, ih]

theorem eraseN_comm (r s : R) (m n : Nat) (l : List R) :
    eraseN r m (eraseN s n l) = eraseN s n (eraseN r m l) := by
  have hone : ∀ (n : Nat) (l : List R), eraseN s n (l.erase r) = (eraseN s n l).erase r := by
    intro n
    induction n with
    | zero => exact fun _ => rfl
    | succ n ih =>
      intro l
      simp only [eraseN, List.erase_comm r s, ih]
  induction m generalizing l with
  | zero => rfl
  | succ m ih => simp only [eraseN, ← hone, ih]

/-- Exactly as many deletions as there are copies in front leave what follows
them. -/
theorem eraseN_count (r : R) (as bs : List R) : eraseN r (as.count r) (as ++ bs) = others r as ++ bs := by
  induction as with
  | nil => rfl
  | cons a as ih =>
    by_cases ha : a = r
    · subst ha
      rw [List.count_cons_self, List.cons_append, eraseN_cons_self, ih]
      simp [others]
    · have hnot : r ∉ [a] := by simpa using Ne.symm ha
      have hsplit : a :: as ++ bs = [a] ++ (as ++ bs) := rfl
      rw [List.count_cons_of_ne ha, hsplit, eraseN_append hnot, ih]
      simp [others, ha]

omit [LawfulBEq R] in
theorem eraseN_add (r : R) (m n : Nat) (l : List R) : eraseN r (m + n) l = eraseN r n (eraseN r m l) := by
  induction m generalizing l with
  | zero => rw [Nat.zero_add]; rfl
  | succ m ih => rw [Nat.succ_add]; exact ih _

theorem eraseN_all {r : R} {l : List R} (h : l.count r ≤ n) : eraseN r n l = others r l := by
  obtain ⟨k, rfl⟩ := Nat.exists_eq_add_of_le h
  have hcount := eraseN_count r l []
  have hnot : r ∉ others r l := by simp [others]
  rw [List.append_nil, List.append_nil] at hcount
  rw [eraseN_add, hcount, eraseN_of_not_mem hnot]

theorem filter_eraseN {f : R → Bool} (h : f r = false) (n : Nat) (l : List R) :
    (eraseN r n l).filter f = l.filter f := by
  have hone : ∀ l : List R, (l.erase r).filter f = l.filter f := by
    intro l
    induction l with
    | nil => rfl
    | cons x l ih =>
      by_cases hx : x = r
      · subst hx
        simp only [List.erase_cons_head, List.filter_cons, h, Bool.false_eq_true, ↓reduceIte]
      · have hne : ¬ (x == r) = true := by simpa using hx
        simp only [List.erase_cons_tail hne, List.filter_cons, ih]
  induction n generalizing l with
  | zero => rfl
  | succ n ih => rw [eraseN, ih, hone]

theorem countP_eraseN {f : R → Bool} (h : f r = false) (n : Nat) (l : List R) :
    (eraseN r n l).countP f = l.countP f := by
  rw [List.countP_eq_length_filter, List.countP_eq_length_filter, filter_eraseN h]

theorem count_eraseN_self (r : R) (n : Nat) (l : List R) : (eraseN r n l).count r = l.count r - n := by
  induction n generalizing l with
  | zero => rfl
  | succ n ih =>
    rw [eraseN, ih, List.count_erase_self]
    omega

omit [LawfulBEq R] in
theorem eraseN_sublist (r : R) (n : Nat) (l : List R) : (eraseN r n l).Sublist l := by
  induction n generalizing l with
  | zero => exact List.Sublist.refl l
  | succ n ih => exact (ih (l.erase r)).trans List.erase_sublist

theorem verdict_eraseN {sem : R → P → Option V} {policy : V} {p : P} (h : sem r p = none) (n : Nat)
    (l : List R) : verdict sem policy (eraseN r n l) p = verdict sem policy l p := by
  have hone : ∀ l : List R, verdict sem policy (l.erase r) p = verdict sem policy l p := by
    intro l
    induction l with
    | nil => rfl
    | cons x l ih =>
      by_cases hx : x = r
      · subst hx
        simp only [List.erase_cons_head, verdict, h, Option.getD_none]
      · have hne : ¬ (x == r) = true := by simpa using hx
        simp only [List.erase_cons_tail hne, verdict, ih]
  induction n generalizing l with
  | zero => rfl
  | succ n ih => rw [eraseN, ih, hone]

end FirstMatch
