import Mathlib.Data.List.DropRight
import Mathlib.Data.List.GetD
import Mathlib.Tactic.Common

/-!
# Scanning loops

`while (p(s[pos])) pos++` over an array moves the position past the longest
part of the array whose elements satisfy `p`. Splitting a text at a separator
and stripping a blank from both ends of the parts gives its tokens; the lemmas
say how the tokens of a text change as a scanner eats it from the front.
-/

namespace Scan

variable {α : Type}

-- ---------------------------------------------------------------------------
-- One loop
-- ---------------------------------------------------------------------------

/-- `f fuel pos` is the loop `while (p(l[pos])) pos++`, cut off after `fuel`
rounds. Behind its end the array reads as `d`. -/
structure Scans (d : α) (p : α → Bool) (l : List α) (f : Nat → Nat → Nat) : Prop where
  stop : ∀ pos, f 0 pos = pos
  step : ∀ fuel pos, f (fuel + 1) pos = if p (l.getD pos d) then f fuel (pos + 1) else pos

theorem Scans.eq {d : α} {p : α → Bool} {l : List α} {f : Nat → Nat → Nat} (h : Scans d p l f) (hd : p d = false)
    (hfuel : l.length ≤ fuel + pos) : f fuel pos = pos + ((l.drop pos).takeWhile p).length := by
  induction fuel generalizing pos with
  | zero => rw [h.stop, List.drop_eq_nil_of_le (by omega)]; simp
  | succ fuel ih =>
    rw [h.step]
    by_cases hpos : pos < l.length
    · rw [List.drop_eq_getElem_cons hpos, List.takeWhile_cons, List.getD_eq_getElem _ _ hpos]
      by_cases hp : p l[pos]
      · rw [if_pos hp, if_pos hp, ih (by omega), List.length_cons]
        omega
      · simp [hp]
    · rw [List.drop_eq_nil_of_le (by omega), List.getD_eq_default _ _ (by omega)]
      simp [hd]

/-- The loop stops by itself, at an element of the array or at its end, whatever
the number of rounds it is allowed. -/
structure Contained (l : List α) (f : Nat → Nat → Nat) : Prop where
  stops : ∀ fuel pos, l.length ≤ fuel → f fuel pos = f l.length pos
  inside : ∀ pos, pos ≤ l.length → pos ≤ f l.length pos ∧ f l.length pos ≤ l.length

theorem Scans.contained {d : α} {p : α → Bool} {l : List α} {f : Nat → Nat → Nat} (h : Scans d p l f)
    (hd : p d = false) : Contained l f := by
  refine ⟨fun fuel pos hfuel => ?_, fun pos hpos => ?_⟩
  · rw [h.eq hd (by omega), h.eq hd (by omega)]
  · have hle := (List.takeWhile_sublist p (l := l.drop pos)).length_le
    rw [List.length_drop] at hle
    rw [h.eq hd (by omega)]
    omega

theorem dropWhile_cases (p : α → Bool) (l : List α) :
    l.dropWhile p = [] ∨ ∃ a r, l.dropWhile p = a :: r ∧ p a = false := by
  cases h : l.dropWhile p with
  | nil => exact .inl rfl
  | cons a r =>
    have hne : l.dropWhile p ≠ [] := by simp [h]
    have hhead := List.head_dropWhile_not p hne
    simp only [h, List.head_cons] at hhead
    exact .inr ⟨a, r, rfl, hhead⟩

theorem drop_takeWhile_length (p : α → Bool) (l : List α) : l.drop (l.takeWhile p).length = l.dropWhile p := by
  have h : (l.takeWhile p ++ l.dropWhile p).drop (l.takeWhile p).length = l.dropWhile p := List.drop_left
  rwa [List.takeWhile_append_dropWhile] at h

theorem takeWhile_progress {p q : α → Bool} {a : α} (r : List α) (h : p a = true ∨ q a = true) :
    0 < ((a :: r).takeWhile p).length + (((a :: r).dropWhile p).takeWhile q).length := by
  by_cases hp : p a = true
  · simp only [List.takeWhile_cons, hp, ↓reduceIte, List.length_cons]
    omega
  · have hq : q a = true := h.resolve_left hp
    simp [hp, hq]

theorem dropWhile_takeWhile_dropWhile {p q b : α → Bool} (hb : ∀ a, b a = true → p a = true) (l : List α) :
    ((l.dropWhile p).takeWhile q).dropWhile b = (l.dropWhile p).takeWhile q := by
  obtain hnil | ⟨a, r, hcons, ha⟩ := dropWhile_cases p l
  · rw [hnil]
    rfl
  · have hblank : ¬ b a = true := fun h => by simp [hb a h] at ha
    rw [hcons, List.takeWhile_cons]
    split
    · simp [hblank]
    · rfl

-- ---------------------------------------------------------------------------
-- Tokens
-- ---------------------------------------------------------------------------

section
variable [DecidableEq α] {sep blank : α}

theorem not_mem_of_mem_splitOn {l t : List α} (h : t ∈ l.splitOn sep) : sep ∉ t := by
  induction l generalizing t with
  | nil =>
    obtain rfl : t = [] := by simpa using h
    simp
  | cons a l ih =>
    obtain ⟨u, us, hu⟩ := List.exists_cons_of_ne_nil (List.splitOn_ne_nil sep l)
    rw [List.splitOn_cons_eq_if_modifyHead, hu] at h
    rw [hu] at ih
    by_cases ha : a = sep
    · obtain rfl | hmem : t = [] ∨ t ∈ u :: us := by simpa [ha] using h
      · simp
      · exact ih hmem
    · obtain rfl | hmem : t = a :: u ∨ t ∈ us := by simpa [ha] using h
      · simpa [Ne.symm ha] using ih List.mem_cons_self
      · exact ih (List.mem_cons_of_mem u hmem)

def strip (blank : α) (t : List α) : List α := (t.dropWhile (· = blank)).rdropWhile (· = blank)

def tokens (sep blank : α) (l : List α) : List (List α) := (l.splitOn sep).map (strip blank)

@[simp] theorem strip_nil : strip blank ([] : List α) = [] := rfl

theorem strip_cons (t : List α) : strip blank (blank :: t) = strip blank t := by
  simp [strip]

@[simp] theorem tokens_nil : tokens sep blank [] = [[]] := rfl

theorem tokens_sep_cons (l : List α) : tokens sep blank (sep :: l) = [] :: tokens sep blank l := by
  simp [tokens, List.splitOn_cons_eq_if_modifyHead]

theorem tokens_blank_cons (h : blank ≠ sep) (l : List α) :
    tokens sep blank (blank :: l) = tokens sep blank l := by
  obtain ⟨t, ts, ht⟩ := List.exists_cons_of_ne_nil (List.splitOn_ne_nil sep l)
  simp [tokens, List.splitOn_cons_eq_if_modifyHead, h, ht, strip_cons]

/-- A part without a separator, up to a separator or the end, is one token. -/
theorem mem_tokens_append {t rest : List α} (hx : x ≠ []) (ht : sep ∉ t)
    (hrest : rest = [] ∨ ∃ r, rest = sep :: r) :
    x ∈ tokens sep blank (t ++ rest) ↔ x = strip blank t ∨ x ∈ tokens sep blank rest := by
  have hfree : ∀ y ∈ t, (y == sep) = false := by
    intro y hy
    simp only [beq_eq_false_iff_ne]
    exact fun h => ht (h ▸ hy)
  obtain rfl | ⟨r, rfl⟩ := hrest
  · simp [tokens, List.splitOn_eq_splitOnP, List.splitOnP_eq_singleton hfree, hx]
  · rw [tokens_sep_cons]
    simp [tokens, List.splitOn_eq_splitOnP,
      List.splitOnP_append_cons_of_forall_mem hfree sep (beq_self_eq_true sep), hx]

theorem mem_tokens_dropWhile (hx : x ≠ []) (hne : blank ≠ sep) (l : List α) :
    x ∈ tokens sep blank (l.dropWhile fun a => a = blank ∨ a = sep) ↔ x ∈ tokens sep blank l := by
  induction l with
  | nil => rfl
  | cons a l ih =>
    rw [List.dropWhile_cons]
    by_cases hb : a = blank
    · subst hb
      simp only [true_or, decide_true, if_true, tokens_blank_cons hne]
      exact ih
    · by_cases hs : a = sep
      · subst hs
        simp only [or_true, decide_true, if_true, tokens_sep_cons, List.mem_cons, hx, false_or]
        exact ih
      · simp [hb, hs]

end

end Scan
