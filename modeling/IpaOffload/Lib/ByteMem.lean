import Mathlib.Algebra.Group.Nat.Defs
import Mathlib.Tactic.Common

/-!
# Byte memory and counted loops

A flat memory is a function from addresses to bytes. `forRange` is the
counted loop `for (i = 0; i < n; i++)`; the copy and fill loops of C code are
instances of it. A loop whose iterations work on the records of a strided
array, each reading nothing the earlier iterations wrote, acts on every
record as if it had run alone (`forRange_strided`).
-/

namespace ByteMem

abbrev Mem := Nat → UInt8

def Mem.poke (m : Mem) (a : Nat) (v : UInt8) : Mem := fun b => if b = a then v else m b

@[simp] theorem poke_apply (m : Mem) (a : Nat) (v : UInt8) (b : Nat) :
    m.poke a v b = if b = a then v else m b := rfl

theorem byte_succ_ne (v : UInt8) : v + 1 ≠ v := by
  intro h
  have hnat := congrArg UInt8.toNat h
  have hlt := v.toNat_lt
  simp only [UInt8.toNat_add, UInt8.reduceToNat] at hnat
  omega

-- ---------------------------------------------------------------------------
-- Counted loops
-- ---------------------------------------------------------------------------

def forRange (n : Nat) (body : Nat → α → α) (s : α) : α :=
  match n with
  | 0 => s
  | n + 1 => body n (forRange n body s)

@[simp] theorem forRange_zero (body : Nat → α → α) (s : α) : forRange 0 body s = s := rfl

@[simp] theorem forRange_succ (n : Nat) (body : Nat → α → α) (s : α) :
    forRange (n + 1) body s = body n (forRange n body s) := rfl

theorem forRange_congr {body body' : Nat → α → α} (h : ∀ i t, i < n → body i t = body' i t) (s : α) :
    forRange n body s = forRange n body' s := by
  induction n with
  | zero => rfl
  | succ n ih =>
    simp only [forRange_succ]
    rw [ih fun i t hi => h i t (by omega), h n _ (by omega)]

/-- The invariant rule: `I i` holds before iteration `i`. -/
theorem forRange_inv {I : Nat → α → Prop} {body : Nat → α → α} (h0 : I 0 s)
    (hs : ∀ i t, i < n → I i t → I (i + 1) (body i t)) : I n (forRange n body s) := by
  induction n with
  | zero => exact h0
  | succ n ih =>
    exact hs n _ (by omega) (ih fun i t hi => hs i t (by omega))

-- ---------------------------------------------------------------------------
-- Regions
-- ---------------------------------------------------------------------------

def In (p n a : Nat) : Prop := p ≤ a ∧ a < p + n

instance (p n a : Nat) : Decidable (In p n a) := inferInstanceAs (Decidable (_ ∧ _))

@[simp] theorem not_in_zero (p a : Nat) : ¬ In p 0 a := by unfold In; omega

/-- The regions of `n` bytes at `p` and of `k` bytes at `q` share no address. -/
def Apart (p n q k : Nat) : Prop := p + n ≤ q ∨ q + k ≤ p

instance (p n q k : Nat) : Decidable (Apart p n q k) := inferInstanceAs (Decidable (_ ∨ _))

/-- `n` bytes at `d` in `m'` are the `n` bytes at `s` in `m`. -/
def Same (m' : Mem) (d : Nat) (m : Mem) (s n : Nat) : Prop := ∀ k, k < n → m' (d + k) = m (s + k)

theorem Same.mono (h : Same m' d m s n) (hn : k ≤ n) : Same m' d m s k := fun i hi => h i (by omega)

theorem Same.sub (h : Same m' d m s n) (hn : a + k ≤ n) : Same m' (d + a) m (s + a) k := fun i hi => by
  simpa only [Nat.add_assoc] using h (a + i) (by omega)

theorem Same.trans (h : Same m₁ a m₂ b n) (h' : Same m₂ b m₃ c n) : Same m₁ a m₃ c n :=
  fun k hk => (h k hk).trans (h' k hk)

theorem stride_le {i j S : Nat} (h : i < j) : i * S + S ≤ j * S := by
  calc i * S + S = (i + 1) * S := by rw [Nat.succ_mul]
    _ ≤ j * S := Nat.mul_le_mul_right S h

theorem in_stride (h : In base (n * S) a) : ∃ i, i < n ∧ In (base + i * S) S a := by
  have hpos : 0 < S := by
    rcases Nat.eq_zero_or_pos S with rfl | hpos
    · simp at h
    · exact hpos
  have hdiv := Nat.div_add_mod (a - base) S
  have hmod := Nat.mod_lt (a - base) hpos
  have hlt : (a - base) / S < n := by
    rw [Nat.div_lt_iff_lt_mul hpos]
    unfold In at h
    omega
  rw [Nat.mul_comm] at hdiv
  refine ⟨_, hlt, ?_⟩
  unfold In at h ⊢
  omega

theorem stride_mono {i j S : Nat} (h : i ≤ j) : i * S ≤ j * S := Nat.mul_le_mul_right S h

-- ---------------------------------------------------------------------------
-- Fill and copy
-- ---------------------------------------------------------------------------

def memZero (p n : Nat) (m : Mem) : Mem := forRange n (fun i m => m.poke (p + i) 0) m

/-- Byte by byte in increasing order, as the C loop does. -/
def memCopy (d s n : Nat) (m : Mem) : Mem := forRange n (fun i m => m.poke (d + i) (m (s + i))) m

/-- A copy out of another object, whose bytes are `src`. -/
def memPut (d : Nat) (src : Nat → UInt8) (n : Nat) (m : Mem) : Mem :=
  forRange n (fun i m => m.poke (d + i) (src i)) m

theorem memZero_apply (p n : Nat) (m : Mem) (a : Nat) :
    memZero p n m a = if In p n a then 0 else m a := by
  induction n with
  | zero => simp [memZero]
  | succ n ih =>
    have hstep : memZero p (n + 1) m = (memZero p n m).poke (p + n) 0 := rfl
    rw [hstep, poke_apply, ih]
    grind [In]

theorem memPut_apply (d : Nat) (src : Nat → UInt8) (n : Nat) (m : Mem) (a : Nat) :
    memPut d src n m a = if In d n a then src (a - d) else m a := by
  induction n with
  | zero => simp [memPut]
  | succ n ih =>
    have hstep : memPut d src (n + 1) m = (memPut d src n m).poke (d + n) (src n) := rfl
    rw [hstep, poke_apply, ih]
    grind [In]

/-- Between regions that share no address a copy is simultaneous. -/
theorem memCopy_apply (d s n : Nat) (m : Mem) (a : Nat) (h : Apart d n s n) :
    memCopy d s n m a = if In d n a then m (s + (a - d)) else m a := by
  induction n generalizing a with
  | zero => simp [memCopy]
  | succ n ih =>
    have hstep : memCopy d s (n + 1) m = (memCopy d s n m).poke (d + n) (memCopy d s n m (s + n)) := rfl
    have hn : Apart d n s n := by unfold Apart at h ⊢; omega
    rw [hstep, poke_apply, ih a hn, ih (s + n) hn]
    grind [In, Apart]

theorem memCopy_same (d s n : Nat) (m : Mem) (h : Apart d n s n) : Same (memCopy d s n m) d m s n := by
  intro k hk
  rw [memCopy_apply d s n m (d + k) h, if_pos ⟨by omega, by omega⟩]
  congr 1
  omega

-- ---------------------------------------------------------------------------
-- Little-endian words
-- ---------------------------------------------------------------------------

def rd32 (m : Mem) (p : Nat) : Nat :=
  (m p).toNat + (m (p + 1)).toNat * 2 ^ 8 + (m (p + 2)).toNat * 2 ^ 16 + (m (p + 3)).toNat * 2 ^ 24

def rd64 (m : Mem) (p : Nat) : Nat := rd32 m p + rd32 m (p + 4) * 2 ^ 32

/-- The `n` low bytes of `v`, least significant first: `wr32` and `wr64`. -/
def wrLe (n : Nat) (p v : Nat) (m : Mem) : Mem :=
  forRange n (fun i m => m.poke (p + i) (UInt8.ofNat (v / 2 ^ (8 * i)))) m

def wr32 (p v : Nat) (m : Mem) : Mem := wrLe 4 p v m

def wr64 (p v : Nat) (m : Mem) : Mem := wrLe 8 p v m

theorem wrLe_apply (n p v : Nat) (m : Mem) (a : Nat) :
    wrLe n p v m a = if In p n a then UInt8.ofNat (v / 2 ^ (8 * (a - p))) else m a := by
  induction n with
  | zero => simp [wrLe]
  | succ n ih =>
    have hstep : wrLe (n + 1) p v m = (wrLe n p v m).poke (p + n) (UInt8.ofNat (v / 2 ^ (8 * n))) := rfl
    rw [hstep, poke_apply, ih]
    by_cases ha : a = p + n
    · subst ha
      rw [if_pos rfl, if_pos (show In p (n + 1) (p + n) from ⟨by omega, by omega⟩), Nat.add_sub_cancel_left]
    · have hiff : In p (n + 1) a ↔ In p n a := by unfold In; omega
      rw [if_neg ha]
      simp only [hiff]

theorem rd32_congr {m m' : Mem} (h : Same m' q m p 4) : rd32 m' q = rd32 m p := by
  have h0 := h 0 (by omega)
  simp only [Nat.add_zero] at h0
  simp only [rd32, h0, h 1 (by omega), h 2 (by omega), h 3 (by omega)]

theorem rd64_congr {m m' : Mem} (h : Same m' q m p 8) : rd64 m' q = rd64 m p := by
  have hlo : Same m' q m p 4 := fun k hk => h k (by omega)
  have hhi : Same m' (q + 4) m (p + 4) 4 := fun k hk => by
    simpa only [Nat.add_assoc] using h (4 + k) (by omega)
  rw [rd64, rd64, rd32_congr hlo, rd32_congr hhi]

theorem rd32_wr32 (p v : Nat) (m : Mem) (hv : v < 2 ^ 32) : rd32 (wr32 p v m) p = v := by
  have hb : ∀ k, k < 4 → (wr32 p v m (p + k)).toNat = v / 2 ^ (8 * k) % 256 := by
    intro k hk
    rw [wr32, wrLe_apply, if_pos ⟨by omega, by omega⟩, Nat.add_sub_cancel_left]
    simp
  have h0 := hb 0 (by omega)
  simp only [Nat.add_zero] at h0
  rw [rd32, h0, hb 1 (by omega), hb 2 (by omega), hb 3 (by omega)]
  omega

-- ---------------------------------------------------------------------------
-- Loops over the records of an array
-- ---------------------------------------------------------------------------

/-- Iteration `i` writes inside record `i` only, and what it writes there is
the same whatever the earlier iterations left in their own records. Then the
loop does to each record what its iteration does from the initial memory. -/
theorem forRange_strided {body : Nat → Mem → Mem} {base S n : Nat} (m : Mem)
    (hout : ∀ i t a, i < n → ¬ In (base + i * S) S a → body i t a = t a)
    (hin : ∀ i t, i < n → (∀ a, ¬ In base (i * S) a → t a = m a) →
      ∀ a, In (base + i * S) S a → body i t a = body i m a) :
    (∀ i a, i < n → In (base + i * S) S a → forRange n body m a = body i m a) ∧
      ∀ a, ¬ In base (n * S) a → forRange n body m a = m a := by
  refine forRange_inv (I := fun (j : Nat) (t : Mem) =>
    (∀ i a, i < j → In (base + i * S) S a → t a = body i m a) ∧
      ∀ a, ¬ In base (j * S) a → t a = m a) ⟨fun i a hi => absurd hi (by omega), fun a _ => rfl⟩ ?_
  intro j t hj ⟨hdone, hrest⟩
  refine ⟨fun i a hi ha => ?_, fun a ha => ?_⟩
  · rcases Nat.lt_succ_iff_lt_or_eq.mp hi with hlt | rfl
    · -- an earlier record: iteration `j` leaves it alone
      have hle := stride_le (S := S) hlt
      have hna : ¬ In (base + j * S) S a := by unfold In at ha ⊢; omega
      rw [hout j t a hj hna, hdone i a hlt ha]
    · exact hin i t hj hrest a ha
  · have hsucc : (j + 1) * S = j * S + S := Nat.succ_mul j S
    have h1 : ¬ In (base + j * S) S a := by unfold In at ha ⊢; omega
    have h2 : ¬ In base (j * S) a := by unfold In at ha ⊢; omega
    rw [hout j t a hj h1, hrest a h2]

/-- The same for a loop that runs from the last record to the first and moves
each from an array of stride `S` to one of stride `T` that begins at the same
address: what iteration `i` writes into its new record depends on the old
record only. Because `S ≤ T`, the old records still to be read lie below
everything written so far. -/
theorem forRange_backward (body : Nat → Mem → Mem) (base S T n : Nat) (hST : S ≤ T) (m : Mem)
    (hout : ∀ i t a, ¬ In (base + i * T) T a → body i t a = t a)
    (hin : ∀ i t t', (∀ a, In (base + i * S) S a → t a = t' a) →
      ∀ a, In (base + i * T) T a → body i t a = body i t' a) :
    (∀ i a, i < n → In (base + i * T) T a → forRange n (fun j => body (n - 1 - j)) m a = body i m a) ∧
      ∀ a, ¬ In base (n * T) a → forRange n (fun j => body (n - 1 - j)) m a = m a := by
  -- after `j` rounds the last `j` records are done and nothing else has changed
  suffices hinv : (∀ i a, n - n ≤ i → i < n → In (base + i * T) T a →
      forRange n (fun j => body (n - 1 - j)) m a = body i m a) ∧
      ∀ a, a < base + (n - n) * T ∨ base + n * T ≤ a → forRange n (fun j => body (n - 1 - j)) m a = m a by
    refine ⟨fun i a hi ha => hinv.1 i a (by omega) hi ha, fun a ha => hinv.2 a ?_⟩
    simp only [Nat.sub_self, Nat.zero_mul, In] at ha ⊢
    omega
  refine forRange_inv (I := fun (j : Nat) (t : Mem) =>
    (∀ i a, n - j ≤ i → i < n → In (base + i * T) T a → t a = body i m a) ∧
      ∀ a, a < base + (n - j) * T ∨ base + n * T ≤ a → t a = m a) ⟨fun i a _ _ => by omega, fun a _ => rfl⟩ ?_
  intro j t hj ⟨hdone, hrest⟩
  obtain ⟨i, hi⟩ : ∃ i, n - j = i + 1 := ⟨n - j - 1, by omega⟩
  have hcur : n - 1 - j = i := by omega
  have hnext : n - (j + 1) = i := by omega
  have hlast := stride_mono (S := T) (show i + 1 ≤ n by omega)
  have hmul : i * S ≤ i * T := Nat.mul_le_mul_left i hST
  rw [hcur, hnext]
  rw [hi] at hdone hrest
  rw [Nat.succ_mul] at hrest hlast
  refine ⟨fun k a hk hkn ha => ?_, fun a ha => ?_⟩
  · rcases Nat.eq_or_lt_of_le hk with rfl | hlt
    · refine hin i t m (fun b hb => hrest b (.inl ?_)) a ha
      unfold In at hb
      omega
    · have hle := stride_le (S := T) hlt
      rw [hout i t a (by unfold In at ha ⊢; omega)]
      exact hdone k a hlt hkn ha
  · rw [hout i t a (by unfold In; omega)]
    exact hrest a (by omega)

end ByteMem
