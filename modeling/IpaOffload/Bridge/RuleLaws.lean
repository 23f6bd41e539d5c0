import IpaOffload.Bridge.Rules

/-!
# What the rule translators do

The buffer handed to the kernel, byte by byte (`build_rule`, `build_atRear`,
`build_rest`, `build_header`, `build_outside`), and what the copy-back leaves
in the caller's memory (`copyBack_hdl`, `copyBack_status`,
`copyBack_elsewhere`). Everything is stated for an arbitrary `AddSpec`.
-/

namespace IpaOffload.Bridge

open ByteMem StateFrame

namespace AddSpec

variable {s : AddSpec} {U : Uapi} {buf arg : Nat} {m : Mem}

def newRec (s : AddSpec) (U : Uapi) (m : Mem) (arg i : Nat) : Nat :=
  s.newRules U m arg + i * s.kind.new.size

def oldRec (s : AddSpec) (buf i : Nat) : Nat := buf + s.hdr + i * s.kind.oldSize

/-- The stack buffer shares no byte with the caller's header and rule array. -/
structure Placed (s : AddSpec) (U : Uapi) (buf : Nat) (m : Mem) (arg : Nat) : Prop where
  header : Apart buf s.bufSize arg s.hdr
  rules : Apart buf s.bufSize (s.newRules U m arg) (s.numRules U m arg * s.kind.new.size)

theorem accepts_iff : s.accepts U m arg = true ↔
    arg ≠ 0 ∧ s.numRules U m arg ≠ 0 ∧ s.numRules U m arg ≤ rtFltMaxTranslateRules ∧
      (s.v2 = true → s.rulesField U m arg ≠ 0) := by
  unfold accepts
  exact decide_eq_true_iff

theorem oldRec_bounds (buf : Nat) (hi : i < rtFltMaxTranslateRules) :
    buf + s.hdr ≤ s.oldRec buf i ∧ s.oldRec buf i + s.kind.oldSize ≤ buf + s.bufSize := by
  have h := stride_le (S := s.kind.oldSize) hi
  unfold oldRec bufSize
  omega

theorem newRec_bounds (hi : i < s.numRules U m arg) :
    s.newRules U m arg ≤ s.newRec U m arg i ∧
      s.newRec U m arg i + s.kind.new.size ≤
        s.newRules U m arg + s.numRules U m arg * s.kind.new.size := by
  have h := stride_le (S := s.kind.new.size) hi
  unfold newRec
  omega

theorem Placed.records (hp : s.Placed U buf m arg) (hi : i < s.numRules U m arg)
    (hj : j < rtFltMaxTranslateRules) :
    Apart (s.oldRec buf j) s.kind.oldSize (s.newRec U m arg i) s.kind.new.size := by
  have h1 := hp.rules
  have h2 := oldRec_bounds (s := s) buf hj
  have h3 := newRec_bounds hi
  unfold Apart at h1 ⊢
  omega

-- ---------------------------------------------------------------------------
-- The header
-- ---------------------------------------------------------------------------

theorem v2_bounds (hv : s.v2 = true) :
    U.off s.req .ruleSize + 4 ≤ U.off s.req .rules ∧ U.off s.req .rules + 8 ≤ s.hdr := by
  rw [s.hdr_eq]
  exact U.v2_fields s.req (s.v2_eq ▸ hv)

theorem putHeader_outside (hp : Apart buf s.bufSize arg s.hdr) (ha : ¬ In buf s.hdr a) :
    s.putHeader U buf arg m a = if In buf s.bufSize a then 0 else m a := by
  have hcopy : Apart buf s.hdr arg s.hdr := by unfold Apart bufSize at *; omega
  have hplain : memCopy buf arg s.hdr (memZero buf s.bufSize m) a =
      if In buf s.bufSize a then 0 else m a := by
    rw [memCopy_apply _ _ _ _ _ hcopy, if_neg ha, memZero_apply]
  unfold putHeader
  by_cases hv : s.v2 = true
  · have hb := v2_bounds (U := U) hv
    have h1 : ¬ In (buf + U.off s.req .rules) 8 a := by unfold In at *; omega
    have h2 : ¬ In (buf + U.off s.req .ruleSize) 4 a := by unfold In at *; omega
    simp only [hv, ↓reduceIte, wr64, wr32, wrLe_apply, if_neg h1, if_neg h2, hplain]
  · simp only [Bool.not_eq_true] at hv
    simp only [hv, Bool.false_eq_true, ↓reduceIte, hplain]

theorem putHeader_same (hp : Apart buf s.bufSize arg s.hdr) (hk : k < s.hdr)
    (hv : s.v2 = true → ¬ In (U.off s.req .ruleSize) 4 k ∧ ¬ In (U.off s.req .rules) 8 k) :
    s.putHeader U buf arg m (buf + k) = m (arg + k) := by
  have hcopy : Apart buf s.hdr arg s.hdr := by unfold Apart bufSize at *; omega
  have hplain : memCopy buf arg s.hdr (memZero buf s.bufSize m) (buf + k) = m (arg + k) := by
    have hz := memCopy_same buf arg s.hdr (memZero buf s.bufSize m) hcopy k hk
    have harg : ¬ In buf s.bufSize (arg + k) := by unfold Apart In at *; omega
    rw [hz, memZero_apply, if_neg harg]
  unfold putHeader
  cases hv2 : s.v2 with
  | false => simpa only [hv2, Bool.false_eq_true, ↓reduceIte] using hplain
  | true =>
    obtain ⟨h1, h2⟩ := hv hv2
    have h1' : ¬ In (buf + U.off s.req .ruleSize) 4 (buf + k) := by unfold In at *; omega
    have h2' : ¬ In (buf + U.off s.req .rules) 8 (buf + k) := by unfold In at *; omega
    simp only [↓reduceIte, wr64, wr32, wrLe_apply, if_neg h1', if_neg h2', hplain]

/-- A V2 header declares the size of the old non-V2 record. -/
theorem putHeader_ruleSize (hv : s.v2 = true) (hsize : s.kind.oldSize < 2 ^ 32) :
    rd32 (s.putHeader U buf arg m) (buf + U.off s.req .ruleSize) = s.kind.oldSize := by
  have hb := v2_bounds (U := U) hv
  have hsame : Same (s.putHeader U buf arg m) (buf + U.off s.req .ruleSize)
      (wr32 (buf + U.off s.req .ruleSize) s.kind.oldSize
        (memCopy buf arg s.hdr (memZero buf s.bufSize m))) (buf + U.off s.req .ruleSize) 4 := by
    intro k hk
    have h1 : ¬ In (buf + U.off s.req .rules) 8 (buf + U.off s.req .ruleSize + k) := by
      unfold In; omega
    simp only [putHeader, hv, ↓reduceIte, wr64, wrLe_apply _ _ _ (wr32 _ _ _), if_neg h1]
  rw [rd32_congr hsame, rd32_wr32 _ _ _ hsize]

-- ---------------------------------------------------------------------------
-- The records
-- ---------------------------------------------------------------------------

theorem putRecord_apply {oldp newp : Nat} {t : Mem}
    (h : Apart oldp s.kind.oldSize newp s.kind.new.size) :
    s.putRecord oldp newp t a =
      if a = oldp + s.kind.oldAtRear then t (newp + s.kind.new.atRear)
      else if In oldp s.kind.ruleSize a then s.kind.image (fun k => t (newp + k)) (a - oldp)
      else t a := by
  have hf := s.kind.old_fields
  have h1 := s.kind.new.atRear_lt
  have h2 := s.kind.new.hdl_le
  have h3 := s.kind.new.status_le
  have e1 : Apart (oldp + s.kind.oldAtRear) 1 (newp + s.kind.new.atRear) 1 := by unfold Apart at *; omega
  have e2 : Apart oldp s.kind.ruleSize newp s.kind.new.size := by unfold Apart at *; omega
  have hsrc : ¬ In oldp s.kind.ruleSize (newp + s.kind.new.atRear) := by unfold Apart In at *; omega
  unfold putRecord
  rw [memCopy_apply _ _ _ _ _ e1]
  by_cases ha : a = oldp + s.kind.oldAtRear
  · have hin : In (oldp + s.kind.oldAtRear) 1 a := by unfold In; omega
    rw [if_pos hin, if_pos ha, s.kind.toOld_apply _ _ _ _ e2, ha, Nat.sub_self, Nat.add_zero,
      if_neg hsrc]
  · have hin : ¬ In (oldp + s.kind.oldAtRear) 1 a := by unfold In; omega
    rw [if_neg hin, if_neg ha, s.kind.toOld_apply _ _ _ _ e2]

theorem putRecord_outside {oldp newp : Nat} {t : Mem}
    (h : Apart oldp s.kind.oldSize newp s.kind.new.size) (ha : ¬ In oldp s.kind.oldSize a) :
    s.putRecord oldp newp t a = t a := by
  have hf := s.kind.old_fields
  have h1 : a ≠ oldp + s.kind.oldAtRear := by unfold In at ha; omega
  have h2 : ¬ In oldp s.kind.ruleSize a := by unfold In at *; omega
  rw [putRecord_apply h, if_neg h1, if_neg h2]

theorem putRecord_congr {oldp newp : Nat} {t t' : Mem}
    (h : Apart oldp s.kind.oldSize newp s.kind.new.size)
    (hnew : ∀ k, k < s.kind.new.size → t (newp + k) = t' (newp + k))
    (hold : t a = t' a) : s.putRecord oldp newp t a = s.putRecord oldp newp t' a := by
  have h1 := s.kind.new.atRear_lt
  have h2 := s.kind.new.hdl_le
  have h3 := s.kind.new.status_le
  rw [putRecord_apply h, putRecord_apply h]
  split
  · exact hnew _ (by omega)
  · split
    · rename_i hin
      exact s.kind.image_congr _ _ _ hnew (by unfold In at hin; omega)
    · exact hold

theorem build_record (hp : s.Placed U buf m arg) (hn : s.numRules U m arg ≤ rtFltMaxTranslateRules) :
    (∀ i a, i < s.numRules U m arg → In (s.oldRec buf i) s.kind.oldSize a →
      s.build U buf arg m a =
        s.putRecord (s.oldRec buf i) (s.newRec U m arg i) (s.putHeader U buf arg m) a) ∧
    ∀ a, ¬ In (buf + s.hdr) (s.numRules U m arg * s.kind.oldSize) a →
      s.build U buf arg m a = s.putHeader U buf arg m a := by
  refine forRange_strided _ ?_ ?_
  · intro i t a hi ha
    exact putRecord_outside (hp.records hi (by omega)) ha
  · intro i t hi hagree a ha
    have hb := oldRec_bounds (s := s) (i := i) buf (by omega)
    have hnb := newRec_bounds hi
    have hr := hp.rules
    refine putRecord_congr (hp.records hi (by omega)) (fun k hk => ?_) ?_
    · -- the caller's record is outside the buffer
      refine hagree _ ?_
      have hle := stride_le (S := s.kind.oldSize) (show i < rtFltMaxTranslateRules by omega)
      unfold newRec at hnb
      unfold Apart bufSize at hr
      unfold In
      omega
    · refine hagree _ ?_
      unfold In at ha ⊢
      omega

theorem build_outside (hp : s.Placed U buf m arg) (hn : s.numRules U m arg ≤ rtFltMaxTranslateRules)
    (ha : ¬ In buf s.bufSize a) : s.build U buf arg m a = m a := by
  have hle := stride_mono (S := s.kind.oldSize) hn
  have h1 : ¬ In (buf + s.hdr) (s.numRules U m arg * s.kind.oldSize) a := by
    unfold In bufSize at *; omega
  have h2 : ¬ In buf s.hdr a := by unfold In bufSize at *; omega
  rw [(build_record hp hn).2 a h1, putHeader_outside hp.header h2, if_neg ha]

theorem build_header (hp : s.Placed U buf m arg) (hn : s.numRules U m arg ≤ rtFltMaxTranslateRules)
    (hk : k < s.hdr) : s.build U buf arg m (buf + k) = s.putHeader U buf arg m (buf + k) :=
  (build_record hp hn).2 _ (by unfold In; omega)

theorem putHeader_newRec (hp : s.Placed U buf m arg) (hi : i < s.numRules U m arg)
    (hk : k < s.kind.new.size) :
    s.putHeader U buf arg m (s.newRec U m arg i + k) = m (s.newRec U m arg i + k) := by
  have hr := hp.rules
  have hnb := newRec_bounds hi
  have h1 : ¬ In buf s.bufSize (s.newRec U m arg i + k) := by unfold Apart In at *; omega
  have h2 : ¬ In buf s.hdr (s.newRec U m arg i + k) := by unfold In bufSize at *; omega
  rw [putHeader_outside hp.header h2, if_neg h1]

section
variable (hp : s.Placed U buf m arg) (hn : s.numRules U m arg ≤ rtFltMaxTranslateRules)
variable (hi : i < s.numRules U m arg)
include hp hn hi

theorem build_rule (hk : k < s.kind.ruleSize) :
    s.build U buf arg m (s.oldRec buf i + k) =
      s.kind.image (fun j => m (s.newRec U m arg i + j)) k := by
  have hf := s.kind.old_fields
  rw [(build_record hp hn).1 i _ hi ⟨by omega, by omega⟩, putRecord_apply (hp.records hi (by omega)),
    if_neg (by omega), if_pos ⟨by omega, by omega⟩, Nat.add_sub_cancel_left]
  exact s.kind.image_congr _ _ _ (fun j hj => putHeader_newRec hp hi hj) hk

theorem build_atRear :
    s.build U buf arg m (s.oldRec buf i + s.kind.oldAtRear) =
      m (s.newRec U m arg i + s.kind.new.atRear) := by
  have hf := s.kind.old_fields
  have h1 := s.kind.new.atRear_lt
  have h2 := s.kind.new.hdl_le
  have h3 := s.kind.new.status_le
  rw [(build_record hp hn).1 i _ hi ⟨by omega, by omega⟩, putRecord_apply (hp.records hi (by omega)),
    if_pos rfl]
  exact putHeader_newRec hp hi (by omega)

theorem build_rest (hk : s.kind.ruleSize ≤ k) (hk' : k < s.kind.oldSize) (hne : k ≠ s.kind.oldAtRear) :
    s.build U buf arg m (s.oldRec buf i + k) = 0 := by
  have hb := oldRec_bounds (s := s) (i := i) buf (by omega)
  have h1 : ¬ In buf s.hdr (s.oldRec buf i + k) := by unfold In; omega
  have h2 : In buf s.bufSize (s.oldRec buf i + k) := by unfold In; omega
  rw [(build_record hp hn).1 i _ hi ⟨by omega, by omega⟩, putRecord_apply (hp.records hi (by omega)),
    if_neg (by omega), if_neg (by unfold In; omega), putHeader_outside hp.header h1, if_pos h2]

end

-- ---------------------------------------------------------------------------
-- The copy-back
-- ---------------------------------------------------------------------------

theorem backRecord_apply {newp oldp : Nat} {t : Mem}
    (h : Apart oldp s.kind.oldSize newp s.kind.new.size) :
    s.backRecord newp oldp t a =
      if In (newp + s.kind.new.hdl) 4 a then t (oldp + s.kind.oldHdl + (a - (newp + s.kind.new.hdl)))
      else if In (newp + s.kind.new.status) 4 a then
        t (oldp + s.kind.oldStatus + (a - (newp + s.kind.new.status)))
      else t a := by
  have hf := s.kind.old_fields
  have h2 := s.kind.new.hdl_le
  have h3 := s.kind.new.status_le
  have e1 : Apart (newp + s.kind.new.hdl) 4 (oldp + s.kind.oldHdl) 4 := by unfold Apart at *; omega
  have e2 : Apart (newp + s.kind.new.status) 4 (oldp + s.kind.oldStatus) 4 := by unfold Apart at *; omega
  unfold backRecord
  rw [memCopy_apply _ _ _ _ _ e2, memCopy_apply _ _ _ _ _ e1, memCopy_apply _ _ _ _ _ e1]
  by_cases hs : In (newp + s.kind.new.status) 4 a
  · have hh : ¬ In (newp + s.kind.new.hdl) 4 a := by unfold In at *; omega
    have hsrc : ¬ In (newp + s.kind.new.hdl) 4
        (oldp + s.kind.oldStatus + (a - (newp + s.kind.new.status))) := by unfold In Apart at *; omega
    rw [if_pos hs, if_neg hsrc, if_neg hh, if_pos hs]
  · rw [if_neg hs, if_neg hs]

theorem backRecord_outside {newp oldp : Nat} {t : Mem}
    (h : Apart oldp s.kind.oldSize newp s.kind.new.size) (ha : ¬ In newp s.kind.new.size a) :
    s.backRecord newp oldp t a = t a := by
  have h1 := s.kind.new.hdl_le
  have h2 := s.kind.new.status_le
  rw [backRecord_apply h, if_neg (by unfold In at *; omega), if_neg (by unfold In at *; omega)]

theorem backRecord_congr {newp oldp : Nat} {t t' : Mem}
    (h : Apart oldp s.kind.oldSize newp s.kind.new.size)
    (hold : ∀ k, k < s.kind.oldSize → t (oldp + k) = t' (oldp + k)) (hnew : t a = t' a) :
    s.backRecord newp oldp t a = s.backRecord newp oldp t' a := by
  have hf := s.kind.old_fields
  rw [backRecord_apply h, backRecord_apply h]
  split
  · rename_i hin
    rw [Nat.add_assoc]
    exact hold _ (by unfold In at hin; omega)
  · split
    · rename_i hin
      rw [Nat.add_assoc]
      exact hold _ (by unfold In at hin; omega)
    · exact hnew

def ResultByte (s : AddSpec) (U : Uapi) (m : Mem) (arg a : Nat) : Prop :=
  ∃ i, i < s.numRules U m arg ∧
    (In (s.newRec U m arg i + s.kind.new.hdl) 4 a ∨ In (s.newRec U m arg i + s.kind.new.status) 4 a)

/-- `t` is the memory after the kernel call; `m`, before the translator ran,
fixes how many records there are and where. -/
theorem copyBack_record (hp : s.Placed U buf m arg) (hn : s.numRules U m arg ≤ rtFltMaxTranslateRules)
    (t : Mem) :
    (∀ i a, i < s.numRules U m arg → In (s.newRec U m arg i) s.kind.new.size a →
      s.copyBack buf (s.newRules U m arg) (s.numRules U m arg) t a =
        s.backRecord (s.newRec U m arg i) (s.oldRec buf i) t a) ∧
    ∀ a, ¬ In (s.newRules U m arg) (s.numRules U m arg * s.kind.new.size) a →
      s.copyBack buf (s.newRules U m arg) (s.numRules U m arg) t a = t a := by
  refine forRange_strided _ ?_ ?_
  · intro i u a hi ha
    exact backRecord_outside (hp.records hi (by omega)) ha
  · intro i u hi hagree a ha
    have hb := oldRec_bounds (s := s) (i := i) buf (by omega)
    have hr := hp.rules
    refine backRecord_congr (hp.records hi (by omega)) (fun k hk => ?_) ?_
    · -- the buffer's record is outside the caller's array
      refine hagree _ ?_
      have hle := stride_mono (S := s.kind.new.size) (Nat.le_of_lt hi)
      unfold oldRec at hb
      unfold Apart at hr
      unfold In
      omega
    · refine hagree _ ?_
      unfold In at ha ⊢
      omega

section
variable (hp : s.Placed U buf m arg) (hn : s.numRules U m arg ≤ rtFltMaxTranslateRules) (t : Mem)
include hp hn

theorem copyBack_hdl (hi : i < s.numRules U m arg) :
    Same (s.copyBack buf (s.newRules U m arg) (s.numRules U m arg) t)
      (s.newRec U m arg i + s.kind.new.hdl) t (s.oldRec buf i + s.kind.oldHdl) 4 := by
  intro k hk
  have h1 := s.kind.new.hdl_le
  have h2 := s.kind.new.status_le
  rw [(copyBack_record hp hn t).1 i _ hi ⟨by omega, by omega⟩, backRecord_apply (hp.records hi (by omega)),
    if_pos ⟨by omega, by omega⟩, Nat.add_sub_cancel_left]

theorem copyBack_status (hi : i < s.numRules U m arg) :
    Same (s.copyBack buf (s.newRules U m arg) (s.numRules U m arg) t)
      (s.newRec U m arg i + s.kind.new.status) t (s.oldRec buf i + s.kind.oldStatus) 4 := by
  intro k hk
  have h1 := s.kind.new.hdl_le
  have h2 := s.kind.new.status_le
  rw [(copyBack_record hp hn t).1 i _ hi ⟨by omega, by omega⟩, backRecord_apply (hp.records hi (by omega)),
    if_neg (by unfold In; omega), if_pos ⟨by omega, by omega⟩, Nat.add_sub_cancel_left]

theorem copyBack_elsewhere (ha : ¬ s.ResultByte U m arg a) :
    s.copyBack buf (s.newRules U m arg) (s.numRules U m arg) t a = t a := by
  by_cases hin : ∃ i, i < s.numRules U m arg ∧ In (s.newRec U m arg i) s.kind.new.size a
  · obtain ⟨i, hi, hin⟩ := hin
    have h1 : ¬ In (s.newRec U m arg i + s.kind.new.hdl) 4 a := fun h => ha ⟨i, hi, .inl h⟩
    have h2 : ¬ In (s.newRec U m arg i + s.kind.new.status) 4 a := fun h => ha ⟨i, hi, .inr h⟩
    rw [(copyBack_record hp hn t).1 i a hi hin, backRecord_apply (hp.records hi (by omega)),
      if_neg h1, if_neg h2]
  · exact (copyBack_record hp hn t).2 a fun harr => hin (in_stride harr)

end

end AddSpec

-- ---------------------------------------------------------------------------
-- Whole calls
-- ---------------------------------------------------------------------------

section
variable {σ : Type} {P : Platform σ} {s : AddSpec} {w : World σ} {fd : Int} {request arg : Nat}

theorem rebuilt_call (fd : Int) (request : Nat) (f : Mem → Mem) (g : Int → Mem → Mem) (tag : String)
    (n : Nat) (w : World σ) :
    let x : Proc σ (Option Int) := do
      modifyMem f
      let ret ← sysIoctl P fd request P.buf
      modifyMem (g ret)
      logTranslateIoctl P tag n ret
      return some ret
    let r := P.os.ioctl w.os fd request P.buf (f w.mem)
    (x.run w).1 = some r.1 ∧
    (x.run w).2.silent =
      ⟨g r.1 r.2.1, w.ioctls ++ [⟨fd, request, P.buf, f w.mem, r.1, r.2.1⟩], w.cachedFd, w.cachedIsIpa⟩ :=
  ⟨rfl, logLines_silent _ _⟩

theorem translateAddIoctl_decline (h : s.accepts P.uapi w.mem arg = false) :
    (translateAddIoctl P s fd request arg).run w = (none, w) := by
  unfold translateAddIoctl
  rw [StateT.run_bind, StateT.run_get, pure_bind, if_pos h]
  rfl

def addCall (P : Platform σ) (s : AddSpec) (w : World σ) (fd : Int) (request arg : Nat) : IoctlCall :=
  let m := s.build P.uapi P.buf arg w.mem
  let r := P.os.ioctl w.os fd request P.buf m
  ⟨fd, request, P.buf, m, r.1, r.2.1⟩

theorem translateAddIoctl_accept (fd : Int) (request : Nat) (h : s.accepts P.uapi w.mem arg = true) :
    ((translateAddIoctl P s fd request arg).run w).1 = some (addCall P s w fd request arg).ret ∧
    ((translateAddIoctl P s fd request arg).run w).2.silent =
      ⟨s.copyBack P.buf (s.newRules P.uapi w.mem arg) (s.numRules P.uapi w.mem arg)
          (addCall P s w fd request arg).after,
        w.ioctls ++ [addCall P s w fd request arg], w.cachedFd, w.cachedIsIpa⟩ := by
  have hne : ¬ s.accepts P.uapi w.mem arg = false := by simp [h]
  have hrun := rebuilt_call (P := P) fd request (s.build P.uapi P.buf arg)
    (fun _ => s.copyBack P.buf (s.newRules P.uapi w.mem arg) (s.numRules P.uapi w.mem arg))
    s.tag (s.numRules P.uapi w.mem arg) w
  unfold translateAddIoctl
  rw [StateT.run_bind, StateT.run_get, pure_bind, if_neg hne]
  exact hrun

end

end IpaOffload.Bridge
