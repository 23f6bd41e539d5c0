import IpaOffload.Ioss.Iova

/-!
# What the preflight lets pass

The preflight compares the start of each buffer with the ceiling and both its
ends with the ring. It compares neither the end of a buffer nor any of the ring
with the ceiling, and it computes ends in `dma_addr_t`, where the end of the
address space is 0. A description that passes is fit for IPA exactly when it is
none of the cases that are so `Overlooked`.
-/

namespace IpaOffload.Ioss

variable {w : Nat} {p : IpaParams} {pi : PipeInfo w}

def PipeInfo.buffs (pi : PipeInfo w) : List (BuffMap w) :=
  (pi.dataBuffList.elim [] (·.entries)).take pi.dataBuffListSize.toNat

-- ---------------------------------------------------------------------------
-- What is checked
-- ---------------------------------------------------------------------------

structure BuffChecked (p : IpaParams) (pi : PipeInfo w) (b : BuffMap w) : Prop where
  iova : b.iova ≠ 0
  pa : b.pa ≠ 0
  ceiling : b.iova ≤ dmaAddr w p.iovaCeiling
  ring : b.iova + dmaAddr w pi.fixBufferSize ≤ pi.transferRingBase ∨
    pi.transferRingBase + dmaAddr w pi.transferRingSize ≤ b.iova

theorem preflightBuffers_none {bs : List (BuffMap w)} (h : preflightBuffers p pi bs = none) :
    ∀ b ∈ bs, BuffChecked p pi b := by
  induction bs with
  | nil => simp
  | cons b bs ih =>
    simp only [preflightBuffers, ite_eq_iff, reduceCtorEq, and_false, false_or] at h
    obtain ⟨haddr, hceiling, hring, hrest⟩ := h
    obtain ⟨hiova, hpa⟩ := not_or.mp haddr
    rintro x (_ | ⟨_, hx⟩)
    · exact ⟨hiova, hpa, BitVec.not_lt.mp hceiling, not_not.mp hring⟩
    · exact ih hrest x hx

/-- What the preflight checks of a description, but for the alignment. -/
structure PipeChecked (p : IpaParams) (pi : PipeInfo w) : Prop where
  base : pi.transferRingBase ≠ 0
  size : pi.transferRingSize ≠ 0
  buffSize : pi.fixBufferSize ≠ 0
  buffs : ∀ b ∈ pi.buffs, BuffChecked p pi b

theorem iossIpaPreflightPipe_none (h : iossIpaPreflightPipe p pi = none) : PipeChecked p pi := by
  unfold iossIpaPreflightPipe at h
  simp only [ite_eq_iff, reduceCtorEq, and_false, false_or, not_or] at h
  obtain ⟨-, ⟨hbase, hsize⟩, hlist⟩ := h
  cases hl : pi.dataBuffList with
  | none => simp [hl] at hlist
  | some list =>
    simp only [hl, ite_eq_iff, reduceCtorEq, and_false, false_or, not_or, Option.or_eq_none_iff] at hlist
    obtain ⟨⟨-, hbuff⟩, hnone, -⟩ := hlist
    have hbuffs : pi.buffs = list.entries.take pi.dataBuffListSize.toNat := by
      unfold PipeInfo.buffs
      rw [hl, Option.elim_some]
    exact ⟨hbase, hsize, hbuff, hbuffs ▸ preflightBuffers_none hnone⟩

-- ---------------------------------------------------------------------------
-- What IPA needs
-- ---------------------------------------------------------------------------

def Under (p : IpaParams) (a : BitVec w) (n : UInt32) : Prop :=
  a.toNat + n.toNat ≤ (dmaAddr w p.iovaCeiling).toNat + 1

structure Sound (p : IpaParams) (pi : PipeInfo w) : Prop where
  ring : Under p pi.transferRingBase pi.transferRingSize
  buffs : ∀ b ∈ pi.buffs, Under p b.iova pi.fixBufferSize
  apart : ∀ b ∈ pi.buffs,
    Apart b.iova.toNat pi.fixBufferSize.toNat pi.transferRingBase.toNat pi.transferRingSize.toNat
  addresses : ∀ b ∈ pi.buffs, b.iova ≠ 0 ∧ b.pa ≠ 0

instance {w : Nat} {a : BitVec w} {n : UInt32} : Decidable (Under p a n) := inferInstanceAs (Decidable (_ ≤ _))

-- ---------------------------------------------------------------------------
-- What is overlooked
-- ---------------------------------------------------------------------------

/-- The `n` bytes at `a` are the last ones there are, so that their end is
computed as 0. -/
def AtTop (a : BitVec w) (n : UInt32) : Prop := a.toNat + n.toNat = 2 ^ w

/-- What the preflight overlooks: a ring that reaches past the ceiling, a buffer
that begins below the ceiling and reaches past it, and a ring and a buffer that
meet where the address space ends. -/
inductive Overlooked (p : IpaParams) (pi : PipeInfo w) : Prop
  | ring (h : (dmaAddr w p.iovaCeiling).toNat + 1 < pi.transferRingBase.toNat + pi.transferRingSize.toNat)
  | straddles (b : BuffMap w) (hb : b ∈ pi.buffs) (hstart : b.iova ≤ dmaAddr w p.iovaCeiling)
      (h : (dmaAddr w p.iovaCeiling).toNat + 1 < b.iova.toNat + pi.fixBufferSize.toNat)
  | ringAtTop (b : BuffMap w) (hb : b ∈ pi.buffs) (htop : AtTop pi.transferRingBase pi.transferRingSize)
      (h : pi.transferRingBase.toNat < b.iova.toNat + pi.fixBufferSize.toNat)
  | buffAtTop (b : BuffMap w) (hb : b ∈ pi.buffs) (htop : AtTop b.iova pi.fixBufferSize)
      (h : b.iova.toNat < pi.transferRingBase.toNat + pi.transferRingSize.toNat)

/-- The end of a range is computed right unless it wraps. -/
theorem toNat_add_dmaAddr {a : BitVec w} {n : UInt32} (h : a.toNat + n.toNat < 2 ^ w) :
    (a + dmaAddr w n).toNat = a.toNat + n.toNat := by
  have hn : n.toNat < 2 ^ w := Nat.lt_of_le_of_lt (Nat.le_add_left _ _) h
  rw [dmaAddr, BitVec.toNat_add, BitVec.toNat_ofNat, Nat.mod_eq_of_lt hn, Nat.mod_eq_of_lt h]

theorem Under.lt_top {a : BitVec w} {n : UInt32} (h : Under p a n) (htop : ¬ AtTop a n) :
    a.toNat + n.toNat < 2 ^ w := by
  have hc := (dmaAddr w p.iovaCeiling).isLt
  unfold Under at h
  unfold AtTop at htop
  omega

theorem BuffChecked.apart {b : BuffMap w} (h : BuffChecked p pi b)
    (hring : pi.transferRingBase.toNat + pi.transferRingSize.toNat < 2 ^ w)
    (hbuff : b.iova.toNat + pi.fixBufferSize.toNat < 2 ^ w) :
    Apart b.iova.toNat pi.fixBufferSize.toNat pi.transferRingBase.toNat pi.transferRingSize.toNat := by
  have hcheck := h.ring
  rw [BitVec.le_def, BitVec.le_def, toNat_add_dmaAddr hring, toNat_add_dmaAddr hbuff] at hcheck
  exact .inr (.inr hcheck)

theorem Overlooked.not_sound (hchecked : PipeChecked p pi) (h : Overlooked p pi) : ¬ Sound p pi := by
  have hsize : 0 < pi.transferRingSize.toNat := UInt32.pos_iff_ne_zero.mpr hchecked.size
  have hbuff : 0 < pi.fixBufferSize.toNat := UInt32.pos_iff_ne_zero.mpr hchecked.buffSize
  intro hs
  cases h with
  | ring hpast => exact Nat.not_lt.mpr hs.ring hpast
  | straddles b hb _ hpast => exact Nat.not_lt.mpr (hs.buffs b hb) hpast
  | ringAtTop b hb htop hmeet =>
    have hlt := b.iova.isLt
    have hapart := hs.apart b hb
    unfold Apart at hapart
    unfold AtTop at htop
    omega
  | buffAtTop b hb htop hmeet =>
    have hlt := pi.transferRingBase.isLt
    have hapart := hs.apart b hb
    unfold Apart at hapart
    unfold AtTop at htop
    omega

/-- A description that passes the preflight is fit for IPA exactly when nothing
in it is overlooked. -/
theorem preflight_sound_iff {w : Nat} (p : IpaParams) (pi : PipeInfo w)
    (hpass : iossIpaPreflightPipe p pi = none) : Sound p pi ↔ ¬ Overlooked p pi := by
  have hchecked := iossIpaPreflightPipe_none hpass
  constructor
  · exact fun hs hbad => hbad.not_sound hchecked hs
  · intro hnot
    have hring : Under p pi.transferRingBase pi.transferRingSize := Nat.not_lt.mp fun h => hnot (.ring h)
    have hbuffs : ∀ b ∈ pi.buffs, Under p b.iova pi.fixBufferSize := fun b hb =>
      Nat.not_lt.mp fun h => hnot (.straddles b hb (hchecked.buffs b hb).ceiling h)
    refine ⟨hring, hbuffs, fun b hb => ?_, fun b hb => ⟨(hchecked.buffs b hb).iova, (hchecked.buffs b hb).pa⟩⟩
    by_cases hrtop : AtTop pi.transferRingBase pi.transferRingSize
    · exact .inr (.inr (.inl (Nat.not_lt.mp fun h => hnot (.ringAtTop b hb hrtop h))))
    by_cases hbtop : AtTop b.iova pi.fixBufferSize
    · exact .inr (.inr (.inr (Nat.not_lt.mp fun h => hnot (.buffAtTop b hb hbtop h))))
    · exact (hchecked.buffs b hb).apart (hring.lt_top hrtop) ((hbuffs b hb).lt_top hbtop)

-- ---------------------------------------------------------------------------
-- A buffer across the ceiling
-- ---------------------------------------------------------------------------

def oneBuffPipe (base iova : BitVec 32) : PipeInfo 32 where
  isTransferRingValid := true
  transferRingBase := base
  transferRingSize := 4096
  dataBuffList := some { id := 0, entries := [{ iova, pa := 0x81000000 }] }
  dataBuffListSize := 1
  fixBufferSize := 4096

theorem preflight_sound_iff_low :
    iossIpaPreflightPipe {} (oneBuffPipe 0x10000 0x20000) = none ∧
      (Sound {} (oneBuffPipe 0x10000 0x20000) ↔ ¬ Overlooked {} (oneBuffPipe 0x10000 0x20000)) :=
  ⟨by decide, preflight_sound_iff {} (oneBuffPipe 0x10000 0x20000) (by decide)⟩

/-- The buffer begins below the ceiling and ends above it; and a ring far above
the ceiling passes too. -/
theorem preflight_passes_above_ceiling :
    iossIpaPreflightPipe {} (oneBuffPipe 0x10000 0x9ffff800) = none ∧
      ¬ Sound {} (oneBuffPipe 0x10000 0x9ffff800) ∧
      iossIpaPreflightPipe {} (oneBuffPipe 0xffff8000 0x20000) = none ∧
      ¬ Sound {} (oneBuffPipe 0xffff8000 0x20000) := by
  have hbuff : ¬ Under {} (0x9ffff800 : BitVec 32) 4096 := by decide
  have hring : ¬ Under {} (0xffff8000 : BitVec 32) 4096 := by decide
  refine ⟨by decide, fun hs => hbuff ?_, by decide, fun hs => hring hs.ring⟩
  exact hs.buffs { iova := 0x9ffff800, pa := 0x81000000 } (by decide)

end IpaOffload.Ioss
