import IpaOffload.Ioss.RingMem

/-!
# The parts of a ring's memory

What the device reads and writes of a ring, and where it lies: the descriptors
and the buffers are parts of the ring's own blocks that do not overlap, unless
the size of a block has wrapped around.
-/

namespace IpaOffload.Ioss

open Function

def DmaBlock.Within (p b : DmaBlock) : Prop := b.daddr ≤ p.daddr ∧ p.daddr + p.size ≤ b.daddr + b.size

theorem DmaBlock.Apart.within {b c p q : DmaBlock} (h : b.Apart c) (hp : p.Within b) (hq : q.Within c) : p.Apart q := by
  unfold Apart Within at *
  omega

inductive CutInto : List DmaBlock → List DmaBlock → Prop
  | nil : CutInto [] []
  | cons {b : DmaBlock} {parts bs rest : List DmaBlock} (hwithin : ∀ p ∈ parts, p.Within b)
      (hapart : parts.Pairwise DmaBlock.Apart) (h : CutInto bs rest) : CutInto (b :: bs) (parts ++ rest)

theorem CutInto.refl (bs : List DmaBlock) : CutInto bs bs := by
  induction bs with
  | nil => exact .nil
  | cons b bs ih =>
    have hparts : ∀ p ∈ [b], p.Within b := by simp [DmaBlock.Within]
    exact .cons hparts (List.pairwise_singleton _ _) ih

theorem CutInto.append {bs cs ps qs : List DmaBlock} (h : CutInto bs ps) (h' : CutInto cs qs) :
    CutInto (bs ++ cs) (ps ++ qs) := by
  induction h with
  | nil => exact h'
  | cons hwithin hapart _ ih =>
    rw [List.append_assoc]
    exact .cons hwithin hapart ih

theorem CutInto.within {bs ps : List DmaBlock} (h : CutInto bs ps) {p : DmaBlock} (hp : p ∈ ps) :
    ∃ b ∈ bs, p.Within b := by
  induction h with
  | nil => cases hp
  | cons hwithin _ _ ih =>
    rcases List.mem_append.mp hp with hp | hp
    · exact ⟨_, by simp, hwithin p hp⟩
    · obtain ⟨c, hc, hin⟩ := ih hp
      exact ⟨c, by simp [hc], hin⟩

/-- Parts of blocks that do not overlap do not overlap. -/
theorem CutInto.apart {bs ps : List DmaBlock} (h : CutInto bs ps) (hbs : bs.Pairwise DmaBlock.Apart) :
    ps.Pairwise DmaBlock.Apart := by
  induction h with
  | nil => exact .nil
  | cons hwithin hapart hrest ih =>
    obtain ⟨hhead, htail⟩ := List.pairwise_cons.mp hbs
    refine List.pairwise_append.mpr ⟨hapart, ih htail, fun p hp q hq => ?_⟩
    obtain ⟨c, hc, hin⟩ := hrest.within hq
    exact (hhead c hc).within (hwithin p hp) hin

def RingBuf.region (buf : RingBuf) : DmaBlock where
  addr := buf.addr.getD 0
  daddr := buf.dma
  size := buf.size

/-- What the device reads and writes of a ring: the descriptors and the buffers
that they are filled with. -/
def RingMem.regions (ring : RingMem) : List DmaBlock :=
  blockAt ring.descSize ring.descAddr ring.descDaddr ++ (ring.bufs.getD []).map RingBuf.region

def RingMem.Fits (ring : RingMem) : Prop := ring.contig = true → ring.ringSize * ring.buffSize < 2 ^ 32

theorem bufsBlocks_ready {buffSize : Nat} {bufs : List RingBuf} (h : ∀ buf ∈ bufs, buf.Ready buffSize) :
    bufsBlocks bufs = bufs.map RingBuf.region := by
  induction bufs with
  | nil => rfl
  | cons buf bufs ih =>
    obtain ⟨addr, haddr⟩ := Option.ne_none_iff_exists'.mp (h buf (by simp)).1
    have htail := ih fun buf' hmem => h buf' (by simp [hmem])
    simp [bufsBlocks, blockAt, RingBuf.region, haddr, htail]

theorem contigRingBufs_within (addr daddr ringSize buffSize : Nat) :
    ∀ p ∈ (contigRingBufs addr daddr ringSize buffSize).map RingBuf.region,
      p.Within { addr, daddr, size := ringSize * buffSize } := by
  intro p hp
  simp only [contigRingBufs, List.map_map, List.mem_map, List.mem_range] at hp
  obtain ⟨i, hi, rfl⟩ := hp
  have hle : (i + 1) * buffSize ≤ ringSize * buffSize := Nat.mul_le_mul_right _ hi
  rw [Nat.add_mul] at hle
  simp only [DmaBlock.Within, comp, RingBuf.region]
  omega

theorem contigRingBufs_apart (addr daddr ringSize buffSize : Nat) :
    ((contigRingBufs addr daddr ringSize buffSize).map RingBuf.region).Pairwise DmaBlock.Apart := by
  rw [contigRingBufs, List.map_map, List.pairwise_map]
  refine List.pairwise_lt_range.imp fun {i j} hij => ?_
  have hle : (i + 1) * buffSize ≤ j * buffSize := Nat.mul_le_mul_right _ hij
  rw [Nat.add_mul] at hle
  simp only [DmaBlock.Apart, comp, RingBuf.region]
  omega

theorem RingMem.Listed.cutInto {ring : RingMem} (h : ring.Listed) (hfits : ring.Fits) :
    CutInto ring.blocks ring.regions := by
  refine (CutInto.refl _).append ?_
  unfold RingMem.bufBlocks
  cases hcontig : ring.contig with
  | true =>
    obtain ⟨hsize, addr, daddr, hbufs⟩ := h.contig hcontig
    obtain ⟨bufs, hhead⟩ := contigRingBufs_head addr daddr ring.buffSize hsize
    have hmul : mul32 ring.ringSize ring.buffSize = ring.ringSize * ring.buffSize := Nat.mod_eq_of_lt (hfits hcontig)
    have hparts := CutInto.cons (contigRingBufs_within addr daddr ring.ringSize ring.buffSize)
      (contigRingBufs_apart addr daddr ring.ringSize ring.buffSize) .nil
    rw [List.append_nil] at hparts
    simpa [hbufs, hhead, blockAt, hmul] using hparts
  | false =>
    obtain ⟨bufs, hbufs, -, hready⟩ := h.single hcontig
    simpa [hbufs, bufsBlocks_ready hready] using CutInto.refl _

/-- The ring has the memory of its descriptors and of all its buffers: these are
parts of its blocks. -/
structure RingMem.Holds (ring : RingMem) (descLength : Nat) : Prop where
  descs : ring.descSize = ring.ringSize * descLength
  parts : CutInto ring.blocks ring.regions

theorem RingMem.Empty.regions {ring : RingMem} (h : ring.Empty) : ring.regions = [] := by
  simp [RingMem.regions, blockAt, h.desc, h.bufs]

end IpaOffload.Ioss
