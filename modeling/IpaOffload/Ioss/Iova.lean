import IpaOffload.Ioss.IpaLaws

/-!
# Do the remapped addresses stay apart

The addresses IPA is given are the DMA addresses, those above the ceiling cut
down to the bits of the ceiling. Ranges that were apart stay apart unless two
of them, one at least above the ceiling, agree in those bits, or a buffer is
handed over as longer than it is.
-/

namespace IpaOffload.Ioss

open DeviceTree Fallible

variable {w : Nat}

def Apart (a n b m : Nat) : Prop := n = 0 ∨ m = 0 ∨ a + n ≤ b ∨ b + m ≤ a

instance : Decidable (Apart a n b m) := inferInstanceAs (Decidable (_ ∨ _ ∨ _ ∨ _))

theorem Apart.mono (h : Apart a n b m) (hn : n' ≤ n) (hm : m' ≤ m) : Apart a n' b m' := by
  unfold Apart at *
  omega

/-- Memory of a channel that IPA is told of: `size` bytes at `daddr`, handed over
as `length` bytes. -/
structure Region (w : Nat) where
  daddr : BitVec w
  size : Nat
  pa : Nat
  length : Nat

def IpaChannel.regions (m : Platform w) (ch : IpaChannel w) : List (Region w) :=
  (ch.descMem.head?.toList.map fun desc =>
    { daddr := desc.daddr, size := desc.size, pa := ch.descPa desc, length := (UInt32.ofNat desc.size).toNat }) ++
  ch.buffMem.map fun mem =>
    { daddr := mem.daddr, size := mem.size, pa := buffPaOf m ch mem, length := ch.buffSize.toNat }

def PipeInfo.ranges (pi : PipeInfo w) : List (BitVec w × Nat) :=
  (pi.transferRingBase, pi.transferRingSize.toNat) ::
    (pi.dataBuffList.elim [] (·.entries)).map fun b => (b.iova, pi.fixBufferSize.toNat)

def DmaApart (x y : Region w) : Prop := Apart x.daddr.toNat x.size y.daddr.toNat y.size

def IovaApart (x y : BitVec w × Nat) : Prop := Apart x.1.toNat x.2 y.1.toNat y.2

instance : Decidable (DmaApart x y : Prop) := inferInstanceAs (Decidable (Apart _ _ _ _))

instance : Decidable (IovaApart x y : Prop) := inferInstanceAs (Decidable (Apart _ _ _ _))

variable (p : IpaParams)

/-- Its address does not fit under the ceiling, or it is handed over as longer
than it is. -/
def Region.Exposed (x : Region w) : Prop := x.daddr > dmaAddr w p.iovaCeiling ∨ x.size < x.length

instance (x : Region w) : Decidable (x.Exposed p) := inferInstanceAs (Decidable (_ ∨ _))

/-- The bits of the address that are in the ceiling, for an address above it;
the physical address where there are none. -/
def Region.cut (x : Region w) : BitVec w :=
  if x.daddr ≤ dmaAddr w p.iovaCeiling then x.daddr
  else if x.daddr &&& dmaAddr w p.iovaCeiling = 0 then BitVec.ofNat w x.pa
  else x.daddr &&& dmaAddr w p.iovaCeiling

def CutApart (x y : Region w) : Prop :=
  x.Exposed p ∨ y.Exposed p → Apart (x.cut p).toNat x.length (y.cut p).toNat y.length

instance (x y : Region w) : Decidable (CutApart p x y) := inferInstanceAs (Decidable (_ ∨ _ → _))

variable {p}

theorem and_le_right (a b : BitVec w) : a &&& b ≤ b := by
  rw [BitVec.le_def, BitVec.toNat_and]
  exact Nat.and_le_right

theorem remapIova_eq_cut {x : Region w} (h : remapIova p x.daddr x.pa ≤ dmaAddr w p.iovaCeiling) :
    remapIova p x.daddr x.pa = x.cut p := by
  unfold remapIova Region.cut at *
  by_cases hle : x.daddr ≤ dmaAddr w p.iovaCeiling
  · have hngt : ¬ x.daddr > dmaAddr w p.iovaCeiling := BitVec.not_lt.mpr hle
    simp only [hngt, and_false, if_false, hle, if_true]
  · have hgt : x.daddr > dmaAddr w p.iovaCeiling := BitVec.not_le.mp hle
    cases hfix : p.fixHighIova with
    | false =>
      simp only [hfix, Bool.false_eq_true, false_and, if_false] at h
      exact absurd h hle
    | true =>
      have hand : ¬ x.daddr &&& dmaAddr w p.iovaCeiling > dmaAddr w p.iovaCeiling :=
        BitVec.not_lt.mpr (and_le_right _ _)
      simp only [hgt, hle, hand, true_and, or_false, if_true, if_false]

theorem ranges_of_describes {m : Platform w} {ch : IpaChannel w} {pi : PipeInfo w} (h : Describes p m ch pi) :
    pi.ranges = (ch.regions m).map fun x => (x.cut p, x.length) := by
  obtain ⟨desc, id, pi, hb⟩ := h
  have hcut := remapIova_eq_cut (x := ⟨desc.daddr, desc.size, ch.descPa desc, (UInt32.ofNat desc.size).toNat⟩)
    hb.descIova
  unfold PipeInfo.ranges IpaChannel.regions describe
  rw [hb.head, Option.toList_some, List.map_append]
  simp only [Option.elim_some, List.map_cons, List.map_nil, List.map_map, List.cons_append, List.nil_append,
    List.cons.injEq]
  refine ⟨by rw [← hcut], List.map_congr_left fun mem hmem => ?_⟩
  have hcut' := remapIova_eq_cut (x := ⟨mem.daddr, mem.size, buffPaOf m ch mem, ch.buffSize.toNat⟩)
    (hb.buffs mem hmem).iova
  simp only [Function.comp, entryOf, Prod.mk.injEq, and_true]
  exact hcut'

theorem ranges_of_describes_all {m : Platform w} {chs : List (IpaChannel w)} {pipes : List (PipeInfo w)}
    (h : List.Forall₂ (Describes p m) chs pipes) :
    pipes.flatMap PipeInfo.ranges = (chs.flatMap (IpaChannel.regions m)).map fun x => (x.cut p, x.length) := by
  induction h with
  | nil => rfl
  | cons hd _ ih => rw [List.flatMap_cons, List.flatMap_cons, List.map_append, ih, ranges_of_describes hd]

theorem cut_apart_of_not_exposed {x y : Region w} (h : DmaApart x y) (hx : ¬ x.Exposed p) (hy : ¬ y.Exposed p) :
    Apart (x.cut p).toNat x.length (y.cut p).toNat y.length := by
  unfold Region.Exposed at hx hy
  rw [not_or] at hx hy
  have hcx : x.cut p = x.daddr := if_pos (BitVec.not_lt.mp hx.1)
  have hcy : y.cut p = y.daddr := if_pos (BitVec.not_lt.mp hy.1)
  rw [hcx, hcy]
  exact Apart.mono h (Nat.le_of_not_lt hx.2) (Nat.le_of_not_lt hy.2)

/-- The ranges IPA is given are apart exactly when no two regions meet in the
bits of the ceiling. -/
theorem iova_ranges_apart_iff {w : Nat} (p : IpaParams) (m : Platform w) (chs : List (IpaChannel w))
    (s s' : IpaState w) (r : Except Errno Unit) (pipes : List (PipeInfo w))
    (hlen : s.pipes.length = chs.length) (hnone : s.connected = none)
    (hdma : (chs.flatMap (IpaChannel.regions m)).Pairwise DmaApart)
    (hreg : exec (iossIpaRegister p m chs) s = (r, s')) (hconn : s'.connected = some pipes) :
    (pipes.flatMap PipeInfo.ranges).Pairwise IovaApart ↔
      (chs.flatMap (IpaChannel.regions m)).Pairwise (CutApart p) := by
  have hdesc := iossIpaRegister_connected hlen hnone hreg hconn
  rw [ranges_of_describes_all hdesc, List.pairwise_map]
  constructor
  · intro h
    refine h.imp ?_
    intro x y hxy _
    exact hxy
  · intro h
    refine (hdma.and h).imp ?_
    rintro x y ⟨hd, hcut⟩
    by_cases hexp : x.Exposed p ∨ y.Exposed p
    · exact hcut hexp
    · rw [not_or] at hexp
      exact cut_apart_of_not_exposed hd hexp.1 hexp.2

-- ---------------------------------------------------------------------------
-- Two rings
-- ---------------------------------------------------------------------------

def plainPlatform : Platform 32 where
  longBits := 32
  pageOffset := 0xc0000000
  virtToPhys addr := addr - 0x40000000
  kcalloc _ := true
  ctype := true
  halFillSi _ := true
  connPipes _ := true
  voteBw := true
  regIntf := true

def ringChannel (direction : Direction) (ring buff : BitVec 32) : IpaChannel 32 where
  direction := direction
  ringSize := 1
  buffSize := 2048
  descPa _ := 0x80000000
  buffPa _ := 0x81000000
  descMem := [{ addr := 0, size := 32, daddr := ring }]
  buffMem := [{ addr := 0, size := 2048, daddr := buff }]

def mixedChannels : List (IpaChannel 32) :=
  [ringChannel .rx 0x10000 0xff200000, ringChannel .tx 0xff938000 0x28000]

/-- The two rings differ in bit 29 only, which the ceiling does not have. -/
def highChannels : List (IpaChannel 32) :=
  [ringChannel .rx 0xff930000 0xff200000, ringChannel .tx 0xdf930000 0xdf100000]

def unregistered : IpaState 32 := { pipes := [{}, {}] }

theorem iova_ranges_apart_iff_remapped :
    ∃ pipes, (exec (iossIpaRegister {} plainPlatform mixedChannels) unregistered).2.connected = some pipes ∧
      pipes.map PipeInfo.transferRingBase = [0x10000, 0x9f938000] ∧
      (pipes.flatMap PipeInfo.ranges).Pairwise IovaApart :=
  ⟨_, rfl, rfl, (iova_ranges_apart_iff {} plainPlatform mixedChannels unregistered _ _ _ rfl rfl
    (by decide +kernel) rfl rfl).mpr (by decide +kernel)⟩

/-- The rings are apart, the strict preflight lets them pass, and IPA is given
the same address for both. -/
theorem rings_share_iova :
    (highChannels.flatMap (IpaChannel.regions plainPlatform)).Pairwise DmaApart ∧
      (exec (iossIpaRegister {} plainPlatform highChannels) unregistered).2.connected.map
        (·.map (·.transferRingBase)) = some [0x9f930000, 0x9f930000] ∧
      ¬ ((exec (iossIpaRegister {} plainPlatform highChannels) unregistered).2.connected.elim [] fun pipes =>
        pipes.flatMap PipeInfo.ranges).Pairwise IovaApart := by
  decide +kernel

end IpaOffload.Ioss
