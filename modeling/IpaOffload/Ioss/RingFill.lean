import IpaOffload.Ioss.RingRuns
import Mathlib.Data.Nat.Bitwise

/-!
# The descriptors of a ring

The descriptors are filled when a ring is requested and again whenever the
interface comes up. The device goes through them from the first one on and
starts over at the one marked as the end of the ring; to each it writes a
status of its own, which keeps that mark.
-/

namespace IpaOffload.Ioss

open Runs Function

/-- `struct TxDesc`, `struct RxDesc` or `struct RxDescV3`: what they have in common. -/
structure RingDesc where
  addr : Nat := 0
  opts1 : BitVec 32 := 0

def descOwn : BitVec 32 := BitVec.twoPow 32 31

def ringEnd : BitVec 32 := BitVec.twoPow 32 30

def RingDesc.last (desc : RingDesc) : Bool := desc.opts1.getLsbD 30

abbrev DescMem := Nat → RingDesc

def fillFrom (f : Nat → RingBuf → RingDesc → RingDesc) (i : Nat) : List RingBuf → DescMem → DescMem
  | [], descs => descs
  | buf :: bufs, descs => fillFrom f (i + 1) bufs (update descs i (f i buf (descs i)))

def rtl8125LibTxFill (bufs : List RingBuf) (descs : DescMem) : DescMem :=
  let fill (i : Nat) (buf : RingBuf) (desc : RingDesc) : RingDesc :=
    let desc := { desc with addr := buf.dma }
    if i = bufs.length - 1 then { desc with opts1 := ringEnd } else desc
  fillFrom fill 0 bufs descs

def rtl8125MarkToAsic (desc : RingDesc) (rxBufSz : Nat) : RingDesc :=
  { desc with opts1 := descOwn ||| (desc.opts1 &&& ringEnd) ||| BitVec.ofNat 32 rxBufSz }

/-- `rtl8125_map_to_asic`. The address it stores in the buffer is the buffer's own. -/
def rtl8125MapToAsic (desc : RingDesc) (mapping rxBufSz : Nat) : RingDesc :=
  rtl8125MarkToAsic { desc with addr := mapping } rxBufSz

def rtl8125MarkAsLastDescriptor (desc : RingDesc) : RingDesc := { desc with opts1 := desc.opts1 ||| ringEnd }

def rtl8125LibRxFill (buffSize : Nat) (bufs : List RingBuf) (descs : DescMem) : DescMem :=
  let descs := fillFrom (fun _ buf desc => rtl8125MapToAsic desc buf.dma buffSize) 0 bufs descs
  update descs (bufs.length - 1) (rtl8125MarkAsLastDescriptor (descs (bufs.length - 1)))

def ringFill (dir : RingDir) (buffSize : Nat) (bufs : List RingBuf) (descs : DescMem) : DescMem :=
  match dir with
  | .tx => rtl8125LibTxFill bufs descs
  | .rx => rtl8125LibRxFill buffSize bufs descs

-- ---------------------------------------------------------------------------
-- The device
-- ---------------------------------------------------------------------------

structure RingWalk where
  descs : DescMem
  pos : Nat

inductive WalkAction
  /-- `rtl8125_init_tx_ring` or `rtl8125_init_rx_ring`, which also tells the device
  where the ring starts. -/
  | init
  /-- The device is done with a descriptor. -/
  | done (status : BitVec 32)

def RingWalk.step (dir : RingDir) (buffSize : Nat) (bufs : List RingBuf) (s : RingWalk) : WalkAction → RingWalk
  | .init => { descs := ringFill dir buffSize bufs s.descs, pos := 0 }
  | .done status =>
    let desc := s.descs s.pos
    { descs := update s.descs s.pos { desc with opts1 := (status &&& ~~~ringEnd) ||| (desc.opts1 &&& ringEnd) }
      pos := if desc.last then 0 else s.pos + 1 }

def RingWalk.new (dir : RingDir) (buffSize : Nat) (bufs : List RingBuf) : RingWalk where
  descs := ringFill dir buffSize bufs fun _ => {}
  pos := 0

/-- How many descriptors the device is done with since the ring was filled. -/
def WalkAction.count (k : Nat) : WalkAction → Nat
  | .init => 0
  | .done _ => k + 1

-- ---------------------------------------------------------------------------
-- What is filled in
-- ---------------------------------------------------------------------------

theorem fillFrom_below (f : Nat → RingBuf → RingDesc → RingDesc) (bufs : List RingBuf) {i j : Nat} (descs : DescMem)
    (h : j < i) : fillFrom f i bufs descs j = descs j := by
  induction bufs generalizing i descs with
  | nil => rfl
  | cons buf bufs ih =>
    rw [fillFrom, ih _ (Nat.lt_succ_of_lt h), update_of_ne (Nat.ne_of_lt h)]

theorem fillFrom_get (f : Nat → RingBuf → RingDesc → RingDesc) {bufs : List RingBuf} (i : Nat) (descs : DescMem)
    {j : Nat} {buf : RingBuf} (h : bufs[j]? = some buf) :
    fillFrom f i bufs descs (i + j) = f (i + j) buf (descs (i + j)) := by
  induction bufs generalizing i j descs with
  | nil => simp at h
  | cons first bufs ih =>
    rw [fillFrom]
    cases j with
    | zero =>
      obtain rfl : first = buf := by simpa using h
      exact (fillFrom_below f bufs _ (Nat.lt_add_one i)).trans (update_self _ _ _)
    | succ j =>
      have hne : i + 1 + j ≠ i := by omega
      rw [show i + (j + 1) = i + 1 + j by omega, ih (i + 1) _ (by simpa using h), update_of_ne hne]

/-- Only the last descriptor may be marked as the end before the ring is filled. -/
def EndsLate (n : Nat) (descs : DescMem) : Prop := ∀ i, i < n - 1 → (descs i).last = false

structure Laid (bufs : List RingBuf) (descs : DescMem) : Prop where
  addr : ∀ i buf, bufs[i]? = some buf → (descs i).addr = buf.dma
  last : ∀ i, i < bufs.length → (descs i).last = decide (i = bufs.length - 1)

theorem Laid.endsLate {bufs : List RingBuf} {descs : DescMem} (h : Laid bufs descs) : EndsLate bufs.length descs := by
  intro i hi
  rw [h.last i (by omega)]
  simpa using Nat.ne_of_lt hi

theorem txFill_laid {bufs : List RingBuf} {descs : DescMem} (h : EndsLate bufs.length descs) :
    Laid bufs (rtl8125LibTxFill bufs descs) := by
  have hget : ∀ i buf, bufs[i]? = some buf → _ := fun i buf hi => fillFrom_get
    (fun i buf desc => if i = bufs.length - 1 then { desc with addr := buf.dma, opts1 := ringEnd }
      else { desc with addr := buf.dma }) 0 descs hi
  simp only [Nat.zero_add] at hget
  constructor
  · intro i buf hi
    rw [rtl8125LibTxFill, hget i buf hi]
    split <;> rfl
  · intro i hi
    rw [rtl8125LibTxFill, hget i bufs[i] (by simp [hi])]
    by_cases hlast : i = bufs.length - 1
    · rw [if_pos hlast, decide_eq_true hlast]
      simp [RingDesc.last, ringEnd]
    · rw [if_neg hlast, decide_eq_false hlast]
      exact h i (by omega)

theorem mapToAsic_last (desc : RingDesc) (mapping rxBufSz : Nat) :
    (rtl8125MapToAsic desc mapping rxBufSz).last = (desc.last || rxBufSz.testBit 30) := by
  have hsize : (BitVec.ofNat 32 rxBufSz).getLsbD 30 = rxBufSz.testBit 30 := by
    rw [BitVec.getLsbD_ofNat]
    rfl
  simp only [rtl8125MapToAsic, rtl8125MarkToAsic, RingDesc.last, BitVec.getLsbD_or, BitVec.getLsbD_and, hsize]
  simp [descOwn, ringEnd]

theorem markAsLast_last (desc : RingDesc) : (rtl8125MarkAsLastDescriptor desc).last = true := by
  simp [rtl8125MarkAsLastDescriptor, RingDesc.last, ringEnd]

theorem rxFill_get {buffSize : Nat} {bufs : List RingBuf} (descs : DescMem) {i : Nat} {buf : RingBuf}
    (h : bufs[i]? = some buf) :
    (rtl8125LibRxFill buffSize bufs descs i).addr = buf.dma ∧
      (rtl8125LibRxFill buffSize bufs descs i).last =
        (decide (i = bufs.length - 1) || ((descs i).last || buffSize.testBit 30)) := by
  have hget := fillFrom_get (fun _ buf desc => rtl8125MapToAsic desc buf.dma buffSize) 0 descs h
  rw [Nat.zero_add] at hget
  unfold rtl8125LibRxFill
  by_cases hlast : i = bufs.length - 1
  · rw [← hlast, update_self, hget, markAsLast_last, decide_eq_true rfl]
    exact ⟨rfl, rfl⟩
  · rw [update_of_ne hlast, hget, mapToAsic_last, decide_eq_false hlast]
    exact ⟨rfl, rfl⟩

theorem rxFill_laid {buffSize : Nat} {bufs : List RingBuf} {descs : DescMem} (h : EndsLate bufs.length descs)
    (hsize : 2 ≤ bufs.length → buffSize.testBit 30 = false) : Laid bufs (rtl8125LibRxFill buffSize bufs descs) := by
  constructor
  · exact fun i buf hi => (rxFill_get descs hi).1
  · intro i hi
    rw [(rxFill_get descs (List.getElem?_eq_getElem hi)).2]
    by_cases hlast : i = bufs.length - 1
    · rw [decide_eq_true hlast, Bool.true_or]
    · rw [h i (by omega), hsize (by omega), Bool.or_false, Bool.or_false]

/-- The size of a receive buffer is written beside the mark of the end: it must
not look like one. -/
def RingDir.Plain (dir : RingDir) (ringSize buffSize : Nat) : Prop :=
  dir = .rx → 2 ≤ ringSize → buffSize.testBit 30 = false

theorem ringFill_laid {dir : RingDir} {buffSize : Nat} {bufs : List RingBuf} (hplain : dir.Plain bufs.length buffSize)
    {descs : DescMem} (h : EndsLate bufs.length descs) : Laid bufs (ringFill dir buffSize bufs descs) := by
  cases dir with
  | tx => exact txFill_laid h
  | rx => exact rxFill_laid h (hplain rfl)

-- ---------------------------------------------------------------------------
-- Where the device is
-- ---------------------------------------------------------------------------

theorem Laid.done {bufs : List RingBuf} {descs : DescMem} (h : Laid bufs descs) (pos : Nat) (status : BitVec 32) :
    Laid bufs (update descs pos
      { descs pos with opts1 := (status &&& ~~~ringEnd) ||| ((descs pos).opts1 &&& ringEnd) }) := by
  constructor
  · intro i buf hi
    by_cases hpos : i = pos
    · subst hpos
      rw [update_self]
      exact h.addr i buf hi
    · rw [update_of_ne hpos]
      exact h.addr i buf hi
  · intro i hi
    by_cases hpos : i = pos
    · subst hpos
      rw [update_self, ← h.last i hi]
      simp [RingDesc.last, ringEnd]
    · rw [update_of_ne hpos]
      exact h.last i hi

theorem next_mod {n : Nat} (hn : 0 < n) (k : Nat) :
    (if k % n = n - 1 then 0 else k % n + 1) = (k + 1) % n := by
  have hlt := Nat.mod_lt k hn
  have hmod : (k + 1) % n = (k % n + 1) % n := (Nat.mod_add_mod k n 1).symm
  rw [hmod]
  split
  · rw [show k % n + 1 = n by omega, Nat.mod_self]
  · exact (Nat.mod_eq_of_lt (by omega : k % n + 1 < n)).symm

structure RingWalk.At (bufs : List RingBuf) (k : Nat) (s : RingWalk) : Prop where
  laid : Laid bufs s.descs
  pos : s.pos = k % bufs.length

theorem RingWalk.At.done {dir : RingDir} {buffSize : Nat} {bufs : List RingBuf} {k : Nat} {s : RingWalk}
    (hbufs : bufs ≠ []) (h : s.At bufs k) (status : BitVec 32) :
    (s.step dir buffSize bufs (.done status)).At bufs (k + 1) := by
  have hn : 0 < bufs.length := List.length_pos_iff.mpr hbufs
  refine ⟨h.laid.done s.pos status, ?_⟩
  have hlast : (s.descs s.pos).last = decide (s.pos = bufs.length - 1) :=
    h.laid.last s.pos (h.pos ▸ Nat.mod_lt k hn)
  calc (s.step dir buffSize bufs (.done status)).pos
      = if s.pos = bufs.length - 1 then 0 else s.pos + 1 := by simp only [step, hlast, decide_eq_true_eq]
    _ = (k + 1) % bufs.length := by rw [h.pos, next_mod hn]

theorem RingWalk.At.init {dir : RingDir} {buffSize : Nat} {bufs : List RingBuf}
    (hplain : dir.Plain bufs.length buffSize)
    {s : RingWalk} (h : EndsLate bufs.length s.descs) : (s.step dir buffSize bufs .init).At bufs 0 :=
  ⟨ringFill_laid hplain h, (Nat.zero_mod _).symm⟩

theorem RingWalk.At.run {dir : RingDir} {buffSize : Nat} {bufs : List RingBuf}
    (hplain : dir.Plain bufs.length buffSize)
    (hbufs : bufs ≠ []) (as : List WalkAction) {k : Nat} {s : RingWalk} (h : s.At bufs k) :
    (Runs.run (RingWalk.step dir buffSize bufs) s as).At bufs (as.foldl WalkAction.count k) := by
  induction as generalizing k s with
  | nil => exact h
  | cons a as ih =>
    cases a with
    | init => exact ih (RingWalk.At.init hplain h.laid.endsLate)
    | done status => exact ih (h.done hbufs status)

theorem RingWalk.new_at {dir : RingDir} {buffSize : Nat} {bufs : List RingBuf}
    (hplain : dir.Plain bufs.length buffSize) : (RingWalk.new dir buffSize bufs).At bufs 0 :=
  ⟨ringFill_laid hplain fun i _ => by simp [RingDesc.last], (Nat.zero_mod _).symm⟩

theorem RingMem.Listed.table {ring : RingMem} (h : ring.Listed) :
    ∃ bufs, ring.bufs = some bufs ∧ bufs.length = ring.ringSize ∧ ∀ buf ∈ bufs, buf.size = ring.buffSize := by
  cases hcontig : ring.contig with
  | true =>
    obtain ⟨-, addr, daddr, hbufs⟩ := h.contig hcontig
    refine ⟨_, hbufs, by simp [contigRingBufs], fun buf hmem => ?_⟩
    simp only [contigRingBufs, List.mem_map] at hmem
    obtain ⟨i, -, rfl⟩ := hmem
    rfl
  | false =>
    obtain ⟨bufs, hbufs, hlength, hready⟩ := h.single hcontig
    exact ⟨bufs, hbufs, hlength, fun buf hmem => (hready buf hmem).2⟩

/-- The device goes round the ring, one descriptor after the other and each with
its own buffer, however often the ring is filled again: just if the size of the
buffers leaves the mark of the end alone. -/
theorem device_goes_round_iff (dir : RingDir) (ring : RingMem) (hlisted : ring.Listed) (hsize : ring.ringSize ≠ 0) :
    (∀ as, let bufs := ring.bufs.getD []
      let s := run (RingWalk.step dir ring.buffSize bufs) (RingWalk.new dir ring.buffSize bufs) as
      s.pos = as.foldl WalkAction.count 0 % ring.ringSize ∧
        ∃ buf, bufs[s.pos]? = some buf ∧ (s.descs s.pos).addr = buf.dma ∧ buf.size = ring.buffSize) ↔
      (dir = .rx → 2 ≤ ring.ringSize → ring.buffSize.testBit 30 = false) := by
  obtain ⟨bufs, hbufs, hlength, hsizes⟩ := hlisted.table
  have hne : bufs ≠ [] := fun h => hsize (by rw [← hlength, h]; rfl)
  rw [hbufs, Option.getD_some]
  constructor
  · rintro hall rfl hmany
    by_contra hbit
    rw [Bool.not_eq_false] at hbit
    -- the first descriptor already ends the ring
    have hlast : (rtl8125LibRxFill ring.buffSize bufs (fun _ => {}) 0).last = true := by
      rw [(rxFill_get _ (List.getElem?_eq_getElem (List.length_pos_iff.mpr hne))).2, hbit, Bool.or_true, Bool.or_true]
    have hstays : (run (RingWalk.step .rx ring.buffSize bufs) (RingWalk.new .rx ring.buffSize bufs) [.done 0]).pos = 0 :=
      if_pos hlast
    have hpos := (hall [.done 0]).1
    rw [hstays] at hpos
    exact absurd (hpos.trans (Nat.mod_eq_of_lt hmany)) (by decide)
  · intro hplain as _ s
    rw [← hlength] at hplain ⊢
    have hat := (RingWalk.new_at hplain).run hplain hne as
    have hlt : s.pos < bufs.length := hat.pos ▸ Nat.mod_lt _ (List.length_pos_iff.mpr hne)
    have hget : bufs[s.pos]? = some bufs[s.pos] := List.getElem?_eq_getElem hlt
    exact ⟨hat.pos, bufs[s.pos], hget, hat.laid.addr _ _ hget, hsizes _ (List.getElem_mem hlt)⟩

theorem device_goes_round_four_buffers :
    let bufs := contigRingBufs 4096 4096 4 2048
    let s := run (RingWalk.step .rx 2048 bufs) (RingWalk.new .rx 2048 bufs) (List.replicate 6 (.done 0))
    s.pos = 2 ∧ ∃ buf, bufs[s.pos]? = some buf ∧ (s.descs s.pos).addr = buf.dma ∧ buf.size = 2048 := by
  intro bufs s
  let ring : RingMem :=
    { ringSize := 4, buffSize := 2048, contig := true, descAddr := some 0, descSize := 128, bufs := some bufs }
  have hlisted : ring.Listed := by
    refine ⟨by simp [ring], fun _ => ⟨by simp [ring], 4096, 4096, rfl⟩, fun h => ?_⟩
    cases h
  obtain ⟨hpos, hbuf⟩ := (device_goes_round_iff .rx ring hlisted (by decide)).mpr (fun _ _ => by decide)
    (List.replicate 6 (.done 0))
  exact ⟨hpos.trans (by decide), hbuf⟩

end IpaOffload.Ioss
