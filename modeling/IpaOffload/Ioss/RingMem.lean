import IpaOffload.Lib.Runs
import IpaOffload.Lib.Triple
import IpaOffload.Ioss.Msix
import Mathlib.Algebra.Group.Nat.Defs
import Mathlib.Data.List.Perm.Basic

/-!
# The memory of the rings

`rtl8125_request_ring` and `rtl8125_release_ring` over the blocks that
`dma_alloc_coherent` has given out. A pointer that is NULL is followed in more
than one place, and a table whose size has wrapped around is run past: such a
step ends everything (`Oops`). Giving back a block that is not out corrupts the
heap, for good. Sizes have 32 bits, `size_t` among them.
-/

namespace IpaOffload.Ioss

open Fallible Runs Function

-- ---------------------------------------------------------------------------
-- Coherent memory
-- ---------------------------------------------------------------------------

structure DmaBlock where
  addr : Nat
  daddr : Nat
  size : Nat
  deriving DecidableEq, Repr

def DmaBlock.Apart (b c : DmaBlock) : Prop := b.daddr + b.size ≤ c.daddr ∨ c.daddr + c.size ≤ b.daddr

theorem DmaBlock.Apart.symm {b c : DmaBlock} (h : b.Apart c) : c.Apart b := Or.symm h

structure Allocator where
  /-- The size of a `struct rtl8125_buf`. -/
  bufLength : Nat
  bufLength_pos : 0 < bufLength
  /-- `dma_alloc_coherent`, for the blocks that are out and a size. -/
  dma : List DmaBlock → Nat → Option (Nat × Nat)
  fresh : ∀ live size addr daddr, dma live size = some (addr, daddr) →
    ∀ b ∈ live, DmaBlock.Apart { addr, daddr, size } b

structure RingBuf where
  addr : Option Nat := none
  dma : Nat := 0
  size : Nat := 0
  deriving DecidableEq, Repr

structure RingMem where
  ringSize : Nat := 0
  buffSize : Nat := 0
  /-- `RTL8125_CONTIG_BUFS`. -/
  contig : Bool := false
  descAddr : Option Nat := none
  descDaddr : Nat := 0
  descSize : Nat := 0
  bufs : Option (List RingBuf) := none
  deriving DecidableEq, Repr

inductive Oops
  | nullPointer
  | pastTable
  deriving DecidableEq, Repr

/-- The blocks that are out, and whether one was given back that was not. -/
structure DmaHeap where
  live : List DmaBlock := []
  corrupt : Bool := false

structure MemState where
  ring : RingMem
  heap : DmaHeap

abbrev MemM := Fallible Oops MemState

def setMem (f : RingMem → RingMem) : MemM Unit := modify fun s => { s with ring := f s.ring }

def dmaAllocCoherent (alloc : Allocator) (size : Nat) : MemM (Option (Nat × Nat)) := do
  let s ← get
  match alloc.dma s.heap.live size with
  | none => return none
  | some (addr, daddr) =>
    set { s with heap := { s.heap with live := { addr, daddr, size } :: s.heap.live } }
    return some (addr, daddr)

/-- Freeing NULL does nothing. -/
def dmaFreeCoherent (size : Nat) (addr : Option Nat) (daddr : Nat) : MemM Unit := do
  match addr with
  | none => return ()
  | some addr =>
    let s ← get
    let block : DmaBlock := { addr, daddr, size }
    if block ∈ s.heap.live then set { s with heap := { s.heap with live := s.heap.live.erase block } }
    else set { s with heap := { s.heap with corrupt := true } }

-- ---------------------------------------------------------------------------
-- The memory of a ring
-- ---------------------------------------------------------------------------

def mul32 (a b : Nat) : Nat := a * b % 2 ^ 32

/-- The entries that a table for `ringSize` buffers has room for. -/
def tableLength (bufLength ringSize : Nat) : Nat := mul32 bufLength ringSize / bufLength

def freeBufs : List RingBuf → MemM Unit
  | [] => return ()
  | buf :: bufs => do
    dmaFreeCoherent buf.size buf.addr buf.dma
    freeBufs bufs

/-- The buffers of a ring. Of a contiguous one the first entry is read, whether
there is a table or not; of others as many as the ring has descriptors. -/
def freeRingBufs (ring : RingMem) : MemM Unit :=
  if ring.contig then
    match ring.bufs with
    | none => throw .nullPointer
    | some [] => throw .pastTable
    | some (buf :: _) => dmaFreeCoherent (mul32 ring.ringSize ring.buffSize) buf.addr buf.dma
  else
    match ring.bufs with
    | none => if ring.ringSize ≠ 0 then throw .nullPointer else return ()
    | some bufs => do
      freeBufs bufs
      if bufs.length < ring.ringSize then throw .pastTable else return ()

def rtl8125FreeRingMem : MemM Unit := do
  let ring := (← get).ring
  dmaFreeCoherent ring.descSize ring.descAddr ring.descDaddr
  setMem fun ring => { ring with descAddr := none }
  freeRingBufs ring
  setMem fun ring => { ring with bufs := none }

def contigRingBufs (addr daddr ringSize buffSize : Nat) : List RingBuf :=
  (List.range ringSize).map fun i =>
    { addr := some (addr + i * buffSize), dma := daddr + i * buffSize, size := buffSize }

/-- The loop that allocates the buffers one by one, from the one after `done`
on, for a table of `entries`; it reports whether all were allocated. -/
def allocBufs (alloc : Allocator) (buffSize entries : Nat) : (todo : Nat) → (done : List RingBuf) → MemM Bool
  | 0, done => do
    setMem fun ring => { ring with bufs := some done }
    return true
  | todo + 1, done =>
    if entries ≤ done.length then throw .pastTable
    else do
      match ← dmaAllocCoherent alloc buffSize with
      | none =>
        let rest := List.replicate (entries - done.length - 1) {}
        setMem fun ring => { ring with bufs := some (done ++ { size := buffSize } :: rest) }
        return false
      | some (addr, dma) =>
        allocBufs alloc buffSize entries todo (done ++ [{ addr := some addr, dma, size := buffSize }])

/-- `rtl8125_alloc_ring_mem`: whether it returns 0. `table` is the answer of
`kzalloc`, `descLength` the size of a descriptor. -/
def rtl8125AllocRingMemory (alloc : Allocator) (table : Bool) (descLength : Nat) : MemM Bool := do
  if !table then
    setMem fun ring => { ring with bufs := none }
    return false
  let entries (ring : RingMem) := tableLength alloc.bufLength ring.ringSize
  setMem fun ring =>
    { ring with bufs := some (List.replicate (entries ring) {}), descSize := mul32 ring.ringSize descLength }
  let ring := (← get).ring
  match ← dmaAllocCoherent alloc ring.descSize with
  | none =>
    setMem fun ring => { ring with descAddr := none }
    rtl8125FreeRingMem
    return false
  | some (addr, daddr) =>
    setMem fun ring => { ring with descAddr := some addr, descDaddr := daddr }
    if ring.contig then
      -- the first entry is written before the block is there, the others after
      if entries ring = 0 then throw .pastTable
      match ← dmaAllocCoherent alloc (mul32 ring.ringSize ring.buffSize) with
      | none =>
        rtl8125FreeRingMem
        return false
      | some (addr, daddr) =>
        if entries ring < ring.ringSize then throw .pastTable
        setMem fun ring => { ring with bufs := some (contigRingBufs addr daddr ring.ringSize ring.buffSize) }
        return true
    else if ← allocBufs alloc ring.buffSize (entries ring) ring.ringSize [] then return true
    else
      rtl8125FreeRingMem
      return false

/-- `rtl8125_request_ring` for a ring that was found free: whether it returns the
ring, and not NULL. -/
def rtl8125RequestRingMem (alloc : Allocator) (table : Bool) (descLength ringSize buffSize : Nat) (contig : Bool) :
    MemM Bool := do
  setMem fun ring => { ring with ringSize, buffSize, contig }
  if ← rtl8125AllocRingMemory alloc table descLength then return true
  else
    rtl8125FreeRingMem
    return false

-- ---------------------------------------------------------------------------
-- What a ring owns
-- ---------------------------------------------------------------------------

/-- The block that a pointer was given, and nothing for NULL. -/
def blockAt (size : Nat) (addr : Option Nat) (daddr : Nat) : List DmaBlock :=
  match addr with
  | none => []
  | some addr => [{ addr, daddr, size }]

def bufsBlocks : List RingBuf → List DmaBlock
  | [] => []
  | buf :: bufs => blockAt buf.size buf.addr buf.dma ++ bufsBlocks bufs

def RingMem.bufBlocks (ring : RingMem) : List DmaBlock :=
  match ring.bufs with
  | none => []
  | some bufs =>
    if ring.contig then
      match bufs with
      | [] => []
      | buf :: _ => blockAt (mul32 ring.ringSize ring.buffSize) buf.addr buf.dma
    else bufsBlocks bufs

def RingMem.blocks (ring : RingMem) : List DmaBlock :=
  blockAt ring.descSize ring.descAddr ring.descDaddr ++ ring.bufBlocks

/-- Exactly these blocks are out, and no two share memory. -/
structure Owns (blocks : List DmaBlock) (heap : DmaHeap) : Prop where
  perm : heap.live.Perm blocks
  apart : heap.live.Pairwise DmaBlock.Apart
  sound : heap.corrupt = false

section
variable {F : List DmaBlock} {R : RingMem → Prop} {E : MemState → Prop}

theorem dmaFree_spec (size : Nat) (addr : Option Nat) (daddr : Nat) :
    Triple (fun s => Owns (blockAt size addr daddr ++ F) s.heap ∧ R s.ring) (dmaFreeCoherent size addr daddr)
      (fun _ s => Owns F s.heap ∧ R s.ring) E := by
  cases addr with
  | none => exact .pure fun _ hs => hs
  | some addr =>
    rintro s ⟨⟨hperm, hapart, hsound⟩, hR⟩
    have hmem : { addr, daddr, size } ∈ s.heap.live := hperm.symm.subset (by simp [blockAt])
    have herase : (s.heap.live.erase { addr, daddr, size }).Perm F := by
      simpa [blockAt] using hperm.erase { addr, daddr, size }
    simp only [dmaFreeCoherent, exec_bind, exec_get, if_pos hmem, exec_set]
    exact ⟨⟨herase, hapart.sublist List.erase_sublist, hsound⟩, hR⟩

theorem dmaAlloc_spec (alloc : Allocator) (size : Nat) :
    Triple (fun s => Owns F s.heap ∧ R s.ring) (dmaAllocCoherent alloc size)
      (fun answer s =>
        match answer with
        | none => Owns F s.heap ∧ R s.ring
        | some (addr, daddr) => Owns ({ addr, daddr, size } :: F) s.heap ∧ R s.ring) E := by
  rintro s ⟨⟨hperm, hapart, hsound⟩, hR⟩
  simp only [dmaAllocCoherent, exec_bind, exec_get]
  cases hdma : alloc.dma s.heap.live size with
  | none => exact ⟨⟨hperm, hapart, hsound⟩, hR⟩
  | some answer =>
    obtain ⟨addr, daddr⟩ := answer
    exact ⟨⟨hperm.cons _, List.pairwise_cons.mpr ⟨alloc.fresh _ _ _ _ hdma, hapart⟩, hsound⟩, hR⟩

theorem freeBufs_spec (bufs : List RingBuf) :
    Triple (fun s => Owns (bufsBlocks bufs ++ F) s.heap ∧ R s.ring) (freeBufs bufs)
      (fun _ s => Owns F s.heap ∧ R s.ring) E := by
  induction bufs with
  | nil => exact .pure fun _ hs => hs
  | cons buf bufs ih =>
    refine .bind (.pre (dmaFree_spec buf.size buf.addr buf.dma) fun s hs => ?_) fun _ => ih
    simpa [bufsBlocks] using hs

-- ---------------------------------------------------------------------------
-- Freeing and allocating
-- ---------------------------------------------------------------------------

structure RingMem.Sized (ringSize buffSize : Nat) (contig : Bool) (ring : RingMem) : Prop where
  ringSize : ring.ringSize = ringSize
  buffSize : ring.buffSize = buffSize
  contig : ring.contig = contig

structure RingMem.Empty (ring : RingMem) : Prop where
  desc : ring.descAddr = none
  bufs : ring.bufs = none

/-- The ring has a table of its buffers, with all the entries that are read. -/
def RingMem.Tabled (ring : RingMem) : Prop :=
  ∃ bufs, ring.bufs = some bufs ∧ (ring.contig = true → bufs ≠ []) ∧
    (ring.contig = false → ring.ringSize ≤ bufs.length)

/-- A run that ends is all right as long as the heap is. -/
def Forgives (E : MemState → Prop) : Prop := ∀ s, s.heap.corrupt = false → E s

theorem RingMem.Empty.blocks {ring : RingMem} (h : ring.Empty) : ring.blocks = [] := by
  simp [RingMem.blocks, RingMem.bufBlocks, blockAt, h.desc, h.bufs]

theorem freeRingBufs_spec {ring : RingMem} (h : ring.Tabled ∨ Forgives E) :
    Triple (fun s => Owns (ring.bufBlocks ++ F) s.heap ∧ R s.ring) (freeRingBufs ring)
      (fun _ s => Owns F s.heap ∧ R s.ring) E := by
  unfold freeRingBufs RingMem.bufBlocks
  cases hcontig : ring.contig with
  | true =>
    rcases hbufs : ring.bufs with _ | _ | ⟨buf, bufs⟩
    · refine .throw fun s hs => h.elim (fun ⟨_, hb, _⟩ => ?_) fun hE => hE s hs.1.sound
      rw [hbufs] at hb
      cases hb
    · refine .throw fun s hs => h.elim (fun ⟨_, hb, hne, _⟩ => ?_) fun hE => hE s hs.1.sound
      rw [hbufs] at hb
      cases hb
      exact absurd rfl (hne hcontig)
    · exact dmaFree_spec _ _ _
  | false =>
    simp only [Bool.false_eq_true, if_false]
    cases hbufs : ring.bufs with
    | none =>
      refine .ite (fun _ => .throw fun s hs => h.elim (fun ⟨_, hb, _⟩ => ?_) fun hE => hE s hs.1.sound)
        fun _ => .pure fun _ hs => hs
      rw [hbufs] at hb
      cases hb
    | some bufs =>
      refine .bind (freeBufs_spec bufs) fun _ => .ite (fun hlt => .throw fun s hs => ?_) fun _ => .pure fun _ hs => hs
      refine h.elim (fun ⟨_, hb, _, hle⟩ => ?_) fun hE => hE s hs.1.sound
      rw [hbufs] at hb
      cases hb
      exact absurd hlt (Nat.not_lt.mpr (hle hcontig))

variable {ringSize buffSize descLength : Nat} {contig : Bool}

theorem freeRingMem_spec :
    Triple (fun s => Owns (s.ring.blocks ++ F) s.heap ∧ (s.ring.Tabled ∨ Forgives E) ∧
        s.ring.Sized ringSize buffSize contig)
      rtl8125FreeRingMem (fun _ s => Owns F s.heap ∧ s.ring.Empty ∧ s.ring.Sized ringSize buffSize contig) E := by
  rintro s ⟨hown, htabled, hsized⟩
  have hbody : Triple (fun s' => Owns (s.ring.blocks ++ F) s'.heap ∧ s'.ring = s.ring)
      (do
        dmaFreeCoherent s.ring.descSize s.ring.descAddr s.ring.descDaddr
        setMem fun ring => { ring with descAddr := none }
        freeRingBufs s.ring
        setMem fun ring => { ring with bufs := none })
      (fun _ s => Owns F s.heap ∧ s.ring.Empty ∧ s.ring.Sized ringSize buffSize contig) E := by
    refine .bind (.pre (dmaFree_spec (R := (· = s.ring)) (F := s.ring.bufBlocks ++ F) _ _ _) ?_) fun _ => ?_
    · intro s' hs'
      simpa [RingMem.blocks] using hs'
    refine .bind (.modify (R := fun _ s' => Owns (s.ring.bufBlocks ++ F) s'.heap ∧
      s'.ring = { s.ring with descAddr := none }) ?_) fun _ => ?_
    · rintro s' ⟨hown', hring⟩
      exact ⟨hown', by rw [hring]⟩
    refine .bind (freeRingBufs_spec (R := (· = { s.ring with descAddr := none })) htabled) fun _ => .modify ?_
    rintro s' ⟨hown', hring⟩
    refine ⟨hown', ?_, ?_⟩ <;> rw [hring]
    · exact ⟨rfl, rfl⟩
    · exact ⟨hsized.ringSize, hsized.buffSize, hsized.contig⟩
  exact hbody s ⟨hown, rfl⟩

theorem freeRingMem_empty :
    Triple (fun s => Owns F s.heap ∧ s.ring.Empty ∧ s.ring.Sized ringSize buffSize contig) rtl8125FreeRingMem
      (fun _ s => Owns F s.heap ∧ s.ring.Empty ∧ s.ring.Sized ringSize buffSize contig ∧ ringSize = 0 ∧ contig = false)
      (fun s => Owns F s.heap) := by
  rintro s ⟨hown, hempty, ⟨rfl, rfl, rfl⟩⟩
  simp only [rtl8125FreeRingMem, exec_bind, exec_get, hempty.desc, dmaFreeCoherent, exec_pure, setMem, exec_modify,
    freeRingBufs, hempty.bufs]
  cases hcontig : s.ring.contig with
  | true => exact hown
  | false =>
    by_cases hsize : s.ring.ringSize = 0
    · simp only [hsize, Bool.false_eq_true, if_false, ne_eq, not_true_eq_false, exec_pure]
      exact ⟨hown, ⟨rfl, rfl⟩, ⟨rfl, rfl, rfl⟩, trivial, trivial⟩
    · simp only [Bool.false_eq_true, if_false, ne_eq, hsize, not_false_eq_true, if_true, exec_throw]
      exact hown

/-- Buffers that were not allocated own nothing. -/
theorem bufsBlocks_append (bufs bufs' : List RingBuf) :
    bufsBlocks (bufs ++ bufs') = bufsBlocks bufs ++ bufsBlocks bufs' := by
  induction bufs with
  | nil => rfl
  | cons buf bufs ih => simp [bufsBlocks, ih]

theorem bufsBlocks_replicate (n : Nat) : bufsBlocks (List.replicate n {}) = [] := by
  induction n with
  | zero => rfl
  | succ n ih => simp [List.replicate_succ, bufsBlocks, blockAt, ih]

theorem RingMem.bufBlocks_replicate {r : RingMem} {n : Nat} (h : r.bufs = some (List.replicate n {})) :
    r.bufBlocks = [] := by
  unfold RingMem.bufBlocks
  rw [h]
  cases r.contig with
  | true => cases n with
    | zero => rfl
    | succ n => rfl
  | false => exact bufsBlocks_replicate n

def RingBuf.Ready (buffSize : Nat) (buf : RingBuf) : Prop := buf.addr ≠ none ∧ buf.size = buffSize

theorem allocBufs_spec (alloc : Allocator) (ring : RingMem) {entries : Nat} (todo : Nat) {done : List RingBuf}
    (h : done.length + todo ≤ entries ∨ Forgives E) (hdone : ∀ buf ∈ done, buf.Ready buffSize) :
    Triple (fun s => Owns (bufsBlocks done ++ F) s.heap ∧ s.ring = ring) (allocBufs alloc buffSize entries todo done)
      (fun ok s => ∃ bufs, s.ring = { ring with bufs := some bufs } ∧ Owns (bufsBlocks bufs ++ F) s.heap ∧
        if ok then bufs.length = done.length + todo ∧ ∀ buf ∈ bufs, buf.Ready buffSize
        else bufs.length = entries) E := by
  induction todo generalizing done with
  | zero =>
    refine .bind (.modify (R := fun _ s => s.ring = { ring with bufs := some done } ∧
      Owns (bufsBlocks done ++ F) s.heap) ?_) fun _ => .pure ?_
    · rintro s ⟨hown, rfl⟩
      exact ⟨rfl, hown⟩
    · rintro s ⟨hring, hown⟩
      exact ⟨done, hring, hown, rfl, hdone⟩
  | succ todo ih =>
    refine .ite (fun hpast => .throw fun s hs => ?_) fun hroom => ?_
    · exact h.elim (fun hle => absurd hle (by omega)) fun hE => hE s hs.1.sound
    refine .bind (dmaAlloc_spec (R := (· = ring)) alloc buffSize) fun answer => ?_
    cases answer with
    | none =>
      let bufs : List RingBuf :=
        done ++ { size := buffSize } :: List.replicate (entries - done.length - 1) ({} : RingBuf)
      refine .bind (.modify (R := fun _ s => s.ring = { ring with bufs := some bufs } ∧
        Owns (bufsBlocks bufs ++ F) s.heap) ?_) fun _ => .pure ?_
      · rintro s ⟨hown, rfl⟩
        refine ⟨rfl, ?_⟩
        simpa [bufs, bufsBlocks_append, bufsBlocks, blockAt, bufsBlocks_replicate] using hown
      · rintro s ⟨hring, hown⟩
        refine ⟨bufs, hring, hown, ?_⟩
        show bufs.length = entries
        simp only [bufs, List.length_append, List.length_cons, List.length_replicate]
        omega
    | some answer =>
      obtain ⟨addr, dma⟩ := answer
      let buf : RingBuf := { addr := some addr, dma, size := buffSize }
      have hlength : (done ++ [buf]).length = done.length + 1 := by simp
      have hnext : ∀ buf' ∈ done ++ [buf], buf'.Ready buffSize := by
        intro buf' hmem
        rcases List.mem_append.mp hmem with hmem | hmem
        · exact hdone buf' hmem
        · obtain rfl := List.mem_singleton.mp hmem
          exact ⟨by simp [buf], rfl⟩
      refine .conseq (@ih (done ++ [buf]) (h.imp_left fun hle => by omega) hnext) ?_ ?_ fun _ => id
      · rintro s ⟨hown, hring⟩
        refine ⟨⟨hown.perm.trans ?_, hown.apart, hown.sound⟩, hring⟩
        simpa [buf, bufsBlocks_append, bufsBlocks, blockAt] using (List.perm_middle.symm : _)
      · rintro ok s ⟨bufs, hring, hown, hok⟩
        refine ⟨bufs, hring, hown, ?_⟩
        cases ok with
        | false => exact hok
        | true => exact ⟨by have := hok.1; omega, hok.2⟩

structure RingMem.Listed (ring : RingMem) : Prop where
  desc : ring.descAddr ≠ none
  contig : ring.contig = true → ring.ringSize ≠ 0 ∧
    ∃ addr daddr, ring.bufs = some (contigRingBufs addr daddr ring.ringSize ring.buffSize)
  single : ring.contig = false →
    ∃ bufs, ring.bufs = some bufs ∧ bufs.length = ring.ringSize ∧ ∀ buf ∈ bufs, buf.Ready ring.buffSize

theorem contigRingBufs_head (addr daddr buffSize : Nat) {ringSize : Nat} (h : ringSize ≠ 0) :
    ∃ bufs, contigRingBufs addr daddr ringSize buffSize =
      { addr := some addr, dma := daddr, size := buffSize } :: bufs := by
  obtain ⟨n, rfl⟩ := Nat.exists_eq_succ_of_ne_zero h
  rw [contigRingBufs, List.range_succ_eq_map, List.map_cons]
  exact ⟨_, congrArg (· :: _) (by simp)⟩

theorem RingMem.Listed.tabled {ring : RingMem} (h : ring.Listed) : ring.Tabled := by
  cases hcontig : ring.contig with
  | true =>
    obtain ⟨hsize, addr, daddr, hbufs⟩ := h.contig hcontig
    refine ⟨_, hbufs, fun _ => ?_, fun hc => absurd (hcontig.symm.trans hc) (by decide)⟩
    obtain ⟨bufs, heq⟩ := contigRingBufs_head addr daddr ring.buffSize hsize
    rw [heq]
    simp
  | false =>
    obtain ⟨bufs, hbufs, hlength, -⟩ := h.single hcontig
    exact ⟨bufs, hbufs, fun hc => absurd (hcontig.symm.trans hc) (by decide), fun _ => Nat.le_of_eq hlength.symm⟩

/-- A table that no product has cut short, with an entry where the first one is read. -/
def TableFits (alloc : Allocator) (ringSize : Nat) (contig : Bool) : Prop :=
  alloc.bufLength * ringSize < 2 ^ 32 ∧ (contig = true → ringSize ≠ 0)

theorem tableLength_le (bufLength ringSize : Nat) : tableLength bufLength ringSize ≤ ringSize := by
  unfold tableLength mul32
  exact Nat.div_le_of_le_mul (Nat.mod_le _ _)

theorem TableFits.tableLength {alloc : Allocator} (h : TableFits alloc ringSize contig) :
    tableLength alloc.bufLength ringSize = ringSize := by
  rw [Ioss.tableLength, mul32, Nat.mod_eq_of_lt h.1, Nat.mul_div_cancel_left _ alloc.bufLength_pos]

def AllocEnds (F : List DmaBlock) (ringSize buffSize descLength : Nat) (contig : Bool) (ok : Bool) (s : MemState) :
    Prop :=
  s.ring.Sized ringSize buffSize contig ∧
    if ok then Owns (s.ring.blocks ++ F) s.heap ∧ s.ring.Listed ∧ s.ring.descSize = mul32 ringSize descLength
    else Owns F s.heap ∧ s.ring.Empty

theorem allocFails_spec :
    Triple (fun s => Owns (s.ring.blocks ++ F) s.heap ∧ (s.ring.Tabled ∨ Forgives E) ∧
        s.ring.Sized ringSize buffSize contig)
      (do rtl8125FreeRingMem; return false) (AllocEnds F ringSize buffSize descLength contig) E :=
  .bind freeRingMem_spec fun _ => .pure fun _ hs => ⟨hs.2.2, hs.1, hs.2.1⟩

section
variable {alloc : Allocator} {ring : RingMem} {addr : Nat} (hsized : ring.Sized ringSize buffSize contig)
variable (hdesc : ring.descAddr = some addr) (hdescSize : ring.descSize = mul32 ringSize descLength)
variable (hfits : TableFits alloc ringSize contig ∨ Forgives E)
include hsized hdesc hdescSize hfits

theorem allocContig_spec (hcontig : contig = true)
    (hbufs : ring.bufs = some (List.replicate (tableLength alloc.bufLength ringSize) {})) :
    Triple (fun s => Owns ({ addr, daddr := ring.descDaddr, size := ring.descSize } :: F) s.heap ∧ s.ring = ring)
      (do
        if tableLength alloc.bufLength ring.ringSize = 0 then throw .pastTable
        match ← dmaAllocCoherent alloc (mul32 ring.ringSize ring.buffSize) with
        | none =>
          rtl8125FreeRingMem
          return false
        | some (addr, daddr) =>
          if tableLength alloc.bufLength ring.ringSize < ring.ringSize then throw .pastTable
          setMem fun ring => { ring with bufs := some (contigRingBufs addr daddr ring.ringSize ring.buffSize) }
          return true)
      (AllocEnds F ringSize buffSize descLength contig) E := by
  subst hcontig
  refine .ite (fun hnone => .throw_bind fun s hs => ?_) fun hsome => ?_ <;> rw [hsized.ringSize] at *
  · exact hfits.elim (fun hfits => absurd (hfits.tableLength.symm.trans hnone) (hfits.2 rfl))
      fun hE => hE s hs.1.sound
  have hne : List.replicate (tableLength alloc.bufLength ringSize) ({} : RingBuf) ≠ [] := by simpa using hsome
  have hsize : ringSize ≠ 0 := by
    have := tableLength_le alloc.bufLength ringSize
    omega
  refine .bind (dmaAlloc_spec (R := (· = ring)) alloc _) fun answer => ?_
  cases answer with
  | none =>
    refine .pre allocFails_spec ?_
    rintro s ⟨hown, rfl⟩
    refine ⟨?_, .inl ⟨_, hbufs, fun _ => hne, fun hc => absurd (hsized.contig.symm.trans hc) (by decide)⟩, hsized⟩
    obtain ⟨n, hn⟩ := Nat.exists_eq_succ_of_ne_zero hsome
    rw [hn] at hbufs
    simpa [RingMem.blocks, RingMem.bufBlocks, blockAt, hdesc, hbufs, hsized.contig, List.replicate_succ] using hown
  | some answer =>
    obtain ⟨base, dma⟩ := answer
    refine .ite (fun hshort => .throw_bind fun s hs => ?_) fun _ => ?_
    · exact hfits.elim (fun hfits => absurd hfits.tableLength (Nat.ne_of_lt hshort)) fun hE => hE s hs.1.sound
    refine .bind (.modify (R := fun _ => AllocEnds F ringSize buffSize descLength true true) ?_) fun _ =>
      .pure fun _ => id
    rintro s ⟨hown, rfl⟩
    refine ⟨⟨hsized.ringSize, hsized.buffSize, hsized.contig⟩, ⟨hown.perm.trans ?_, hown.apart, hown.sound⟩, ?_,
      hdescSize⟩
    · obtain ⟨bufs, hhead⟩ := contigRingBufs_head base dma s.ring.buffSize hsize
      simpa [RingMem.blocks, RingMem.bufBlocks, blockAt, hdesc, hsized.ringSize, hsized.contig, hhead] using
        List.Perm.swap _ _ _
    · refine ⟨by simp [hdesc], fun _ => ⟨hsized.ringSize ▸ hsize, base, dma, rfl⟩, fun hc => ?_⟩
      exact absurd (hsized.contig.symm.trans hc) (by decide)

theorem allocSingle_spec (hcontig : contig = false) :
    Triple (fun s => Owns ({ addr, daddr := ring.descDaddr, size := ring.descSize } :: F) s.heap ∧ s.ring = ring)
      (do
        if ← allocBufs alloc ring.buffSize (tableLength alloc.bufLength ring.ringSize) ring.ringSize [] then return true
        else
          rtl8125FreeRingMem
          return false)
      (AllocEnds F ringSize buffSize descLength contig) E := by
  subst hcontig
  have hblocks : ∀ bufs, ({ ring with bufs := some bufs } : RingMem).blocks =
      { addr, daddr := ring.descDaddr, size := ring.descSize } :: bufsBlocks bufs := by
    intro bufs
    simp [RingMem.blocks, RingMem.bufBlocks, blockAt, hdesc, hsized.contig]
  have hroom : (([] : List RingBuf).length + ring.ringSize ≤ tableLength alloc.bufLength ring.ringSize) ∨ Forgives E :=
    hfits.imp_left fun hfits => by simp [hsized.ringSize, hfits.tableLength]
  refine .bind (.pre (allocBufs_spec alloc ring ring.ringSize hroom (by simp)) fun s hs => by
    simpa [bufsBlocks] using hs)
    fun ok => ?_
  cases ok with
  | true =>
    refine .pure ?_
    rintro s ⟨bufs, hring, hown, hlength, hready⟩
    rw [AllocEnds, hring, hblocks]
    refine ⟨⟨hsized.ringSize, hsized.buffSize, hsized.contig⟩, ⟨hown.perm.trans List.perm_middle, hown.apart, hown.sound⟩,
      ?_, hdescSize⟩
    refine ⟨by simp [hdesc], fun hc => ?_, fun _ => ⟨bufs, rfl, by simpa using hlength, hready⟩⟩
    exact absurd (hsized.contig.symm.trans hc) (by decide)
  | false =>
    refine .pre allocFails_spec ?_
    rintro s ⟨bufs, hring, hown, hlength⟩
    rw [hring, hblocks]
    refine ⟨⟨hown.perm.trans List.perm_middle, hown.apart, hown.sound⟩, ?_,
      ⟨hsized.ringSize, hsized.buffSize, hsized.contig⟩⟩
    refine hfits.imp_left fun hfits => ⟨bufs, rfl, fun hc => ?_, fun _ => ?_⟩
    · exact absurd (hsized.contig.symm.trans hc) (by decide)
    · have hentries : bufs.length = tableLength alloc.bufLength ring.ringSize := hlength
      rw [hsized.ringSize, hfits.tableLength] at hentries
      exact Nat.le_of_eq (hsized.ringSize.trans hentries.symm)

end

theorem allocTabled_spec (alloc : Allocator) (hfits : TableFits alloc ringSize contig ∨ Forgives E) :
    Triple (fun s => Owns F s.heap ∧ s.ring.Empty ∧ s.ring.Sized ringSize buffSize contig)
      (rtl8125AllocRingMemory alloc true descLength) (AllocEnds F ringSize buffSize descLength contig) E := by
  refine .ite (fun h => absurd h (by decide)) fun _ => ?_
  refine .bind (.modify (R := fun _ s => Owns F s.heap ∧ s.ring.descAddr = none ∧
    s.ring.Sized ringSize buffSize contig ∧ s.ring.descSize = mul32 ringSize descLength ∧
    s.ring.bufs = some (List.replicate (tableLength alloc.bufLength ringSize) {})) ?_) fun _ => ?_
  · rintro s ⟨hown, hempty, hsized⟩
    refine ⟨hown, hempty.desc, ⟨hsized.ringSize, hsized.buffSize, hsized.contig⟩, ?_, ?_⟩
    · simp [hsized.ringSize]
    · simp [hsized.ringSize]
  refine .get_bind fun s0 hs0 => ?_
  obtain ⟨ring, heap⟩ := s0
  obtain ⟨hown, hdesc, hsized, hdescSize, hbufs⟩ : Owns F heap ∧ ring.descAddr = none ∧
    ring.Sized ringSize buffSize contig ∧ ring.descSize = mul32 ringSize descLength ∧
    ring.bufs = some (List.replicate (tableLength alloc.bufLength ringSize) {}) := hs0
  refine .bind (.pre (dmaAlloc_spec (F := F) (R := (· = ring)) alloc ring.descSize) ?_) fun answer => ?_
  · rintro s rfl
    exact ⟨hown, rfl⟩
  cases answer with
  | none =>
    refine .bind (.modify ?_) fun _ => allocFails_spec
    rintro s ⟨hown, rfl⟩
    refine ⟨?_, hfits.imp_left fun hfits => ⟨_, hbufs, fun hc => ?_, fun _ => ?_⟩,
      ⟨hsized.ringSize, hsized.buffSize, hsized.contig⟩⟩
    · have hblocks : ({ s.ring with descAddr := none } : RingMem).blocks = [] := by
        rw [RingMem.blocks, RingMem.bufBlocks_replicate (r := { s.ring with descAddr := none }) hbufs]
        rfl
      rw [← List.nil_append F, ← hblocks] at hown
      exact hown
    · rw [hfits.tableLength]
      simpa using hfits.2 (hsized.contig.symm.trans hc)
    · simp [hfits.tableLength, hsized.ringSize]
  | some answer =>
    obtain ⟨addr, daddr⟩ := answer
    refine .bind (.modify (R := fun _ s => Owns ({ addr, daddr, size := ring.descSize } :: F) s.heap ∧
      s.ring = { ring with descAddr := some addr, descDaddr := daddr }) ?_) fun _ => ?_
    · rintro s ⟨hown, rfl⟩
      exact ⟨hown, rfl⟩
    have hsized' : ({ ring with descAddr := some addr, descDaddr := daddr } : RingMem).Sized ringSize buffSize contig :=
      ⟨hsized.ringSize, hsized.buffSize, hsized.contig⟩
    cases contig with
    | true =>
      rw [if_pos hsized.contig]
      exact allocContig_spec hsized' rfl hdescSize hfits rfl hbufs
    | false =>
      rw [if_neg (by simp [hsized.contig])]
      exact allocSingle_spec hsized' rfl hdescSize hfits rfl

theorem allocRingMemory_spec (alloc : Allocator) (table : Bool)
    (hfits : TableFits alloc ringSize contig ∨ Forgives E) :
    Triple (fun s => Owns F s.heap ∧ s.ring.Empty ∧ s.ring.Sized ringSize buffSize contig)
      (rtl8125AllocRingMemory alloc table descLength) (AllocEnds F ringSize buffSize descLength contig) E := by
  cases table with
  | false =>
    refine .ite (fun _ => .bind (.modify (R := fun _ => AllocEnds F ringSize buffSize descLength contig false) ?_)
      fun _ => .pure fun _ => id) fun h => absurd rfl h
    rintro s ⟨hown, hempty, hsized⟩
    exact ⟨⟨hsized.ringSize, hsized.buffSize, hsized.contig⟩, hown, hempty.desc, rfl⟩
  | true => exact allocTabled_spec alloc hfits

theorem requestRingMem_spec (alloc : Allocator) (table : Bool) (descLength ringSize buffSize : Nat) (contig : Bool) :
    Triple (fun s => Owns F s.heap ∧ s.ring.Empty)
      (rtl8125RequestRingMem alloc table descLength ringSize buffSize contig)
      (fun ok s => AllocEnds F ringSize buffSize descLength contig ok s ∧
        (ok = false → ringSize = 0 ∧ contig = false))
      (fun s => s.heap.corrupt = false) := by
  refine .bind (.modify (R := fun _ s => Owns F s.heap ∧ s.ring.Empty ∧ s.ring.Sized ringSize buffSize contig) ?_)
    fun _ => .bind (allocRingMemory_spec alloc table (.inr fun _ => id)) fun ok => ?_
  · rintro s ⟨hown, hempty⟩
    exact ⟨hown, ⟨hempty.desc, hempty.bufs⟩, rfl, rfl, rfl⟩
  cases ok with
  | true => exact .pure fun s hs => ⟨hs, fun h => by cases h⟩
  | false =>
    refine .bind (.conseq freeRingMem_empty (fun s hs => ⟨hs.2.1, hs.2.2, hs.1⟩) (fun _ _ => id) fun s hs => hs.sound)
      fun _ => .pure ?_
    rintro s ⟨hown, hempty, hsized, hzero⟩
    exact ⟨⟨hsized, hown, hempty⟩, fun _ => hzero⟩

theorem freeRingMem_empty_error {s s' : MemState} {e : Oops} (h : s.ring.Empty)
    (hexec : exec rtl8125FreeRingMem s = (.error e, s')) : e = .nullPointer := by
  simp only [rtl8125FreeRingMem, exec_bind, exec_get, h.desc, dmaFreeCoherent, exec_pure, setMem, exec_modify,
    freeRingBufs, h.bufs] at hexec
  by_cases hread : s.ring.contig = true ∨ s.ring.ringSize ≠ 0
  · have hthrow : (if s.ring.contig = true then throw .nullPointer
        else if s.ring.ringSize ≠ 0 then throw .nullPointer else pure () : MemM Unit) = throw .nullPointer := by
      split
      · rfl
      · rw [if_pos (by tauto)]
    rw [hthrow] at hexec
    cases hexec
    rfl
  · obtain ⟨hcontig, hsize⟩ := not_or.mp hread
    rw [if_neg hcontig, if_neg hsize] at hexec
    cases hexec

/-- A request whose table fits runs past no table. -/
theorem requestRingMem_error (alloc : Allocator) {table : Bool} {s s' : MemState} {e : Oops}
    (hfits : TableFits alloc ringSize contig) (hown : Owns F s.heap) (hempty : s.ring.Empty)
    (hexec : exec (rtl8125RequestRingMem alloc table descLength ringSize buffSize contig) s = (.error e, s')) :
    e = .nullPointer := by
  have hspec : Triple (fun s => Owns F s.heap ∧ s.ring.Empty ∧ s.ring.Sized ringSize buffSize contig)
      (rtl8125AllocRingMemory alloc table descLength) (AllocEnds F ringSize buffSize descLength contig)
      fun _ => False := allocRingMemory_spec alloc table (.inl hfits)
  have halloc := hspec { s with ring := { s.ring with ringSize, buffSize, contig } }
    ⟨hown, ⟨hempty.desc, hempty.bufs⟩, rfl, rfl, rfl⟩
  unfold rtl8125RequestRingMem setMem at hexec
  rw [exec_bind, exec_modify] at hexec
  simp only [exec_bind] at hexec
  rcases hout : exec (rtl8125AllocRingMemory alloc table descLength)
    { s with ring := { s.ring with ringSize, buffSize, contig } } with ⟨_ | ok, t⟩
  · rw [hout] at halloc
    exact halloc.elim
  · rw [hout] at halloc hexec
    cases ok with
    | true => cases hexec
    | false =>
      simp only [exec_bind, Bool.false_eq_true, if_false] at hexec
      rcases hfree : exec rtl8125FreeRingMem t with ⟨_ | _, t'⟩
      · rw [hfree] at hexec
        cases hexec
        exact freeRingMem_empty_error halloc.2.2 hfree
      · rw [hfree] at hexec
        cases hexec

end

end IpaOffload.Ioss
