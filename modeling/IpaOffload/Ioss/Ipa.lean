import IpaOffload.Lib.Fallible
import IpaOffload.Ioss.Of

/-!
# `ioss_ipa`: handing the rings to IPA

`ioss_ipa_register` describes every channel to IPA (`ioss_ipa_fill_pipe_info`),
checks the descriptions (the preflight) and connects the pipes. `w` is the
width of `dma_addr_t`. What the functions log is not modelled, nor are the
descriptor fields that only IPA reads. Buffer lists are numbered in the order
they are allocated, so that a list that is freed twice, or never, shows.
-/

namespace IpaOffload.Ioss

open DeviceTree

-- ---------------------------------------------------------------------------
-- Data
-- ---------------------------------------------------------------------------

structure IpaParams where
  skipIpaRegister : Bool := false
  skipConnPipes : Bool := false
  fixHighIova : Bool := true
  iovaCeiling : UInt32 := 0x9fffffff
  preflightStrict : Bool := true
  preflightOnly : Bool := false
  trbAlign : UInt32 := 0x8000
  buffIovaAlign : UInt32 := 0x800

/-- `(dma_addr_t)` of an unsigned parameter. -/
def dmaAddr (w : Nat) (v : UInt32) : BitVec w := BitVec.ofNat w v.toNat

/-- `struct ioss_mem`. -/
structure Mem (w : Nat) where
  addr : Nat
  size : Nat
  daddr : BitVec w

/-- `struct ioss_channel`, with the `pa` of its two allocators. -/
structure IpaChannel (w : Nat) where
  direction : Direction
  ringSize : UInt32
  buffSize : UInt32
  descPa : Mem w → Nat
  buffPa : Mem w → Nat
  descMem : List (Mem w)
  buffMem : List (Mem w)

/-- `struct ipa_eth_buff_smmu_map`. -/
structure BuffMap (w : Nat) where
  iova : BitVec w
  pa : Nat
  deriving DecidableEq

/-- A buffer list: which allocation it is, and its entries. -/
structure BuffList (w : Nat) where
  id : Nat
  entries : List (BuffMap w)

/-- `struct ipa_eth_client_pipe_info`. The default is all zero: `clientInfo` is
whether the pointer to the client is set, `link` whether the description is in
the client's list. -/
structure PipeInfo (w : Nat) where
  clientInfo : Bool := false
  link : Bool := false
  dir : Direction := .tx
  isTransferRingValid : Bool := false
  transferRingBase : BitVec w := 0
  transferRingSize : UInt32 := 0
  dataBuffList : Option (BuffList w) := none
  dataBuffListSize : UInt32 := 0
  fixBufferSize : UInt32 := 0

/-- The kernel and IPA. `longBits` is the width of `unsigned long`. -/
structure Platform (w : Nat) where
  longBits : Nat
  pageOffset : Nat
  virtToPhys : Nat → Nat
  kcalloc : Nat → Bool
  ctype : Bool
  halFillSi : IpaChannel w → Bool
  connPipes : List (PipeInfo w) → Bool
  voteBw : Bool
  regIntf : Bool

/-- `pipes` has one description a channel; `connected` is what IPA was given. -/
structure IpaState (w : Nat) where
  pipes : List (PipeInfo w)
  allocs : Nat := 0
  freed : List Nat := []
  connected : Option (List (PipeInfo w)) := none
  /-- The client and the interface information are zeroed. -/
  cleared : Bool := true

abbrev Ipa (w : Nat) := Fallible Errno (IpaState w)

variable {w : Nat}

-- ---------------------------------------------------------------------------
-- Describing a channel
-- ---------------------------------------------------------------------------

section
variable (p : IpaParams)

/-- An address above the ceiling is replaced by its bits in the ceiling, or by
the physical address where these are no use. -/
def remapIova (iova : BitVec w) (pa : Nat) : BitVec w :=
  let ceiling := dmaAddr w p.iovaCeiling
  if p.fixHighIova ∧ iova > ceiling then
    let remap := iova &&& ceiling
    if remap = 0 ∨ remap > ceiling then BitVec.ofNat w pa else remap
  else iova

/-- The physical address of a buffer, put right where the allocator has
answered with a virtual one. -/
def buffPaOf (m : Platform w) (ch : IpaChannel w) (mem : Mem w) : Nat :=
  let pa := ch.buffPa mem
  if pa % 2 ^ m.longBits ≥ m.pageOffset then m.virtToPhys mem.addr else pa

def buildBuffList (m : Platform w) (ch : IpaChannel w) (size : Nat) :
    (idx : Nat) → List (Mem w) → Except Errno (List (BuffMap w))
  | _, [] => .ok []
  | idx, mem :: mems =>
    if idx ≥ size then .error (.other 75)
    else
      let pa := buffPaOf m ch mem
      if pa = 0 then .error .inval
      else
        let iova := remapIova p mem.daddr pa
        if iova > dmaAddr w p.iovaCeiling then .error (.other 34)
        else do
          let entries ← buildBuffList m ch size (idx + 1) mems
          return { iova, pa } :: entries

def setPipe (i : Nat) (f : PipeInfo w → PipeInfo w) : Ipa w Unit :=
  modify fun s => { s with pipes := s.pipes.modify i f }

def kfreeList (list : Option (BuffList w)) : Ipa w Unit :=
  match list with
  | none => pure ()
  | some l => modify fun s => { s with freed := s.freed ++ [l.id] }

def kcallocList (m : Platform w) : Ipa w (Option Nat) := do
  let s ← get
  set { s with allocs := s.allocs + 1 }
  pure (if m.kcalloc s.allocs then some s.allocs else none)

def fillBuffers (m : Platform w) (i : Nat) (ch : IpaChannel w) (id : Nat) : Ipa w Unit := do
  match buildBuffList p m ch ch.ringSize.toNat 0 ch.buffMem with
  | .error e =>
    kfreeList (some { id, entries := [] } : Option (BuffList w))
    setPipe i fun pi => { pi with dataBuffList := none }
    throw e
  | .ok entries =>
    setPipe i fun pi =>
      { pi with dataBuffList := some { id, entries }, dataBuffListSize := .ofNat entries.length }
    if !m.halFillSi ch then
      -- the pointer is left in the description
      kfreeList (some { id, entries })
      throw .inval

def iossIpaFillPipeInfo (m : Platform w) (i : Nat) (ch : IpaChannel w) : Ipa w Unit := do
  setPipe i fun pi => { pi with dir := ch.direction }
  match ch.descMem with
  | [] => throw .inval
  | desc :: _ =>
    setPipe i fun pi => { pi with isTransferRingValid := true }
    let pa := ch.descPa desc
    if pa = 0 then throw .inval
    let iova := remapIova p desc.daddr pa
    if iova > dmaAddr w p.iovaCeiling then throw (.other 34)
    setPipe i fun pi =>
      { pi with
        transferRingBase := iova, transferRingSize := .ofNat desc.size, dataBuffListSize := ch.ringSize }
    match ← kcallocList m with
    | none =>
      setPipe i fun pi => { pi with dataBuffList := none }
      throw .inval
    | some id =>
      setPipe i fun pi => { pi with dataBuffList := some { id, entries := [] }, fixBufferSize := ch.buffSize }
      fillBuffers p m i ch id

-- ---------------------------------------------------------------------------
-- The preflight
-- ---------------------------------------------------------------------------

def preflightBuffers (pi : PipeInfo w) : List (BuffMap w) → Option Errno
  | [] => none
  | b :: bs =>
    let size := dmaAddr w pi.fixBufferSize
    if b.iova = 0 ∨ b.pa = 0 then some .inval
    else if b.iova > dmaAddr w p.iovaCeiling then some (.other 34)
    else if ¬ (b.iova + size ≤ pi.transferRingBase ∨
        b.iova ≥ pi.transferRingBase + dmaAddr w pi.transferRingSize) then some .inval
    else preflightBuffers pi bs

/-- What is wrong with a description; misalignment of buffers and sizes that are
not powers of two are only warned of. -/
def iossIpaPreflightPipe (pi : PipeInfo w) : Option Errno :=
  if !pi.isTransferRingValid then some .inval
  else if pi.transferRingBase = 0 ∨ pi.transferRingSize = 0 then some .inval
  else
    let rc : Option Errno :=
      if p.trbAlign ≠ 0 ∧ pi.transferRingBase &&& (dmaAddr w p.trbAlign - 1) ≠ 0 then some .inval else none
    match pi.dataBuffList with
    | none => some .inval
    | some list =>
      if pi.dataBuffListSize = 0 ∨ pi.fixBufferSize = 0 then some .inval
      else (preflightBuffers p pi (list.entries.take pi.dataBuffListSize.toNat)).or rc

def iossIpaPreflightClient (pipes : List (PipeInfo w)) : Option Errno :=
  let rc := pipes.foldl (fun rc pi => (iossIpaPreflightPipe p pi).or rc) none
  let tx := pipes.countP (·.dir = .tx)
  let rx := pipes.countP (·.dir = .rx)
  if tx = 0 ∨ rx = 0 then rc.or (some .inval) else rc

-- ---------------------------------------------------------------------------
-- Registering
-- ---------------------------------------------------------------------------

def fillPipes (m : Platform w) (i : Nat) : List (IpaChannel w) → Ipa w Unit
  | [] => pure ()
  | ch :: chs => do
    setPipe i fun pi => { pi with clientInfo := true }
    iossIpaFillPipeInfo p m i ch
    setPipe i fun pi => { pi with link := true }
    fillPipes m (i + 1) chs

def errIossPipeInfo : Ipa w Unit := do
  modify fun s => { s with cleared := true }
  throw .inval

/-- Label `err_ipa_conn_pipes`: free every list and zero every description. -/
def errIpaConnPipes : Ipa w Unit := do
  modify fun s =>
    { s with
      freed := s.freed ++ s.pipes.filterMap fun pi => pi.dataBuffList.map (·.id)
      pipes := s.pipes.map fun _ => {} }
  errIossPipeInfo

def iossIpaRegister (m : Platform w) (chs : List (IpaChannel w)) : Ipa w Unit := do
  if p.skipIpaRegister then return ()
  modify fun s => { s with cleared := false }
  if !m.ctype then throw .fault
  tryCatch (fillPipes p m 0 chs) fun _ => errIossPipeInfo
  let s ← get
  if (iossIpaPreflightClient p s.pipes).isSome && p.preflightStrict then errIpaConnPipes
  else if p.preflightOnly then errIpaConnPipes
  else if p.skipConnPipes then errIpaConnPipes
  else do
    set { s with connected := some s.pipes }
    if !m.connPipes s.pipes then errIpaConnPipes
    else if !m.voteBw then errIpaConnPipes
    else if !m.regIntf then errIpaConnPipes

end

end IpaOffload.Ioss
