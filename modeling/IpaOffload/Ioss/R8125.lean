import IpaOffload.Ioss.Ipa
import IpaOffload.Ioss.Net

/-!
# `r8125_ioss`: the operations of the RTL8125

The driver's operations, over the rings of `r8125_lib`. Five diagnostic gates
make an operation report success without doing anything. `held` follows what
has really been acquired; it is not part of the driver. A release of what is
not held, and a NULL pointer that is followed, are recorded as faults.
-/

namespace IpaOffload.Ioss

open DeviceTree Fallible

-- ---------------------------------------------------------------------------
-- Resources and faults
-- ---------------------------------------------------------------------------

/-- What is acquired and released. `ringMem` is the memory of a ring that is
being requested. -/
inductive Resource
  | ring
  | ringMem
  | event
  | eventEnable
  | channel
  | pipes
  | intf
  | device
  deriving DecidableEq, Repr

inductive Fault
  | notHeld (r : Resource)
  | nullRing
  | nullPrivate
  deriving DecidableEq, Repr

structure Ring (w : Nat) where
  ringSize : UInt32 := 0
  buffSize : UInt32 := 0
  desc : Mem w := { addr := 0, size := 0, daddr := 0 }
  bufs : List (Mem w) := []
  enabled : Bool := false
  eventAllocated : Bool := false
  eventEnabled : Bool := false

/-- What the operations change of a channel: `ring` is `ch->private`. -/
structure R8125Channel (w : Nat) where
  ring : Option (Ring w) := none
  descMem : List (Mem w) := []
  buffMem : List (Mem w) := []
  eventDaddr : BitVec w := 0
  held : Resource → Bool := fun _ => false
  faults : List Fault := []

abbrev R8125 (w : Nat) := Fallible Errno (R8125Channel w)

/-- The gates as the operations read them, and the answers of the kernel and
the library while one channel is brought up or down. -/
structure R8125Env (w : Nat) where
  skipRequestChannel : Bool := false
  skipRequestEvent : Bool := false
  skipEnableEvent : Bool := false
  skipEnableChannel : Bool := false
  /-- The first ring of the library that is not allocated, as its last user left it. -/
  freeRing : Option (Ring w) := some {}
  bufTable : Bool := true
  descAlloc : Option (Nat × BitVec w) := none
  buffAlloc : Option (Nat × BitVec w) := none
  /-- The size of a descriptor. -/
  descLength : Nat := 16
  addDescMem : Option Errno := none
  addBuffMem : Nat → Option Errno := fun _ => none
  mapEvent : Option (BitVec w) := none

variable {w : Nat}

def acquire (r : Resource) : R8125 w Unit := modify fun s => { s with held := Function.update s.held r true }

def drop (r : Resource) : R8125 w Unit := modify fun s => { s with held := Function.update s.held r false }

def fault (f : Fault) : R8125 w Unit := modify fun s => { s with faults := s.faults ++ [f] }

def need (r : Resource) : R8125 w Unit := do
  let s ← get
  if !s.held r then fault (.notHeld r)

def derefRing : R8125 w (Ring w) := do
  let s ← get
  match s.ring with
  | some ring => return ring
  | none =>
    fault .nullRing
    throw .fault

def setRing (ring : Option (Ring w)) : R8125 w Unit := modify fun s => { s with ring }

-- ---------------------------------------------------------------------------
-- Rings
-- ---------------------------------------------------------------------------

section
variable (env : R8125Env w)

def contigBufs (base : Nat) (dma : BitVec w) (ringSize buffSize : UInt32) : List (Mem w) :=
  (List.range ringSize.toNat).map fun i =>
    { addr := base + i * buffSize.toNat, size := buffSize.toNat
      daddr := dma + BitVec.ofNat w (i * buffSize.toNat) }

def rtl8125AllocRingMem (ring : Ring w) : Option (Ring w) :=
  if !env.bufTable then none
  else
    match env.descAlloc, env.buffAlloc with
    | some (descAddr, descDaddr), some (base, dma) =>
      some
        { ring with
          desc := { addr := descAddr, size := ring.ringSize.toNat * env.descLength, daddr := descDaddr }
          bufs := contigBufs base dma ring.ringSize ring.buffSize }
    | _, _ => none

/-- Both failures end in `rtl8125_free_ring_mem`: of no ring, and of a ring whose
memory is freed already. -/
def rtl8125RequestRing (ringSize buffSize : UInt32) : R8125 w (Ring w) := do
  match env.freeRing with
  | none =>
    fault .nullRing
    throw .fault
  | some ring =>
    match rtl8125AllocRingMem env { ring with ringSize, buffSize } with
    | none =>
      fault (.notHeld .ringMem)
      throw .fault
    | some ring =>
      acquire .ring
      return ring

def rtl8125ReleaseRing : R8125 w Unit := drop .ring

def addMems : (i : Nat) → List (Mem w) → R8125 w Unit
  | _, [] => return ()
  | i, mem :: mems => do
    match env.addBuffMem i with
    | some e => throw e
    | none =>
      modify fun s => { s with buffMem := s.buffMem ++ [mem] }
      addMems (i + 1) mems

/-- `ioss_channel_del_desc_mem` and `ioss_channel_del_buff_mem` of a ring. -/
def delMems (ring : Ring w) : R8125 w Unit :=
  modify fun s =>
    { s with
      descMem := s.descMem.filter fun mem => mem.addr ≠ ring.desc.addr
      buffMem := s.buffMem.filter fun mem => mem.addr ∉ ring.bufs.map (·.addr) }

def r8125IossRequestChannel (ch : NetChannel (R8125Channel w)) : R8125 w Unit := do
  if env.skipRequestChannel then setRing none
  else
    let ring ← rtl8125RequestRing env ch.config.ringSize ch.config.buffSize
    match env.addDescMem with
    | some e =>
      rtl8125ReleaseRing
      setRing none
      throw e
    | none =>
      modify fun s => { s with descMem := s.descMem ++ [ring.desc] }
      tryCatch (addMems env 0 ring.bufs) fun e => do
        delMems ring
        rtl8125ReleaseRing
        setRing none
        throw e
      setRing (some ring)

def r8125IossReleaseChannel : R8125 w Unit := do
  need .ring
  let ring ← derefRing
  delMems ring
  rtl8125ReleaseRing
  setRing none

/-- `rtl8125_enable_ring` refuses a NULL ring. -/
def r8125IossEnableChannel : R8125 w Unit := do
  if env.skipEnableChannel then return ()
  match (← get).ring with
  | none => throw .inval
  | some ring =>
    setRing (some { ring with enabled := true })
    acquire .channel

/-- `rtl8125_disable_ring` does nothing with a NULL ring. -/
def r8125IossDisableChannel : R8125 w Unit := do
  need .channel
  match (← get).ring with
  | none => return ()
  | some ring =>
    setRing (some { ring with enabled := false })
    drop .channel

-- ---------------------------------------------------------------------------
-- Events
-- ---------------------------------------------------------------------------

def iossChannelMapEvent : R8125 w Unit := do
  if (← get).eventDaddr ≠ 0 then throw (.other 17)
  match env.mapEvent with
  | none => throw .fault
  | some daddr => modify fun s => { s with eventDaddr := daddr }

def iossChannelUnmapEvent : R8125 w Unit := modify fun s => { s with eventDaddr := 0 }

/-- The moderation that follows cannot fail once the event is allocated. -/
def rtl8125RequestEvent : R8125 w Unit := do
  match (← get).ring with
  | none => throw .inval
  | some ring =>
    if ring.eventAllocated then throw (.other 17)
    setRing (some { ring with eventAllocated := true })
    acquire .event

def r8125IossRequestEvent : R8125 w Unit := do
  if env.skipRequestEvent then return ()
  tryCatch (iossChannelMapEvent env) fun _ => throw .fault
  tryCatch rtl8125RequestEvent fun _ => do
    iossChannelUnmapEvent
    throw .fault

def r8125IossReleaseEvent : R8125 w Unit := do
  need .event
  let ring ← derefRing
  setRing (some { ring with eventAllocated := false })
  iossChannelUnmapEvent
  drop .event

def r8125IossEnableFilters (ch : NetChannel (R8125Channel w)) : Bool :=
  ch.filterTypes = 0 || (ch.direction = .rx && ch.filterTypes &&& ~~~rxfIp = 0)

def r8125IossDisableFilters (ch : NetChannel (R8125Channel w)) : Bool :=
  ch.filterTypes = 0 || ch.direction = .rx

def r8125IossEnableEvent (ch : NetChannel (R8125Channel w)) : R8125 w Unit := do
  if env.skipEnableEvent then return ()
  let ring ← derefRing
  if !ring.eventAllocated then throw .inval
  setRing (some { ring with eventEnabled := true })
  acquire .eventEnable
  if !r8125IossEnableFilters ch then
    setRing (some { ring with eventEnabled := false })
    drop .eventEnable
    throw .fault

def r8125IossDisableEvent (ch : NetChannel (R8125Channel w)) : R8125 w Unit := do
  need .eventEnable
  if !r8125IossDisableFilters ch then throw .fault
  let ring ← derefRing
  if !ring.eventAllocated then throw .inval
  setRing (some { ring with eventEnabled := false })
  drop .eventEnable

def r8125IossOps : ChannelOps (R8125Channel w) where
  requestChannel ch := exec (r8125IossRequestChannel env ch) ch.driven
  releaseChannel ch := exec r8125IossReleaseChannel ch.driven
  enableChannel ch := exec (r8125IossEnableChannel env) ch.driven
  disableChannel ch := exec r8125IossDisableChannel ch.driven
  requestEvent ch := exec (r8125IossRequestEvent env) ch.driven
  releaseEvent ch := exec r8125IossReleaseEvent ch.driven
  enableEvent ch := exec (r8125IossEnableEvent env ch) ch.driven
  disableEvent ch := exec (r8125IossDisableEvent ch) ch.driven

end

def OnChannel.toIpa (k : AddressMap) (s : OnChannel (R8125Channel w)) : IpaChannel w where
  direction := s.ch.direction
  ringSize := s.ch.config.ringSize
  buffSize := s.ch.config.buffSize
  descPa mem := (s.ch.config.descAlctr.getD .default).pa k s.tcm mem.addr
  buffPa mem := (s.ch.config.buffAlctr.getD .default).pa k s.tcm mem.addr
  descMem := s.ch.driven.descMem
  buffMem := s.ch.driven.buffMem

end IpaOffload.Ioss
