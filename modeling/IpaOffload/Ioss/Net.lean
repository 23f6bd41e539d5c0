import IpaOffload.Lib.Fallible
import IpaOffload.Ioss.Of

/-!
# `ioss_net` and `ioss_mem`: bringing channels up and down

What `ioss_net` does with one channel: it chooses the channel's memory, has the
driver allocate, enable and release it, and keeps the flags. `D` is what the
driver's operations may change of a channel. The TCM is shared by all channels,
so every function runs over a channel together with it.
-/

namespace IpaOffload.Ioss

open DeviceTree Fallible

-- ---------------------------------------------------------------------------
-- Channels
-- ---------------------------------------------------------------------------

inductive Alctr
  | default
  | llcc
  deriving DecidableEq, Repr

/-- `struct ioss_channel_config`. The default is all zero. -/
structure ChannelConfig where
  ringSize : UInt32 := 0
  buffSize : UInt32 := 0
  descAlctr : Option Alctr := none
  buffAlctr : Option Alctr := none
  deriving DecidableEq, Repr

/-- `struct llcc_tcm_data`. -/
structure TcmData where
  memSize : Nat
  virtAddr : Nat
  physAddr : Nat
  deriving DecidableEq, Repr

/-- `struct ioss_channel`. `ioss_of` gives every channel the default allocator. -/
structure NetChannel (D : Type) where
  direction : Direction
  filterTypes : UInt32
  defaultConfig : ChannelConfig
  config : ChannelConfig := {}
  allocated : Bool := false
  enabled : Bool := false
  eventAllocated : Bool := false
  eventEnabled : Bool := false
  driven : D
  default_plain : defaultConfig.buffAlctr = some .default

variable {D : Type}

def Channel.toNet (ch : Channel) (driven : D) : NetChannel D where
  direction := ch.direction
  filterTypes := ch.filterTypes
  defaultConfig :=
    { ringSize := ch.ringSize, buffSize := ch.buffSize, descAlctr := some .default, buffAlctr := some .default }
  driven := driven
  default_plain := rfl

structure OnChannel (D : Type) where
  ch : NetChannel D
  tcm : Option TcmData

abbrev Net (D : Type) := Fallible Errno (OnChannel D)

/-- `struct ioss_driver_ops`, the part for channels. -/
structure ChannelOps (D : Type) where
  requestChannel : NetChannel D → Except Errno Unit × D
  releaseChannel : NetChannel D → Except Errno Unit × D
  enableChannel : NetChannel D → Except Errno Unit × D
  disableChannel : NetChannel D → Except Errno Unit × D
  requestEvent : NetChannel D → Except Errno Unit × D
  releaseEvent : NetChannel D → Except Errno Unit × D
  enableEvent : NetChannel D → Except Errno Unit × D
  disableEvent : NetChannel D → Except Errno Unit × D

def setCh (f : NetChannel D → NetChannel D) : Net D Unit := modify fun s => { s with ch := f s.ch }

def setConfig (f : NetChannel D → ChannelConfig) : Net D Unit := setCh fun ch => { ch with config := f ch }

/-- `ioss_dev_op`, of a driver that has the operation. -/
def iossDevOp (op : NetChannel D → Except Errno Unit × D) : Net D (Option Errno) := do
  let s ← get
  set { s with ch := { s.ch with driven := (op s.ch).2 } }
  match (op s.ch).1 with
  | .ok _ => return none
  | .error e => return some e

theorem exec_setCh (f : NetChannel D → NetChannel D) (s : OnChannel D) :
    exec (setCh f) s = (.ok (), { s with ch := f s.ch }) := rfl

theorem exec_setConfig (f : NetChannel D → ChannelConfig) (s : OnChannel D) :
    exec (setConfig f) s = (.ok (), { s with ch := { s.ch with config := f s.ch } }) := rfl

theorem exec_iossDevOp (op : NetChannel D → Except Errno Unit × D) (s : OnChannel D) :
    exec (iossDevOp op) s =
      (.ok (match (op s.ch).1 with | .ok _ => none | .error e => some e),
        { s with ch := { s.ch with driven := (op s.ch).2 } }) := by
  unfold iossDevOp
  rw [exec_bind_of_ok (exec_get s), exec_bind_of_ok (exec_set _ _)]
  cases (op s.ch).1 <;> rfl

-- ---------------------------------------------------------------------------
-- The memory of a channel
-- ---------------------------------------------------------------------------

/-- What a configuration is chosen by: `tcmActivate` is what
`llcc_tcm_activate` answers, if it is asked. -/
structure ConfigEnv where
  linkSpeed : UInt32
  maxDdrBandwidth : UInt32
  disableTcm : Bool
  tcmActivate : Option TcmData

def isPowerOf2 (n : UInt32) : Bool := n ≠ 0 && n &&& (n - 1) = 0

/-- The size asked for is not read. -/
def llccMemGet (env : ConfigEnv) : Net D Nat := do
  let s ← get
  if s.tcm.isSome then return 0
  match env.tcmActivate with
  | none => return 0
  | some data =>
    set { s with tcm := some data }
    return data.memSize

def llccMemPut : Net D Unit := modify fun s => { s with tcm := none }

/-- What the kernel knows of addresses: `pagePhys` is
`page_to_phys(vmalloc_to_page(addr))`, `physBits` the width of `phys_addr_t`
and `longBits` that of `uintptr_t`. -/
structure AddressMap where
  pagePhys : Nat → Nat
  pageSize : Nat
  physBits : Nat
  longBits : Nat

def defaultMemPa (k : AddressMap) (addr : Nat) : Nat := k.pagePhys addr ||| addr % k.pageSize

/-- How far an address is above the TCM, wrapping around below it. -/
def TcmData.offset (k : AddressMap) (data : TcmData) (addr : Nat) : Nat :=
  (addr + 2 ^ k.longBits - data.virtAddr) % 2 ^ k.longBits

def llccMemPa (k : AddressMap) (tcm : Option TcmData) (addr : Nat) : Nat :=
  match tcm with
  | none => 0
  | some data =>
    if data.virtAddr = 0 then 0 else (data.physAddr + data.offset k addr) % 2 ^ k.physBits

def Alctr.pa (k : AddressMap) (tcm : Option TcmData) : Alctr → Nat → Nat
  | .default => defaultMemPa k
  | .llcc => llccMemPa k tcm

def llccRingSize (memSize : Nat) (config : ChannelConfig) : UInt32 := .ofNat (memSize / config.buffSize.toNat)

def iossNetSelectLlccConfig (env : ConfigEnv) : Net D Unit := do
  if env.disableTcm then throw .noMem
  let memSize ← llccMemGet env
  if memSize = 0 then throw .noMem
  let s ← get
  let ringSize := llccRingSize memSize s.ch.config
  if !isPowerOf2 ringSize then throw .inval
  setConfig fun ch => { ch.config with ringSize, buffAlctr := some .llcc }

def ConfigEnv.wantsLlcc (env : ConfigEnv) (ch : NetChannel D) : Bool :=
  ch.direction = .tx && env.linkSpeed > env.maxDdrBandwidth

def iossNetSelectChannelConfig (env : ConfigEnv) : Net D Unit := do
  setConfig (·.defaultConfig)
  let s ← get
  if env.wantsLlcc s.ch then
    -- a failure is logged, and the default configuration stays
    tryCatch (iossNetSelectLlccConfig env) fun _ => return ()

def iossNetDeselectChannelConfig : Net D Unit := do
  let s ← get
  if s.ch.config.buffAlctr = some .llcc then llccMemPut
  setConfig (·.defaultConfig)

-- ---------------------------------------------------------------------------
-- Channels up and down
-- ---------------------------------------------------------------------------

section
variable (ops : ChannelOps D)

/-- `debugfs` is the answer of `ioss_debugfs_add_channel`. -/
def iossNetAllocChannel (env : ConfigEnv) (debugfs : Option Errno) : Net D Unit := do
  iossNetSelectChannelConfig env
  match ← iossDevOp ops.requestChannel with
  | some e =>
    iossNetDeselectChannelConfig
    throw e
  | none =>
    setCh fun ch => { ch with allocated := true }
    match debugfs with
    | none => return ()
    | some e =>
      let _ ← iossDevOp ops.releaseChannel
      setCh fun ch => { ch with allocated := false }
      iossNetDeselectChannelConfig
      throw e

def iossNetFreeChannel : Net D Unit := do
  match ← iossDevOp ops.releaseChannel with
  | some e => throw e
  | none =>
    setCh fun ch => { ch with allocated := false }
    iossNetDeselectChannelConfig

def iossNetEnableChannel : Net D Unit := do
  match ← iossDevOp ops.enableChannel with
  | some e =>
    let _ ← iossDevOp ops.releaseChannel
    throw e
  | none => setCh fun ch => { ch with enabled := true }

def iossNetDisableChannel : Net D Unit := do
  match ← iossDevOp ops.disableChannel with
  | some e => throw e
  | none => setCh fun ch => { ch with enabled := false }

def iossNetSetupEvent : Net D Unit := do
  match ← iossDevOp ops.requestEvent with
  | some e => throw e
  | none =>
    setCh fun ch => { ch with eventAllocated := true }
    match ← iossDevOp ops.enableEvent with
    | some e =>
      let _ ← iossDevOp ops.releaseEvent
      throw e
    | none => setCh fun ch => { ch with eventEnabled := true }

def iossNetTeardownEvent : Net D Unit := do
  let rc1 ← iossDevOp ops.disableEvent
  if rc1.isNone then setCh fun ch => { ch with eventEnabled := false }
  let rc2 ← iossDevOp ops.releaseEvent
  if rc2.isNone then setCh fun ch => { ch with eventAllocated := false }
  if rc1.isSome || rc2.isSome then throw .fault

end

end IpaOffload.Ioss
