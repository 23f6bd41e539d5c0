import IpaOffload.Lib.Fallible
import IpaOffload.DeviceTree.Enabler

/-!
# `ioss_of`: the channels of a device

`ioss_of_parse` reads the channels of an interface from the device tree. A
channel node is looked for by its phandle, by the names of the device's
children and by their order, and for the RTL8125 there is a configuration
built in for when all of this fails. The state is that of the interface,
with what has been logged.
-/

namespace IpaOffload.Ioss

open DeviceTree

-- ---------------------------------------------------------------------------
-- Channels
-- ---------------------------------------------------------------------------

inductive Direction
  | rx
  | tx
  deriving DecidableEq, Repr

def rxfBe : UInt32 := 1

def rxfIp : UInt32 := 2

structure Channel where
  direction : Direction
  ringSize : UInt32
  buffSize : UInt32
  modCountMin : UInt32
  modCountMax : UInt32
  modUsecsMin : UInt32
  modUsecsMax : UInt32
  filterTypes : UInt32
  deriving DecidableEq, Repr

/-- What the parser is given: the results of its allocations, in order, the
node with a phandle, and the platform device of an IOSS root node. -/
structure Env where
  alloc : Nat → Bool
  byPhandle : Tree → UInt32 → Option Node
  pdevOf : Node → Option Nat

/-- `struct ioss_device`: its node, the ids of the PCI device behind it and the
platform device of its root. -/
structure Idev where
  np : Option Node
  pci : Option (UInt32 × UInt32)
  root : Nat

inductive Message
  | keyFailed (key : String)
  | notChannelNode (i : Nat) (name : String)
  | childFallback (i : Nat)
  | noFallback (i : Nat)
  | retry (i : Nat)
  | channelFailed (i : Nat)
  | builtIn
  | noRootProperty
  | noRootDevice
  | otherRoot
  deriving DecidableEq, Repr

structure Iface where
  channels : List Channel := []
  priv : Bool := false
  instanceId : UInt32 := 0
  wolPhy : Bool := false
  wolMagic : Bool := false
  allocs : Nat := 0
  log : List Message := []

abbrev Parse := Fallible Errno Iface

section
variable (env : Env)

def kzalloc : Parse Bool := do
  let s ← get
  set { s with allocs := s.allocs + 1 }
  pure (env.alloc s.allocs)

def say (message : Message) : Parse Unit := modify fun s => { s with log := s.log ++ [message] }

def iossOfFreeChannels : Parse Unit := modify fun s => { s with channels := [] }

def addChannel (ch : Channel) : Parse Unit := modify fun s => { s with channels := s.channels ++ [ch] }

-- ---------------------------------------------------------------------------
-- The built-in configuration
-- ---------------------------------------------------------------------------

def fallbackChannel : Direction → Channel
  | .rx =>
    { direction := .rx, ringSize := 1023, buffSize := 2048, modCountMin := 32, modCountMax := 64, modUsecsMin := 30,
      modUsecsMax := 60, filterTypes := rxfIp }
  | .tx =>
    { direction := .tx, ringSize := 1024, buffSize := 2048, modCountMin := 32, modCountMax := 64, modUsecsMin := 30,
      modUsecsMax := 60, filterTypes := 0 }

def iossOfAddFallbackChannel (direction : Direction) : Parse Unit := do
  if !(← kzalloc env) then throw .noMem
  if !(← kzalloc env) then throw .noMem
  addChannel (fallbackChannel direction)

def iossOfParseR8125Fallback : Parse Unit := do
  let priv ← kzalloc env
  modify fun s => { s with priv }
  if !priv then throw .noMem
  modify fun s => { s with instanceId := 0 }
  tryCatch
    (do
      iossOfAddFallbackChannel env .rx
      iossOfAddFallbackChannel env .tx
      say .builtIn)
    fun rc => do
      iossOfFreeChannels
      modify fun s => { s with priv := false }
      throw rc

def iossIsR8125PciDev (idev : Idev) : Bool := idev.pci = some (0x10ec, 0x8125)

-- ---------------------------------------------------------------------------
-- One channel
-- ---------------------------------------------------------------------------

/-- The error is the key to report. -/
def readKey (np : Node) (key : String) : Except (Option String) UInt32 :=
  match np.readU32 key with
  | some v => .ok v
  | none => .error (some key)

def readDirection (np : Node) : Except (Option String) Direction :=
  if np.has "qcom,dir-rx" then .ok .rx else if np.has "qcom,dir-tx" then .ok .tx else .error none

def readFilterTypes (np : Node) : UInt32 :=
  (if np.has "qcom,rx-filter-be" then rxfBe else 0) ||| (if np.has "qcom,rx-filter-ip" then rxfIp else 0)

def readChannel (np : Node) : Except (Option String) Channel := do
  let direction ← readDirection np
  let ringSize ← readKey np "qcom,ring-size"
  let buffSize ← readKey np "qcom,buff-size"
  let modCountMin ← readKey np "qcom,mod-count-min"
  let modCountMax ← readKey np "qcom,mod-count-max"
  let modUsecsMin ← readKey np "qcom,mod-usecs-min"
  let modUsecsMax ← readKey np "qcom,mod-usecs-max"
  return {
    direction, ringSize, buffSize, modCountMin, modCountMax, modUsecsMin, modUsecsMax,
    filterTypes := readFilterTypes np }

/-- The caller has made sure that there is a node. -/
def iossOfParseChannel (np : Node) : Parse Unit := do
  if !(← kzalloc env) then throw .noMem
  if !(← kzalloc env) then throw .noMem
  match readChannel np with
  | .error none => throw .inval
  | .error (some key) =>
    say (.keyFailed key)
    throw .inval
  | .ok ch => addChannel ch

/-- `strncmp(n->name, "channel-", 8)` is zero. -/
def isChannelNode (n : Node) : Bool := "channel-".toList.isPrefixOf n.name.toList

def fallbackName : Nat → Option String
  | 0 => some "channel-rx"
  | 1 => some "channel-tx"
  | _ => none

def iossOfFindFallbackChannel (t : Tree) (np : Node) (index : Nat) : Option Node :=
  match (fallbackName index).bind fun name => (t.children np.id).find? (·.nameEq name) with
  | some child => some child
  | none => ((t.children np.id).filter isChannelNode)[index]?

-- ---------------------------------------------------------------------------
-- The channels of a device
-- ---------------------------------------------------------------------------

def ofParsePhandle (t : Tree) (np : Node) (key : String) (index : Nat) : Option Node :=
  match (np.phandles key).bind (·[index]?) with
  | none => none
  | some phandle => if phandle = 0 then none else env.byPhandle t phandle

def channelByPhandle (t : Tree) (np : Node) (i : Nat) : Parse (Option Node) :=
  match ofParsePhandle env t np "qcom,ioss_channels" i with
  | none => pure none
  | some n =>
    if isChannelNode n then pure (some n)
    else do
      say (.notChannelNode i n.name)
      pure none

def parseOrFail (i : Nat) (n : Node) : Parse Unit :=
  tryCatch (iossOfParseChannel env n) fun _ => do
    say (.channelFailed i)
    throw .inval

/-- The loop body of `ioss_of_parse_v2`. -/
def parseEntry (t : Tree) (np : Node) (i : Nat) : Parse Unit := do
  match ← channelByPhandle env t np i with
  | none =>
    match iossOfFindFallbackChannel t np i with
    | none =>
      say (.noFallback i)
      throw .inval
    | some fallback =>
      say (.childFallback i)
      parseOrFail env i fallback
  | some n =>
    tryCatch (iossOfParseChannel env n) fun _ =>
      match iossOfFindFallbackChannel t np i with
      | some fallback =>
        if fallback.id ≠ n.id then do
          say (.retry i)
          parseOrFail env i fallback
        else do
          say (.channelFailed i)
          throw .inval
      | none => do
        say (.channelFailed i)
        throw .inval

def parseEntries (t : Tree) (np : Node) (i : Nat) : (count : Nat) → Parse Unit
  | 0 => pure ()
  | count + 1 => do
    parseEntry env t np i
    parseEntries t np (i + 1) count

def parseV2Body (t : Tree) (np : Node) : Parse Unit := do
  match np.readU32 "qcom,ioss_instance" with
  | none =>
    say (.keyFailed "qcom,ioss_instance")
    throw .inval
  | some instanceId => modify fun s => { s with instanceId }
  match np.phandles "qcom,ioss_channels" with
  | none =>
    say (.keyFailed "qcom,ioss_channels")
    throw .inval
  | some phandles => parseEntries env t np 0 phandles.length
  modify fun s =>
    { s with
      wolPhy := s.wolPhy || np.has "qcom,ioss-wol-phy"
      wolMagic := s.wolMagic || np.has "qcom,ioss-wol-magic" }

def iossOfParseV2 (t : Tree) (np : Node) : Parse Unit := do
  let priv ← kzalloc env
  modify fun s => { s with priv }
  if !priv then throw .noMem
  tryCatch (parseV2Body env t np) fun _ => do
    iossOfFreeChannels
    modify fun s => { s with priv := false }
    throw .inval

/-- `__ioss_of_parse`. -/
def parseMatch (t : Tree) (np : Node) : Parse Unit :=
  if np.compatible "qcom,ioss-v2-device" then iossOfParseV2 env t np else throw .inval

def iossOfParse (t : Tree) (idev : Idev) : Parse Unit := do
  match idev.np with
  | none => if iossIsR8125PciDev idev then iossOfParseR8125Fallback env else throw .inval
  | some np =>
    match ofParsePhandle env t np "qcom,ioss" 0 with
    | none =>
      if iossIsR8125PciDev idev then iossOfParseR8125Fallback env
      else do
        say .noRootProperty
        throw .noEnt
    | some ofRoot =>
      match env.pdevOf ofRoot with
      | none =>
        say .noRootDevice
        throw .fault
      | some pdev =>
        if idev.root ≠ pdev then do
          say .otherRoot
          throw .noEnt
        else
          tryCatch (parseMatch env t np) fun rc =>
            if iossIsR8125PciDev idev then iossOfParseR8125Fallback env else throw rc

end

end IpaOffload.Ioss
