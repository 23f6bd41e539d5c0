import IpaOffload.Lib.Fallible
import IpaOffload.DeviceTree.Tree

/-!
# `pcie_enabler_non_es_v1`: the runtime nodes

The module adds to the live tree what the boot image does not have: a node
for each of the two IPA channels of the RTL8125 under `/soc`, and the device
node that lists them. `Kernel` is what it runs on. Every allocation may fail,
and so may every call of `of_add_property` and `of_update_property`; one that
fails leaves the node as it was.
-/

namespace IpaOffload.DeviceTree

inductive Errno
  | noMem
  | noEnt
  | noDev
  | inval
  | fault
  | other (code : Nat)
  deriving DecidableEq, Repr

/-- Allocations and property calls are numbered in the order they are made. -/
structure Kernel where
  alloc : Nat → Bool
  setProperty : Nat → Option Errno
  /-- `of_add_property` and `of_update_property` have been looked up. -/
  symbols : Bool
  findByPath : Tree → String → Option Node

structure St where
  tree : Tree
  allocs : Nat
  calls : Nat

abbrev Enabler := Fallible Errno St

def rtl8125PhandleRx : UInt32 := 0x8125

def rtl8125PhandleTx : UInt32 := 0x8126

-- ---------------------------------------------------------------------------
-- Properties
-- ---------------------------------------------------------------------------

section
variable (k : Kernel)

def kalloc : Enabler Bool := do
  let s ← get
  set { s with allocs := s.allocs + 1 }
  pure (k.alloc s.allocs)

def pcieAllocProperty (name : String) (value : Bytes) : Enabler (Option Property) := do
  if !(← kalloc k) then return none
  if !(← kalloc k) then return none
  if 0 < value.length then
    if !(← kalloc k) then return none
  return some { name, value }

def pcieAllocBoolProperty (name : String) : Enabler (Option Property) := pcieAllocProperty k name []

def pcieAllocStringProperty (name value : String) : Enabler (Option Property) :=
  pcieAllocProperty k name (cString value)

def pcieAllocU32Property (name : String) (value : UInt32) : Enabler (Option Property) :=
  pcieAllocProperty k name (be32 value)

def pcieAllocU32ArrayProperty (name : String) (values : List UInt32) : Enabler (Option Property) := do
  if !(← kalloc k) then return none
  pcieAllocProperty k name (values.flatMap be32)

def pcieAllocStringListProperty (name : String) (values : List String) : Enabler (Option Property) := do
  if !(← kalloc k) then return none
  pcieAllocProperty k name (values.flatMap cString)

inductive PropSpec
  | bool (name : String)
  | string (name value : String)
  | u32 (name : String) (value : UInt32)
  | u32Array (name : String) (values : List UInt32)
  | stringList (name : String) (values : List String)

def PropSpec.alloc : PropSpec → Enabler (Option Property)
  | .bool name => pcieAllocBoolProperty k name
  | .string name value => pcieAllocStringProperty k name value
  | .u32 name value => pcieAllocU32Property k name value
  | .u32Array name values => pcieAllocU32ArrayProperty k name values
  | .stringList name values => pcieAllocStringListProperty k name values

/-- `pcie_set_property`; `put` is what the call does to the node. -/
def pcieSetProperty (prop : Option Property) (put : Property → Enabler α) : Enabler α := do
  match prop with
  | none => throw .noMem
  | some prop =>
    if !k.symbols then throw .noEnt
    let s ← get
    set { s with calls := s.calls + 1 }
    match k.setProperty s.calls with
    | some e => throw e
    | none => put prop

def setProperties (d : Draft) : List PropSpec → Enabler Draft
  | [] => pure d
  | spec :: specs => do
    let prop ← spec.alloc k
    let d ← pcieSetProperty k prop fun p => pure (d.put p)
    setProperties d specs

-- ---------------------------------------------------------------------------
-- Nodes
-- ---------------------------------------------------------------------------

def pcieAllocNode (parent : Node) (name unitName : String) (phandle : UInt32) : Enabler (Option Draft) := do
  if !(← kalloc k) then return none
  if !(← kalloc k) then return none
  if !(← kalloc k) then return none
  return some { parent := parent.id, name, fullName := parent.fullName ++ "/" ++ unitName, phandle, props := [] }

def pcieAttachNode (d : Draft) : Enabler Unit := modify fun s => { s with tree := s.tree.attach d }

def pcieFindChildByName (t : Tree) (parent : Nat) (name : String) : Option Node :=
  (t.children parent).find? (·.name = name)

def channelProps : List PropSpec :=
  [.u32 "qcom,ring-size" 1024, .u32 "qcom,buff-size" 2048, .u32 "qcom,mod-count-min" 32,
    .u32 "qcom,mod-count-max" 64, .u32 "qcom,mod-usecs-min" 30, .u32 "qcom,mod-usecs-max" 60]

def rxProps : List PropSpec :=
  [.u32 "phandle" rtl8125PhandleRx, .u32 "linux,phandle" rtl8125PhandleRx, .string "name" "r8125_rx",
    .bool "qcom,dir-rx", .bool "qcom,rx-filter-ip"] ++ channelProps

def txProps : List PropSpec :=
  [.u32 "phandle" rtl8125PhandleTx, .u32 "linux,phandle" rtl8125PhandleTx, .string "name" "r8125_tx",
    .bool "qcom,dir-tx"] ++ channelProps

def rtl8125Props (iossRoot iommuGroup : UInt32) : List PropSpec :=
  [.string "compatible" "qcom,ioss-v2-device", .string "name" "realtek,rtl8125", .u32Array "reg" [0, 0, 0, 0, 0],
    .stringList "pci-ids" ["10ec:8125", "10ec:3000"], .u32 "qcom,ioss_instance" 0, .u32 "qcom,ioss" iossRoot,
    .u32 "qcom,iommu-group" iommuGroup, .u32Array "qcom,ioss_channels" [rtl8125PhandleRx, rtl8125PhandleTx]]

def runtimeNodesPresent (t : Tree) (soc rp : Nat) : Bool :=
  (pcieFindChildByName t soc "r8125_rx").isSome && (pcieFindChildByName t soc "r8125_tx").isSome &&
    (pcieFindChildByName t rp "realtek,rtl8125").isSome

/-- The part of `pcie_attach_runtime_nodes` after its lookups. -/
def attachRuntimeNodes (pcieNode : Nat) (soc iossRoot iommuGroup rp : Node) : Enabler Unit := do
  let status ← pcieAllocStringProperty k "status" "okay"
  pcieSetProperty k status fun p => modify fun s => { s with tree := s.tree.put pcieNode p }
  let rx ← pcieAllocNode k soc "r8125_rx" "r8125_rx@eth0" rtl8125PhandleRx
  let tx ← pcieAllocNode k soc "r8125_tx" "r8125_tx@eth0" rtl8125PhandleTx
  let rtl8125 ← pcieAllocNode k rp "realtek,rtl8125" "realtek,rtl8125@0,0" 0
  match rx, tx, rtl8125 with
  | some rx, some tx, some rtl8125 =>
    let rx ← setProperties k rx rxProps
    let tx ← setProperties k tx txProps
    let rtl8125 ← setProperties k rtl8125 (rtl8125Props iossRoot.phandle iommuGroup.phandle)
    pcieAttachNode rx
    pcieAttachNode tx
    pcieAttachNode rtl8125
  | _, _, _ => throw .noMem

def pcieAttachRuntimeNodes (pcieNode : Nat) : Enabler Unit := do
  let t := (← get).tree
  match k.findByPath t "/soc", k.findByPath t "/soc/qcom,ioss", k.findByPath t "/soc/ipa_eth_group1",
    pcieFindChildByName t pcieNode "pcie0_rp" with
  | some soc, some iossRoot, some iommuGroup, some rp =>
    if runtimeNodesPresent t soc.id rp.id then pure ()
    else attachRuntimeNodes k pcieNode soc iossRoot iommuGroup rp
  | _, _, _, _ => throw .noDev

end

-- ---------------------------------------------------------------------------
-- Loading and unloading
-- ---------------------------------------------------------------------------

/-- What loading the module depends on besides: the address it is given, the
symbols that can be found with it, and `of_find_compatible_node`. -/
structure Boot where
  kernel : Kernel
  kallsymsLookupNameAddr : Bool
  lookup : String → Bool
  findCompatible : Tree → String → Option Node

def pcieResolveSymbols (b : Boot) : Enabler Unit := do
  if !b.kallsymsLookupNameAddr then throw .inval
  if !(b.lookup "of_mutex" && b.lookup "devtree_lock" && b.lookup "of_add_property" &&
      b.lookup "of_update_property") then throw .noEnt

def Boot.rootComplex (b : Boot) (t : Tree) : Option Node :=
  b.kernel.findByPath t "/soc/qcom,pcie@1c00000" <|> b.findCompatible t "qcom,pci-msm" <|>
    b.findCompatible t "qcom,pcie-sdx65" <|> b.findCompatible t "qcom,pcie-sdx62" <|>
    b.findCompatible t "snps,dw-pcie"

/-- What follows the nodes (the platform device, the PMDS pass) leaves the tree
alone and cannot make the load fail. -/
def pcieEnablerNonEsInit (b : Boot) : Enabler Unit := do
  pcieResolveSymbols b
  match b.rootComplex (← get).tree with
  | none => throw .noDev
  | some pcieNode => pcieAttachRuntimeNodes { b.kernel with symbols := true } pcieNode.id

/-- Unloading takes no node out of the tree. -/
def pcieEnablerNonEsExit : Enabler Unit := pure ()

end IpaOffload.DeviceTree
