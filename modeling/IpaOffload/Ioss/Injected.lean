import IpaOffload.DeviceTree.EnablerLaws
import IpaOffload.Ioss.OfLaws

/-!
# The enabler's nodes and the parser

The parser takes a phandle's node for a channel only if its name begins with
`channel-`; failing that it wants a child of the device to stand in for it.
The enabler names its nodes `r8125_rx` and `r8125_tx` and gives the device no
children, so its channels are never the ones that are used.
-/

namespace IpaOffload.Ioss

open DeviceTree Fallible

variable (env : Env) (t : Tree)

/-- The `qcom,ioss_channels` of a device resolve to these nodes, which store
these channels. -/
structure Resolves (np : Node) (nodes : List Node) (chs : List Channel) : Prop where
  phandles : ∃ hs, np.phandles "qcom,ioss_channels" = some hs ∧ hs.length = nodes.length
  resolve : ∀ i n, nodes[i]? = some n → ofParsePhandle env t np "qcom,ioss_channels" i = some n
  stores : List.Forall₂ Stores nodes chs

structure Bound (idev : Idev) (np : Node) : Prop where
  root : ∃ root, ofParsePhandle env t np "qcom,ioss" 0 = some root ∧ env.pdevOf root = some idev.root
  compatible : np.compatible "qcom,ioss-v2-device" = true
  instanceId : (np.readU32 "qcom,ioss_instance").isSome = true

/-- Entry `i` is read from its node, or from a child that stores the same. -/
def Accepted (np : Node) (i : Nat) (n : Node) (ch : Channel) : Prop :=
  isChannelNode n = true ∨ ∃ child, iossOfFindFallbackChannel t np i = some child ∧ Stores child ch

variable {env t}

theorem pick_eq_some {np n : Node} {i : Nat} {ch : Channel}
    (hn : ofParsePhandle env t np "qcom,ioss_channels" i = some n) (hs : Stores n ch) :
    pick env t np i = some ch ↔ Accepted t np i n ch := by
  have hread := toOption_readChannel.mpr hs
  unfold pick Accepted
  rw [hn]
  by_cases hname : isChannelNode n = true
  · simp only [hname, ↓reduceIte, hread, Option.some_or, true_or]
  · simp only [hname, Bool.false_eq_true, ↓reduceIte, false_or, childChannel, Option.bind_eq_some_iff,
      toOption_readChannel]

theorem picks_eq_some {np : Node} {nodes : List Node} {chs : List Channel} {i : Nat}
    (hs : List.Forall₂ Stores nodes chs)
    (hn : ∀ j n, nodes[j]? = some n → ofParsePhandle env t np "qcom,ioss_channels" (i + j) = some n) :
    picks env t np i nodes.length = some chs ↔
      ∀ j n ch, nodes[j]? = some n → chs[j]? = some ch → Accepted t np (i + j) n ch := by
  induction hs generalizing i with
  | nil => simp [picks]
  | @cons n ch nodes chs hst hrest ih =>
    have hhead : pick env t np i = some ch ↔ Accepted t np i n ch := pick_eq_some (hn 0 n rfl) hst
    have htail := ih (i := i + 1) fun j m hj => by
      have := hn (j + 1) m hj
      rwa [Nat.add_comm j 1, ← Nat.add_assoc] at this
    have hcons : picks env t np i (n :: nodes).length = some (ch :: chs) ↔
        pick env t np i = some ch ∧ picks env t np (i + 1) nodes.length = some chs := by
      simp only [List.length_cons, picks, Option.bind_eq_some_iff, Option.map_eq_some_iff, List.cons.injEq]
      constructor
      · rintro ⟨_, hp, _, hps, rfl, rfl⟩
        exact ⟨hp, hps⟩
      · rintro ⟨hp, hps⟩
        exact ⟨ch, hp, chs, hps, rfl, rfl⟩
    rw [hcons, hhead, htail]
    constructor
    · rintro ⟨h₀, h⟩ j m c hm hc
      cases j with
      | zero =>
        cases hm
        cases hc
        exact h₀
      | succ j =>
        have := h j m c hm hc
        rwa [Nat.add_assoc, Nat.add_comm 1 j] at this
    · intro h
      refine ⟨h 0 n ch rfl rfl, fun j m c hm hc => ?_⟩
      have := h (j + 1) m c hm hc
      rwa [Nat.add_comm j 1, ← Nat.add_assoc] at this

theorem parsesTo_resolved {idev : Idev} {np : Node} {nodes : List Node} {chs : List Channel}
    (hnp : idev.np = some np) (h : Resolves env t np nodes chs) :
    ParsesTo env.unfailing t idev chs ↔
      Bound env t idev np ∧
        ∀ i n ch, nodes[i]? = some n → chs[i]? = some ch → Accepted t np i n ch := by
  obtain ⟨hs, hphandles, hlen⟩ := h.phandles
  have hpicks := picks_eq_some (i := 0) h.stores (fun j n hj => by rw [Nat.zero_add]; exact h.resolve j n hj)
  simp only [Nat.zero_add] at hpicks
  rw [parsesTo_iff, ← hpicks]
  unfold dtChannels nodeChannels
  rw [hnp, Option.bind_some, hphandles]
  simp only [Option.bind_some, Option.bind_eq_some_iff, hlen]
  constructor
  · rintro ⟨root, hroot, hif⟩
    split at hif
    · rename_i hcond
      obtain ⟨v, hv, hp⟩ := Option.bind_eq_some_iff.mp hif
      exact ⟨⟨⟨root, hroot, hcond.1⟩, hcond.2, by rw [hv]; rfl⟩, hp⟩
    · cases hif
  · rintro ⟨⟨⟨root, hroot, hpdev⟩, hcompat, hinst⟩, hp⟩
    obtain ⟨v, hv⟩ := Option.isSome_iff_exists.mp hinst
    refine ⟨root, hroot, ?_⟩
    rw [if_pos ⟨hpdev, hcompat⟩]
    exact Option.bind_eq_some_iff.mpr ⟨v, hv, hp⟩

-- ---------------------------------------------------------------------------
-- The injected nodes
-- ---------------------------------------------------------------------------

def rxChannel : Channel :=
  { direction := .rx, ringSize := 1024, buffSize := 2048, modCountMin := 32, modCountMax := 64, modUsecsMin := 30,
    modUsecsMax := 60, filterTypes := rxfIp }

def txChannel : Channel :=
  { direction := .tx, ringSize := 1024, buffSize := 2048, modCountMin := 32, modCountMax := 64, modUsecsMin := 30,
    modUsecsMax := 60, filterTypes := 0 }

section
variable (id : Nat) (parent rp soc : Node) (iossRoot iommuGroup : UInt32)

theorem find_draftOf (name unitName : String) (phandle : UInt32) (specs : List PropSpec) (key : String) :
    ((draftOf parent name unitName phandle specs).node id).find key =
      (specs.foldl (fun ps spec => putProp spec.property ps) []).find? (·.name = key) := rfl

theorem rxDraft_stores : Stores ((rxDraft soc).node id) rxChannel := by
  constructor <;>
    simp [rxDraft, rxChannel, Node.has, Node.readU32, find_draftOf, rxProps, channelProps, find_putProp,
      PropSpec.property, readBe32_be32_self, rxfIp]

theorem txDraft_stores : Stores ((txDraft soc).node id) txChannel := by
  constructor <;>
    simp [txDraft, txChannel, Node.has, Node.readU32, find_draftOf, txProps, channelProps, find_putProp,
      PropSpec.property, readBe32_be32_self]

theorem rtl8125Draft_phandles :
    ((rtl8125Draft rp iossRoot iommuGroup).node id).phandles "qcom,ioss_channels" =
      some [rtl8125PhandleRx, rtl8125PhandleTx] := by
  have hcells := cells_be32 [rtl8125PhandleRx, rtl8125PhandleTx]
  simp only [List.flatMap_cons, List.flatMap_nil, List.append_nil] at hcells
  simp [rtl8125Draft, Node.phandles, find_draftOf, rtl8125Props, find_putProp, PropSpec.property, hcells]

end

theorem loaded_nodes {k : Kernel} {pcieNode : Nat} {s s' : St} {rtl8125 tx rx : Node} {rest : List Node}
    (hload : exec (pcieAttachRuntimeNodes k pcieNode) s = (.ok (), s'))
    (hnodes : s'.tree.nodes = rtl8125 :: tx :: rx :: rest) (hlen : rest.length = s.tree.nodes.length) :
    ∃ soc rp iossRoot iommuGroup t₁ idRx idTx,
      rx = (rxDraft soc).node idRx ∧ tx = (txDraft soc).node idTx ∧
      s'.tree = Tree.attach t₁ (rtl8125Draft rp iossRoot iommuGroup) := by
  obtain ⟨soc, iossRoot, iommuGroup, rp, -, -, -, ⟨-, rfl⟩ | ⟨-, htree⟩⟩ := pcieAttachRuntimeNodes_ok hload
  · have hbad := congrArg List.length hnodes
    simp only [List.length_cons] at hbad
    omega
  · rw [htree] at hnodes
    unfold injected at htree hnodes
    simp only [Tree.attach, List.cons.injEq] at hnodes
    obtain ⟨-, htx, hrx, -⟩ := hnodes
    exact ⟨soc, rp, iossRoot.phandle, iommuGroup.phandle, _, _, _, hrx.symm, htx.symm, htree⟩

theorem attach_head {t t₁ : Tree} {d : Draft} {n : Node} {rest : List Node} (ht : t = t₁.attach d)
    (hn : t.nodes = n :: rest) : n = d.node (t₁.freshId d.parent) := by
  subst ht
  exact (List.cons.inj hn).1.symm

section
variable {k : Kernel} {pcieNode : Nat} {s s' : St} {rtl8125 tx rx : Node} {rest : List Node}
  (hload : exec (pcieAttachRuntimeNodes k pcieNode) s = (.ok (), s'))
  (hnodes : s'.tree.nodes = rtl8125 :: tx :: rx :: rest) (hlen : rest.length = s.tree.nodes.length)
  (hrx : env.byPhandle s'.tree rtl8125PhandleRx = some rx) (htx : env.byPhandle s'.tree rtl8125PhandleTx = some tx)
include hload hnodes hlen hrx htx

theorem loaded_resolves : Resolves env s'.tree rtl8125 [rx, tx] [rxChannel, txChannel] := by
  obtain ⟨soc, rp, iossRoot, iommuGroup, t₁, idRx, idTx, hrx', htx', htree⟩ := loaded_nodes hload hnodes hlen
  have hphandles : rtl8125.phandles "qcom,ioss_channels" = some [rtl8125PhandleRx, rtl8125PhandleTx] := by
    rw [attach_head htree hnodes]
    exact rtl8125Draft_phandles _ _ _ _
  have hne : rtl8125PhandleRx ≠ 0 ∧ rtl8125PhandleTx ≠ 0 := by decide
  refine ⟨⟨_, hphandles, rfl⟩, ?_, ?_⟩
  · intro i n hi
    unfold ofParsePhandle
    rw [hphandles]
    match i with
    | 0 =>
      cases hi
      simp only [Option.bind_some, List.getElem?_cons_zero, hne.1, if_false, hrx]
    | 1 =>
      cases hi
      simp only [Option.bind_some, List.getElem?_cons_succ, List.getElem?_cons_zero, hne.2, if_false, htx]
    | i + 2 => cases hi
  · subst hrx' htx'
    exact .cons (rxDraft_stores _ _) (.cons (txDraft_stores _ _) .nil)

omit hrx htx in
theorem loaded_not_accepted : ¬ Accepted s'.tree rtl8125 0 rx rxChannel := by
  obtain ⟨soc, rp, iossRoot, iommuGroup, t₁, idRx, idTx, hrx', -, htree⟩ := loaded_nodes hload hnodes hlen
  have hchildren : s'.tree.children rtl8125.id = [] := by
    rw [attach_head htree hnodes, htree]
    exact Tree.children_attach _ _
  rintro (hname | ⟨child, hchild, -⟩)
  · subst hrx'
    have hstart : ("channel-".toList.isPrefixOf "r8125_rx".toList) = false := by decide
    exact absurd (hstart.symm.trans hname) nofun
  · unfold iossOfFindFallbackChannel at hchild
    rw [hchildren] at hchild
    cases hchild

end

/-- The channels are those of the nodes the phandles resolve to exactly when
the device is bound and every node has a channel's name or a child that stores
the same; the nodes of the enabler never are. -/
theorem channels_read_from_nodes_iff (env : Env) (idev : Idev) :
    (∀ (t : Tree) (np : Node) (nodes : List Node) (chs : List Channel),
      idev.np = some np → Resolves env t np nodes chs →
        (ParsesTo env.unfailing t idev chs ↔
          Bound env t idev np ∧
            ∀ i n ch, nodes[i]? = some n → chs[i]? = some ch → Accepted t np i n ch)) ∧
    (∀ (k : Kernel) (pcieNode : Nat) (s s' : St) (rtl8125 tx rx : Node) (rest : List Node),
      exec (pcieAttachRuntimeNodes k pcieNode) s = (.ok (), s') →
      s'.tree.nodes = rtl8125 :: tx :: rx :: rest → rest.length = s.tree.nodes.length →
      env.byPhandle s'.tree rtl8125PhandleRx = some rx → env.byPhandle s'.tree rtl8125PhandleTx = some tx →
      idev.np = some rtl8125 →
        Resolves env s'.tree rtl8125 [rx, tx] [rxChannel, txChannel] ∧
          ¬ ParsesTo env.unfailing s'.tree idev [rxChannel, txChannel]) := by
  refine ⟨fun t np nodes chs => parsesTo_resolved, ?_⟩
  intro k pcieNode s s' rtl8125 tx rx rest hload hnodes hlen hrx htx hnp
  have hres := loaded_resolves hload hnodes hlen hrx htx
  refine ⟨hres, fun hparse => ?_⟩
  have haccepted := ((parsesTo_resolved hnp hres).mp hparse).2 0 rx rxChannel rfl rfl
  exact loaded_not_accepted hload hnodes hlen haccepted

-- ---------------------------------------------------------------------------
-- A tree the parser accepts, and a load
-- ---------------------------------------------------------------------------

def emptyTree : Tree := { nodes := [], next := 0, fresh := nofun, nodup := .nil }

/-- The node with a phandle that stands first. -/
def plainEnv : Env where
  alloc _ := true
  byPhandle t phandle := t.nodes.find? (·.phandle = phandle)
  pdevOf n := if n.name = "qcom,ioss" then some 0 else none

def bootDraft (parent : Nat) (name fullName : String) (phandle : UInt32) (specs : List PropSpec) : Draft :=
  { parent, name, fullName, phandle, props := specs.map PropSpec.property }

def rootDraft : Draft := bootDraft 0 "qcom,ioss" "/soc/qcom,ioss" 1 []

/-- A channel node with a channel's name, and one without. -/
def rxNodeDraft : Draft := bootDraft 0 "channel-rx" "/soc/channel-rx" 2 rxProps

def txNodeDraft : Draft := bootDraft 0 "r8125_tx" "/soc/r8125_tx" 3 txProps

def deviceDraft : Draft :=
  bootDraft 0 "realtek,rtl8125" "/soc/rp/realtek,rtl8125" 0
    [.string "compatible" "qcom,ioss-v2-device", .u32 "qcom,ioss_instance" 0, .u32 "qcom,ioss" 1,
      .u32Array "qcom,ioss_channels" [2, 3]]

def txChildDraft : Draft := bootDraft 4 "channel-tx" "/soc/rp/realtek,rtl8125/channel-tx" 0 txProps

def channelTree : Tree :=
  ((((emptyTree.attach rootDraft).attach rxNodeDraft).attach txNodeDraft).attach deviceDraft).attach txChildDraft

def deviceOf (np : Node) : Idev := { np := some np, pci := some (0x10ec, 0x8125), root := 0 }

theorem channelTree_resolves :
    Resolves plainEnv channelTree (deviceDraft.node 4) [rxNodeDraft.node 2, txNodeDraft.node 3]
      [rxChannel, txChannel] where
  phandles := ⟨[2, 3], by decide +kernel, rfl⟩
  resolve i n hi := by
    match i with
    | 0 =>
      cases hi
      decide +kernel
    | 1 =>
      cases hi
      decide +kernel
    | i + 2 => cases hi
  stores := by
    have hrx : (readChannel (rxNodeDraft.node 2)).toOption = some rxChannel := by decide +kernel
    have htx : (readChannel (txNodeDraft.node 3)).toOption = some txChannel := by decide +kernel
    exact .cons (toOption_readChannel.mp hrx) (.cons (toOption_readChannel.mp htx) .nil)

/-- The first channel is read from its node, the second one from the child. -/
theorem channels_read_from_nodes_iff_two :
    Resolves plainEnv channelTree (deviceDraft.node 4) [rxNodeDraft.node 2, txNodeDraft.node 3]
        [rxChannel, txChannel] ∧
      ParsesTo plainEnv.unfailing channelTree (deviceOf (deviceDraft.node 4)) [rxChannel, txChannel] := by
  refine ⟨channelTree_resolves, ?_⟩
  refine ((channels_read_from_nodes_iff plainEnv (deviceOf (deviceDraft.node 4))).1 channelTree (deviceDraft.node 4)
    [rxNodeDraft.node 2, txNodeDraft.node 3] [rxChannel, txChannel] rfl channelTree_resolves).mpr ⟨?_, ?_⟩
  · exact ⟨⟨rootDraft.node 1, by decide +kernel, by decide +kernel⟩, by decide +kernel, by decide +kernel⟩
  · intro i n ch hn hch
    match i with
    | 0 =>
      cases hn
      exact .inl (by decide +kernel)
    | 1 =>
      cases hch
      have hchild : (readChannel (txChildDraft.node 5)).toOption = some txChannel := by decide +kernel
      exact .inr ⟨txChildDraft.node 5, by decide +kernel, toOption_readChannel.mp hchild⟩
    | i + 2 => cases hn

def plainKernel : Kernel where
  alloc _ := true
  setProperty _ := none
  symbols := true
  findByPath t path := t.nodes.find? (·.fullName = path)

/-- A tree with what the enabler needs; the root complex is node 4. -/
def bootTree : Tree :=
  ((((emptyTree.attach (bootDraft 0 "soc" "/soc" 0 [])).attach rootDraft).attach
    (bootDraft 1 "ipa_eth_group1" "/soc/ipa_eth_group1" 3 [])).attach
    (bootDraft 1 "qcom,pcie" "/soc/qcom,pcie@1c00000" 0 [])).attach
    (bootDraft 4 "pcie0_rp" "/soc/qcom,pcie@1c00000/pcie0_rp" 0 [])

def load : Except Errno Unit × St :=
  exec (pcieAttachRuntimeNodes plainKernel 4) { tree := bootTree, allocs := 0, calls := 0 }

/-- The load succeeds, its RX node stores a ring of 1024, and the parser
answers with the built-in ring of 1023. -/
theorem injected_channels_replaced :
    load.1.isOk = true ∧
      ((load.2.tree.nodes[2]?).bind (·.readU32 "qcom,ring-size")) = some 1024 ∧
      ((load.2.tree.nodes[0]?).map fun np => (exec (iossOfParse plainEnv load.2.tree (deviceOf np)) {}).2.channels) =
        some [fallbackChannel .rx, fallbackChannel .tx] ∧
      (fallbackChannel .rx).ringSize = 1023 := by
  decide +kernel

end IpaOffload.Ioss
