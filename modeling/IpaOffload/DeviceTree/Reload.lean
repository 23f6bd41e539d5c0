import IpaOffload.DeviceTree.FailedLoad
import IpaOffload.Lib.Runs

/-!
# Loading and unloading again

Unloading the module leaves its nodes in the tree, so a later load meets them.
It attaches all three nodes unless all three are there, and it attaches them
together. What a run of loads and unloads can make of the tree is therefore a
matter of how many of each there were at the start.
-/

namespace IpaOffload.DeviceTree

open Fallible Runs

-- ---------------------------------------------------------------------------
-- Runs
-- ---------------------------------------------------------------------------

structure Lookups where
  findByPath : Tree → String → Option Node
  findCompatible : Tree → String → Option Node

structure Failures where
  alloc : Nat → Bool
  setProperty : Nat → Option Errno
  kallsymsLookupNameAddr : Bool
  lookup : String → Bool

def Lookups.boot (L : Lookups) (f : Failures) : Boot where
  kernel := { alloc := f.alloc, setProperty := f.setProperty, symbols := true, findByPath := L.findByPath }
  kallsymsLookupNameAddr := f.kallsymsLookupNameAddr
  lookup := f.lookup
  findCompatible := L.findCompatible

def Lookups.rootComplex (L : Lookups) (t : Tree) : Option Node :=
  (L.boot ⟨fun _ => true, fun _ => none, true, fun _ => true⟩).rootComplex t

inductive Action
  | load (f : Failures)
  | unload

structure Machine where
  tree : Tree
  loaded : Bool

/-- `insmod` of a module that is loaded is refused, and so is `rmmod` of one
that is not. -/
def moduleStep (L : Lookups) (m : Machine) : Action → Machine
  | .load f =>
    if m.loaded then m
    else
      let r := exec (pcieEnablerNonEsInit (L.boot f)) ⟨m.tree, 0, 0⟩
      { tree := r.2.tree, loaded := r.1.isOk }
  | .unload =>
    if m.loaded then { tree := (exec pcieEnablerNonEsExit ⟨m.tree, 0, 0⟩).2.tree, loaded := false } else m

-- ---------------------------------------------------------------------------
-- What one load does
-- ---------------------------------------------------------------------------

def Injects (L : Lookups) (t t' : Tree) : Prop :=
  ∃ pcieNode soc iossRoot iommuGroup rp, L.rootComplex t = some pcieNode ∧ L.findByPath t "/soc" = some soc ∧
    pcieFindChildByName t pcieNode.id "pcie0_rp" = some rp ∧ runtimeNodesPresent t soc.id rp.id = false ∧
    t' = injected t pcieNode.id soc iossRoot iommuGroup rp

/-- A load, whatever fails in it, leaves the tree, or enables the root complex,
or attaches all three nodes. -/
theorem load_cases (L : Lookups) (f : Failures) (t : Tree) {t' : Tree}
    (h : t' = (exec (pcieEnablerNonEsInit (L.boot f)) ⟨t, 0, 0⟩).2.tree) :
    t' = t ∨ (∃ id, t' = t.put id statusOkay) ∨ Injects L t t' := by
  obtain ⟨e, hexec⟩ | ⟨pcieNode, hrc, hexec⟩ := pcieEnablerNonEsInit_cases (L.boot f) ⟨t, 0, 0⟩
  · rw [hexec] at h
    exact .inl h
  · rw [hexec] at h
    rcases hrun : exec (pcieAttachRuntimeNodes { (L.boot f).kernel with symbols := true } pcieNode.id) ⟨t, 0, 0⟩
      with ⟨e | u, s'⟩
    · rw [hrun] at h
      obtain ht | ⟨ht, -⟩ := pcieAttachRuntimeNodes_error hrun
      · exact .inl (h.trans ht)
      · exact .inr (.inl ⟨pcieNode.id, h.trans ht⟩)
    · rw [hrun] at h
      obtain ⟨soc, iossRoot, iommuGroup, rp, hsoc, -, hrp, ⟨-, rfl⟩ | ⟨hpresent, ht⟩⟩ :=
        pcieAttachRuntimeNodes_ok hrun
      · exact .inl h
      · exact .inr (.inr ⟨pcieNode, soc, iossRoot, iommuGroup, rp, hrc, hsoc, hrp, hpresent, h.trans ht⟩)

-- ---------------------------------------------------------------------------
-- Counting nodes
-- ---------------------------------------------------------------------------

def copies (t : Tree) (parent : Nat) (name : String) : Nat := (t.children parent).countP (·.name = name)

def bearers (t : Tree) (h : UInt32) : Nat := t.nodes.countP (·.phandle = h)

theorem putAt_frame (id : Nat) (p : Property) (n : Node) :
    (putAt id p n).name = n.name ∧ (putAt id p n).phandle = n.phandle := by
  unfold putAt
  split <;> exact ⟨rfl, rfl⟩

theorem children_put (t : Tree) (id : Nat) (p : Property) (parent : Nat) :
    (t.put id p).children parent = (t.children parent).map (putAt id p) := by
  unfold Tree.children Tree.put
  rw [List.filter_map]
  congr 2
  funext n
  simp

@[simp] theorem copies_put (t : Tree) (id : Nat) (p : Property) (parent : Nat) (name : String) :
    copies (t.put id p) parent name = copies t parent name := by
  unfold copies
  rw [children_put, List.countP_map]
  congr 1
  funext n
  simp [(putAt_frame id p n).1]

@[simp] theorem bearers_put (t : Tree) (id : Nat) (p : Property) (h : UInt32) :
    bearers (t.put id p) h = bearers t h := by
  unfold bearers Tree.put
  rw [List.countP_map]
  congr 1
  funext n
  simp [(putAt_frame id p n).2]

theorem children_attach (t : Tree) (d : Draft) (parent : Nat) :
    (t.attach d).children parent =
      if d.parent = parent then d.node (t.freshId d.parent) :: t.children parent else t.children parent := by
  unfold Tree.children Tree.attach
  by_cases hp : d.parent = parent <;> simp [Draft.node, hp]

theorem copies_attach (t : Tree) (d : Draft) (parent : Nat) (name : String) :
    copies (t.attach d) parent name =
      copies t parent name + if d.parent = parent ∧ d.name = name then 1 else 0 := by
  unfold copies
  rw [children_attach]
  by_cases hp : d.parent = parent
  · simp [hp, List.countP_cons, Draft.node]
  · simp [hp]

theorem bearers_attach (t : Tree) (d : Draft) (h : UInt32) :
    bearers (t.attach d) h = bearers t h + if d.phandle = h then 1 else 0 := by
  simp [bearers, Tree.attach, List.countP_cons, Draft.node]

theorem findChild_isSome_iff (t : Tree) (parent : Nat) (name : String) :
    (pcieFindChildByName t parent name).isSome = true ↔ 0 < copies t parent name := by
  unfold pcieFindChildByName copies
  rw [List.find?_isSome, List.countP_pos_iff]

theorem findChild_put (t : Tree) (id : Nat) (p : Property) (parent : Nat) (name : String) :
    (pcieFindChildByName (t.put id p) parent name).map Node.id =
      (pcieFindChildByName t parent name).map Node.id := by
  unfold pcieFindChildByName
  rw [children_put, List.find?_map, Option.map_map]
  have hp : ((fun n : Node => decide (n.name = name)) ∘ putAt id p) = fun n => decide (n.name = name) := by
    funext n
    simp [(putAt_frame id p n).1]
  have hid : Node.id ∘ putAt id p = Node.id := by
    funext n
    simp
  rw [hp, hid]

theorem findChild_attach (t : Tree) (d : Draft) (parent : Nat) (hname : d.name ≠ name) :
    pcieFindChildByName (t.attach d) parent name = pcieFindChildByName t parent name := by
  unfold pcieFindChildByName
  rw [children_attach]
  split
  · rw [List.find?_cons_of_neg (by simp [Draft.node, hname])]
  · rfl

-- ---------------------------------------------------------------------------
-- The three nodes and their phandles
-- ---------------------------------------------------------------------------

/-- How often each of the three nodes stands in its place, and how often each of
the two phandles is in use. -/
structure Counts where
  rx : Nat
  tx : Nat
  rtl8125 : Nat
  phandleRx : Nat
  phandleTx : Nat

def socId (L : Lookups) (t : Tree) : Option Nat := (L.findByPath t "/soc").map Node.id

def rpId (L : Lookups) (t : Tree) : Option Nat :=
  ((L.rootComplex t).map Node.id).bind fun id => (pcieFindChildByName t id "pcie0_rp").map Node.id

def counts (L : Lookups) (t : Tree) : Counts where
  rx := (socId L t).elim 0 (copies t · "r8125_rx")
  tx := (socId L t).elim 0 (copies t · "r8125_tx")
  rtl8125 := (rpId L t).elim 0 (copies t · "realtek,rtl8125")
  phandleRx := bearers t rtl8125PhandleRx
  phandleTx := bearers t rtl8125PhandleTx

def Counts.succ (c : Counts) : Counts :=
  ⟨c.rx + 1, c.tx + 1, c.rtl8125 + 1, c.phandleRx + 1, c.phandleTx + 1⟩

/-- Setting a status and attaching the runtime nodes changes neither which node
is `/soc` nor which is the root complex: the lookups go by path and by
`compatible`. -/
structure Lookups.Steady (L : Lookups) : Prop where
  soc_put : ∀ t id, socId L (t.put id statusOkay) = socId L t
  soc_injected : ∀ t pcieNode soc iossRoot iommuGroup rp,
    socId L (injected t pcieNode soc iossRoot iommuGroup rp) = socId L t
  root_put : ∀ t id, (L.rootComplex (t.put id statusOkay)).map Node.id = (L.rootComplex t).map Node.id
  root_injected : ∀ t pcieNode soc iossRoot iommuGroup rp,
    (L.rootComplex (injected t pcieNode soc iossRoot iommuGroup rp)).map Node.id = (L.rootComplex t).map Node.id

section
variable {L : Lookups} (hL : L.Steady) {t t' : Tree}
include hL

theorem rpId_put (id : Nat) : rpId L (t.put id statusOkay) = rpId L t := by
  unfold rpId
  rw [hL.root_put]
  simp only [findChild_put]

theorem rpId_injected (pcieNode : Nat) (soc iossRoot iommuGroup rp : Node) :
    rpId L (injected t pcieNode soc iossRoot iommuGroup rp) = rpId L t := by
  unfold rpId
  rw [hL.root_injected]
  unfold injected
  have hrx : (rxDraft soc).name ≠ "pcie0_rp" := by simp [rxDraft, draftOf]
  have htx : (txDraft soc).name ≠ "pcie0_rp" := by simp [txDraft, draftOf]
  have hdev : (rtl8125Draft rp iossRoot.phandle iommuGroup.phandle).name ≠ "pcie0_rp" := by
    simp [rtl8125Draft, draftOf]
  simp only [findChild_attach _ _ _ hrx, findChild_attach _ _ _ htx, findChild_attach _ _ _ hdev, findChild_put]

theorem counts_put (id : Nat) : counts L (t.put id statusOkay) = counts L t := by
  simp only [counts, hL.soc_put, rpId_put hL, copies_put, bearers_put]

theorem counts_injects (h : Injects L t t') :
    counts L t' = (counts L t).succ ∧
      ((counts L t).rx = 0 ∨ (counts L t).tx = 0 ∨ (counts L t).rtl8125 = 0) := by
  obtain ⟨pcieNode, soc, iossRoot, iommuGroup, rp, hrc, hsoc, hrp, hpresent, rfl⟩ := h
  have hsocId : socId L t = some soc.id := by simp [socId, hsoc]
  have hrpId : rpId L t = some rp.id := by simp [rpId, hrc, hrp]
  constructor
  · simp only [counts, Counts.succ, hL.soc_injected, rpId_injected hL, hsocId, hrpId, Option.elim_some]
    simp [injected, copies_attach, bearers_attach, rxDraft, txDraft, rtl8125Draft, draftOf, rtl8125PhandleRx,
      rtl8125PhandleTx]
  · simp only [counts, hsocId, hrpId, Option.elim_some]
    by_contra hnone
    push Not at hnone
    have hall : runtimeNodesPresent t soc.id rp.id = true := by
      unfold runtimeNodesPresent
      simp only [Bool.and_eq_true, findChild_isSome_iff]
      omega
    rw [hpresent] at hall
    cases hall

/-- A property of the counts that attaching the nodes keeps, wherever it can
happen, is kept by every step. -/
theorem moduleStep_counts {I : Counts → Prop}
    (hI : ∀ c, I c → (c.rx = 0 ∨ c.tx = 0 ∨ c.rtl8125 = 0) → I c.succ) (m : Machine) (a : Action)
    (h : I (counts L m.tree)) : I (counts L (moduleStep L m a).tree) := by
  cases a with
  | unload =>
    rw [moduleStep]
    split <;> exact h
  | load f =>
    rw [moduleStep]
    split
    · exact h
    · dsimp only
      obtain ht | ⟨id, ht⟩ | hinj := load_cases L f m.tree rfl
      · rw [ht]
        exact h
      · rw [ht, counts_put hL]
        exact h
      · obtain ⟨hcounts, hmissing⟩ := counts_injects hL hinj
        rw [hcounts]
        exact hI _ h hmissing

end

-- ---------------------------------------------------------------------------
-- Whole runs
-- ---------------------------------------------------------------------------

def Counts.NonePresent (c : Counts) : Prop := c.rx = 0 ∧ c.tx = 0 ∧ c.rtl8125 = 0

def Counts.AllOnce (c : Counts) : Prop := c.rx = 1 ∧ c.tx = 1 ∧ c.rtl8125 = 1

/-- None of the nodes is there and nobody uses their phandles, or all of them
are there, once. -/
def Counts.Clean (c : Counts) : Prop :=
  c.NonePresent ∧ c.phandleRx = 0 ∧ c.phandleTx = 0 ∨ c.AllOnce ∧ c.phandleRx ≤ 1 ∧ c.phandleTx ≤ 1

def Counts.NoDuplicates (c : Counts) : Prop :=
  c.rx ≤ 1 ∧ c.tx ≤ 1 ∧ c.rtl8125 ≤ 1 ∧ c.phandleRx ≤ 1 ∧ c.phandleTx ≤ 1

theorem Counts.Clean.succ {c : Counts} (h : c.Clean) (hmissing : c.rx = 0 ∨ c.tx = 0 ∨ c.rtl8125 = 0) :
    c.succ.Clean := by
  unfold Clean NonePresent AllOnce Counts.succ at *
  dsimp only
  omega

theorem Counts.Clean.noDuplicates {c : Counts} (h : c.Clean) : c.NoDuplicates := by
  unfold Clean NonePresent AllOnce NoDuplicates at *
  omega

/-- From a clean tree no sequence of loads and unloads, whatever fails in them,
makes a duplicate; and where no node was there at the start, every tree
reached has none or all. -/
theorem reload_never_duplicates (L : Lookups) (hL : L.Steady) (t : Tree) (as : List Action) :
    ((counts L t).Clean → (counts L (run (moduleStep L) ⟨t, false⟩ as).tree).NoDuplicates) ∧
    ((counts L t).NonePresent →
      (counts L (run (moduleStep L) ⟨t, false⟩ as).tree).NonePresent ∨
        (counts L (run (moduleStep L) ⟨t, false⟩ as).tree).AllOnce) := by
  constructor
  · intro hclean
    have hinv := run_invariant (I := fun m : Machine => (counts L m.tree).Clean)
      (moduleStep_counts hL fun c hc hmissing => hc.succ hmissing) (s := ⟨t, false⟩) hclean as
    exact hinv.noDuplicates
  · intro hnone
    refine run_invariant (I := fun m : Machine => (counts L m.tree).NonePresent ∨ (counts L m.tree).AllOnce)
      (moduleStep_counts hL (I := fun c => c.NonePresent ∨ c.AllOnce) fun c hc hmissing => ?_)
      (s := ⟨t, false⟩) (.inl hnone) as
    unfold Counts.NonePresent Counts.AllOnce Counts.succ at *
    dsimp only
    omega

def pathLookups : Lookups := ⟨findByFullName, fun _ _ => none⟩

theorem findByFullName_put (t : Tree) (id : Nat) (p : Property) (path : String) :
    (findByFullName (t.put id p) path).map Node.id = (findByFullName t path).map Node.id := by
  have hpath : ((fun n : Node => decide (n.fullName = path)) ∘ putAt id p) = fun n => decide (n.fullName = path) := by
    funext n
    unfold putAt
    simp only [Function.comp_apply]
    split <;> rfl
  have hid : Node.id ∘ putAt id p = Node.id := by
    funext n
    simp
  unfold findByFullName Tree.put
  rw [List.find?_map, Option.map_map, hpath, hid]

theorem findByFullName_attach (t : Tree) (d : Draft) (hpath : d.fullName ≠ path) :
    findByFullName (t.attach d) path = findByFullName t path := by
  unfold findByFullName Tree.attach
  rw [List.find?_cons_of_neg (by simp [Draft.node, hpath])]

/-- No runtime node has the path of a node that is looked up: the last two
characters differ. -/
theorem runtime_path_ne (parent : String) {unitName : String}
    (hunit : unitName ∈ ["r8125_rx@eth0", "r8125_tx@eth0", "realtek,rtl8125@0,0"])
    (hpath : path ∈ ["/soc", "/soc/qcom,pcie@1c00000"]) : parent ++ "/" ++ unitName ≠ path := by
  intro h
  have hlast := congrArg (fun s => s.toList.reverse.take 2) h
  simp only [List.mem_cons, List.not_mem_nil, or_false] at hunit hpath
  rcases hunit with rfl | rfl | rfl <;> rcases hpath with rfl | rfl <;>
    simp [String.toList_append] at hlast

theorem pathLookups_injected (t : Tree) (pcieNode : Nat) (soc iossRoot iommuGroup rp : Node)
    (hpath : path ∈ ["/soc", "/soc/qcom,pcie@1c00000"]) :
    (findByFullName (injected t pcieNode soc iossRoot iommuGroup rp) path).map Node.id =
      (findByFullName t path).map Node.id := by
  unfold injected
  rw [findByFullName_attach _ _ (runtime_path_ne rp.fullName (by simp) hpath),
    findByFullName_attach _ _ (runtime_path_ne soc.fullName (by simp) hpath),
    findByFullName_attach _ _ (runtime_path_ne soc.fullName (by simp) hpath), findByFullName_put]

theorem pathLookups_rootComplex (t : Tree) :
    pathLookups.rootComplex t = findByFullName t "/soc/qcom,pcie@1c00000" := by
  simp [Lookups.rootComplex, Boot.rootComplex, Lookups.boot, pathLookups]

theorem pathLookups_steady : pathLookups.Steady where
  soc_put t id := findByFullName_put t id statusOkay "/soc"
  soc_injected t pcieNode soc iossRoot iommuGroup rp :=
    pathLookups_injected t pcieNode soc iossRoot iommuGroup rp (by simp)
  root_put t id := by
    rw [pathLookups_rootComplex, pathLookups_rootComplex, findByFullName_put]
  root_injected t pcieNode soc iossRoot iommuGroup rp := by
    rw [pathLookups_rootComplex, pathLookups_rootComplex, pathLookups_injected _ _ _ _ _ _ (by simp)]

def noFailures : Failures := ⟨fun _ => true, fun _ => none, true, fun _ => true⟩

/-- A load that works, an unload, and a load whose first allocation fails. -/
theorem reload_never_duplicates_thrice :
    pathLookups.Steady ∧
    (counts pathLookups (run (moduleStep pathLookups) ⟨disabledTree, false⟩
      [.load noFailures, .unload, .load { noFailures with alloc := fun _ => false }]).tree).NoDuplicates :=
  ⟨pathLookups_steady, (reload_never_duplicates pathLookups pathLookups_steady disabledTree _).1
    (.inl ⟨⟨by decide +kernel, by decide +kernel, by decide +kernel⟩, by decide +kernel, by decide +kernel⟩)⟩

def rxOnlyTree : Tree where
  nodes := disabledTree.nodes ++ [
    { id := 5, parent := some 0, name := "r8125_rx", fullName := "/soc/r8125_rx@eth0", phandle := 0x8125,
      props := [] }]
  next := 6
  fresh := by decide
  nodup := by decide

theorem rx_only_tree_duplicated :
    (counts pathLookups rxOnlyTree).NoDuplicates ∧
    ¬ (counts pathLookups
      (run (moduleStep pathLookups) ⟨rxOnlyTree, false⟩ [.load noFailures]).tree).NoDuplicates := by
  refine ⟨⟨by decide +kernel, by decide +kernel, by decide +kernel, by decide +kernel, by decide +kernel⟩, ?_⟩
  rintro ⟨hrx, -⟩
  revert hrx
  decide +kernel

end IpaOffload.DeviceTree
