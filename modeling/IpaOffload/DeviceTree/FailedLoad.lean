import IpaOffload.DeviceTree.EnablerLaws

/-!
# Loads that fail

The first thing `pcie_attach_runtime_nodes` changes is the status of the root
complex, and nothing takes that back. A load that fails afterwards leaves the
tree with that one property set; it leaves the tree as it was only where the
status was `okay` before, or where no failure can come after it.
-/

namespace IpaOffload.DeviceTree

open Fallible

def statusOkay : Property := (PropSpec.string "status" "okay").property

variable {k : Kernel}

-- ---------------------------------------------------------------------------
-- What a failure leaves
-- ---------------------------------------------------------------------------

theorem Allocates.keeps {x : Enabler (Option α)} (h : Allocates x a) : Keeps St.tree x := by
  intro s
  obtain ⟨r, s', hexec, htree, -⟩ := h s
  rw [hexec]
  exact htree

theorem pcieSetProperty_keeps (prop : Option Property) {put : Property → Enabler α}
    (hput : ∀ p, Keeps St.tree (put p)) : Keeps St.tree (pcieSetProperty k prop put) := by
  intro s
  obtain ⟨e, s₁, hexec, htree⟩ | ⟨p, s₁, -, htree, hexec⟩ := pcieSetProperty_cases (k := k) prop put s
  · rw [hexec]
    exact htree
  · rw [hexec]
    exact (hput p s₁).trans htree

theorem setProperties_keeps (d : Draft) (specs : List PropSpec) : Keeps St.tree (setProperties k d specs) := by
  induction specs generalizing d with
  | nil => exact Keeps.pure _
  | cons spec specs ih =>
    refine (spec.alloc_allocates).keeps.bind fun prop => ?_
    exact (pcieSetProperty_keeps prop fun p => Keeps.pure _).bind fun d => ih d

/-- Behind the status, only a failure can come before the first node is
attached, and attaching cannot fail. -/
theorem attachRuntimeNodes_fails {pcieNode : Nat} {soc iossRoot iommuGroup rp : Node}
    (h : exec (attachRuntimeNodes k pcieNode soc iossRoot iommuGroup rp) s = (.error e, s')) :
    s'.tree = s.tree ∨ s'.tree = s.tree.put pcieNode statusOkay := by
  unfold attachRuntimeNodes at h
  obtain ⟨status, s₁, hstatus, ht₁, hr⟩ := (PropSpec.string "status" "okay").alloc_allocates (k := k) s
  rw [exec_bind_of_ok (show exec (pcieAllocStringProperty k "status" "okay") s = _ from hstatus), exec_bind] at h
  obtain ⟨e₂, s₂, hexec, ht₂⟩ | ⟨p, s₂, rfl, ht₂, hexec⟩ := pcieSetProperty_cases (k := k) status
    (fun p => modify fun s => { s with tree := s.tree.put pcieNode p }) s₁
  · rw [hexec] at h
    cases h
    exact .inl (ht₂.trans ht₁)
  · obtain rfl : p = statusOkay := by simpa [statusOkay] using hr
    rw [hexec, exec_modify] at h
    refine .inr ?_
    rw [← ht₁, ← ht₂]
    refine FailsKeeping.bind (f := St.tree) (pcieAllocNode_allocates _ _ _ _).keeps (fun rx => ?_) _ _ _ h
    refine FailsKeeping.bind (pcieAllocNode_allocates _ _ _ _).keeps fun tx => ?_
    refine FailsKeeping.bind (pcieAllocNode_allocates _ _ _ _).keeps fun rtl8125 => ?_
    split
    · refine FailsKeeping.bind (setProperties_keeps _ _) fun rx => ?_
      refine FailsKeeping.bind (setProperties_keeps _ _) fun tx => ?_
      refine FailsKeeping.bind (setProperties_keeps _ _) fun rtl8125 => ?_
      intro s e s' hattach
      cases hattach
    · exact (Keeps.throw _).failsKeeping

-- ---------------------------------------------------------------------------
-- Setting a status that is there
-- ---------------------------------------------------------------------------

theorem putProp_eq_self_iff (p : Property) (ps : List Property) :
    putProp p ps = ps ↔ ps.find? (·.name = p.name) = some p := by
  induction ps with
  | nil => simp [putProp]
  | cons q qs ih =>
    by_cases hq : q.name = p.name
    · simp only [putProp, hq, if_true, List.find?_cons, decide_true, List.cons.injEq, and_true,
        Option.some.injEq]
      exact eq_comm
    · simp only [putProp, hq, if_false, List.find?_cons, decide_false, List.cons.injEq, true_and]
      exact ih

def StatusIsOkay (t : Tree) (id : Nat) : Prop := ∀ n ∈ t.nodes, n.id = id → n.find "status" = some statusOkay

theorem putAt_eq_self_iff (id : Nat) (p : Property) (n : Node) :
    putAt id p n = n ↔ n.id = id → n.find p.name = some p := by
  unfold putAt
  by_cases hid : n.id = id
  · rw [if_pos hid]
    simp only [hid, true_imp_iff, Node.find, ← putProp_eq_self_iff]
    constructor
    · intro h
      exact congrArg Node.props h
    · intro h
      unfold Node.put
      rw [h]
  · simp [hid]

theorem put_statusOkay_eq_iff (t : Tree) (id : Nat) : t.put id statusOkay = t ↔ StatusIsOkay t id := by
  have hmap : t.put id statusOkay = t ↔ t.nodes.map (putAt id statusOkay) = t.nodes := by
    constructor
    · exact congrArg Tree.nodes
    · intro h
      cases t
      simpa [Tree.put] using h
  rw [hmap]
  conv_lhs => rhs; rw [← List.map_id t.nodes]
  rw [List.map_inj_left]
  simp only [id_eq, putAt_eq_self_iff]
  rfl

-- ---------------------------------------------------------------------------
-- When a failed load leaves the tree alone
-- ---------------------------------------------------------------------------

/-- Where the load finds all it depends on, the three nodes are there, or the
root complex has its status already. -/
def NothingToUndo (find : Tree → String → Option Node) (t : Tree) (pcieNode : Nat) : Prop :=
  ∀ soc iossRoot iommuGroup rp, find t "/soc" = some soc → find t "/soc/qcom,ioss" = some iossRoot →
    find t "/soc/ipa_eth_group1" = some iommuGroup → pcieFindChildByName t pcieNode "pcie0_rp" = some rp →
    runtimeNodesPresent t soc.id rp.id = true ∨ StatusIsOkay t pcieNode

/-- A failure leaves the tree, or has enabled the root complex. -/
theorem pcieAttachRuntimeNodes_error {pcieNode : Nat}
    (h : exec (pcieAttachRuntimeNodes k pcieNode) s = (.error e, s')) :
    s'.tree = s.tree ∨ s'.tree = s.tree.put pcieNode statusOkay ∧
      ∃ soc iossRoot iommuGroup rp, k.findByPath s.tree "/soc" = some soc ∧
        k.findByPath s.tree "/soc/qcom,ioss" = some iossRoot ∧
        k.findByPath s.tree "/soc/ipa_eth_group1" = some iommuGroup ∧
        pcieFindChildByName s.tree pcieNode "pcie0_rp" = some rp ∧ runtimeNodesPresent s.tree soc.id rp.id = false := by
  unfold pcieAttachRuntimeNodes at h
  rw [exec_bind_of_ok (exec_get s)] at h
  dsimp only at h
  split at h
  · rename_i soc iossRoot iommuGroup rp hsoc hioss hiommu hrp
    split at h
    · cases h
    · rename_i hpresent
      rcases attachRuntimeNodes_fails h with ht | ht
      · exact .inl ht
      · exact .inr ⟨ht, soc, iossRoot, iommuGroup, rp, hsoc, hioss, hiommu, hrp, by simpa using hpresent⟩
  · cases h
    exact .inl rfl

theorem pcieAttachRuntimeNodes_fails {pcieNode : Nat} (hsafe : NothingToUndo k.findByPath s.tree pcieNode)
    (h : exec (pcieAttachRuntimeNodes k pcieNode) s = (.error e, s')) : s'.tree = s.tree := by
  obtain ht | ⟨ht, soc, iossRoot, iommuGroup, rp, hsoc, hioss, hiommu, hrp, hpresent⟩ :=
    pcieAttachRuntimeNodes_error h
  · exact ht
  · obtain hp | hokay := hsafe soc iossRoot iommuGroup rp hsoc hioss hiommu hrp
    · rw [hpresent] at hp
      cases hp
    · exact ht.trans ((put_statusOkay_eq_iff s.tree pcieNode).mpr hokay)

/-- The allocation that fails is the first one after the status has been set. -/
def lateFailure (find : Tree → String → Option Node) : Kernel where
  alloc := fun i => i < 3
  setProperty := fun _ => none
  symbols := true
  findByPath := find

theorem lateFailure_run {find : Tree → String → Option Node} {t : Tree} {pcieNode : Nat}
    (hexposed : ¬ NothingToUndo find t pcieNode) :
    ∃ e s', exec (pcieAttachRuntimeNodes (lateFailure find) pcieNode) ⟨t, 0, 0⟩ = (.error e, s') ∧
      s'.tree ≠ t := by
  unfold NothingToUndo at hexposed
  push Not at hexposed
  obtain ⟨soc, iossRoot, iommuGroup, rp, hsoc, hioss, hiommu, hrp, hpresent, hokay⟩ := hexposed
  have hpresent' : runtimeNodesPresent t soc.id rp.id = false := by simpa using hpresent
  refine ⟨.noMem, ⟨t.put pcieNode statusOkay, 6, 1⟩, ?_, fun h => hokay ((put_statusOkay_eq_iff t pcieNode).mp h)⟩
  unfold pcieAttachRuntimeNodes
  rw [exec_bind_of_ok (exec_get _)]
  simp only [lateFailure, hsoc, hioss, hiommu, hrp, hpresent']
  rfl

theorem pcieResolveSymbols_cases (b : Boot) (s : St) :
    (∃ e, exec (pcieResolveSymbols b) s = (.error e, s)) ∨ exec (pcieResolveSymbols b) s = (.ok (), s) := by
  unfold pcieResolveSymbols
  cases b.kallsymsLookupNameAddr with
  | false => exact .inl ⟨_, rfl⟩
  | true =>
    cases b.lookup "of_mutex" && b.lookup "devtree_lock" && b.lookup "of_add_property" &&
      b.lookup "of_update_property" with
    | false => exact .inl ⟨_, rfl⟩
    | true => exact .inr rfl

theorem pcieEnablerNonEsInit_cases (b : Boot) (s : St) :
    (∃ e, exec (pcieEnablerNonEsInit b) s = (.error e, s)) ∨
    ∃ pcieNode, b.rootComplex s.tree = some pcieNode ∧ exec (pcieEnablerNonEsInit b) s =
      exec (pcieAttachRuntimeNodes { b.kernel with symbols := true } pcieNode.id) s := by
  unfold pcieEnablerNonEsInit
  obtain ⟨e, hsym⟩ | hsym := pcieResolveSymbols_cases b s
  · exact .inl ⟨e, exec_bind_of_error hsym⟩
  · rw [exec_bind_of_ok hsym, exec_bind_of_ok (exec_get s)]
    cases hrc : b.rootComplex s.tree with
    | none => exact .inl ⟨_, rfl⟩
    | some pcieNode => exact .inr ⟨pcieNode, rfl, rfl⟩

theorem pcieEnablerNonEsInit_found {b : Boot} {s : St} (haddr : b.kallsymsLookupNameAddr = true)
    (hlookup : ∀ name, b.lookup name = true) (hrc : b.rootComplex s.tree = some pcieNode) :
    exec (pcieEnablerNonEsInit b) s =
      exec (pcieAttachRuntimeNodes { b.kernel with symbols := true } pcieNode.id) s := by
  have hsym : exec (pcieResolveSymbols b) s = (.ok (), s) := by
    unfold pcieResolveSymbols
    simp only [haddr, hlookup]
    rfl
  unfold pcieEnablerNonEsInit
  rw [exec_bind_of_ok hsym, exec_bind_of_ok (exec_get s), hrc]

/-- What a failed load leaves is the tree it found, whatever failed, exactly
when there was nothing to undo: for the part that attaches the nodes, under
each root complex, and for the whole load. -/
theorem failed_load_keeps_tree_iff (b : Boot) (t : Tree) :
    (∀ pcieNode, (∀ k e s', k.findByPath = b.kernel.findByPath →
        exec (pcieAttachRuntimeNodes k pcieNode) ⟨t, 0, 0⟩ = (.error e, s') → s'.tree = t) ↔
      NothingToUndo b.kernel.findByPath t pcieNode) ∧
    ((∀ b' e s', b'.kernel.findByPath = b.kernel.findByPath → b'.findCompatible = b.findCompatible →
        exec (pcieEnablerNonEsInit b') ⟨t, 0, 0⟩ = (.error e, s') → s'.tree = t) ↔
      ∀ pcieNode, b.rootComplex t = some pcieNode → NothingToUndo b.kernel.findByPath t pcieNode.id) := by
  refine ⟨fun pcieNode => ⟨fun hall => ?_, fun hsafe k e s' hk h => ?_⟩, fun hall pcieNode hrc => ?_,
    fun hsafe b' e s' hpath hcompat h => ?_⟩
  · by_contra hexposed
    obtain ⟨e, s', hexec, hne⟩ := lateFailure_run hexposed
    exact hne (hall (lateFailure b.kernel.findByPath) e s' rfl hexec)
  · rw [← hk] at hsafe
    exact pcieAttachRuntimeNodes_fails (s := ⟨t, 0, 0⟩) hsafe h
  · by_contra hexposed
    obtain ⟨e, s', hexec, hne⟩ := lateFailure_run hexposed
    refine hne (hall ⟨lateFailure b.kernel.findByPath, true, fun _ => true, b.findCompatible⟩ e s' rfl rfl ?_)
    rw [← hexec]
    exact pcieEnablerNonEsInit_found rfl (fun _ => rfl) hrc
  · obtain ⟨e', hexec⟩ | ⟨pcieNode, hrc, hexec⟩ := pcieEnablerNonEsInit_cases b' ⟨t, 0, 0⟩
    · rw [hexec] at h
      cases h
      rfl
    · rw [hexec] at h
      have hrc' : b.rootComplex t = some pcieNode := by
        unfold Boot.rootComplex at hrc ⊢
        rw [← hpath, ← hcompat]
        exact hrc
      refine pcieAttachRuntimeNodes_fails (s := ⟨t, 0, 0⟩) ?_ h
      have hnothing := hsafe pcieNode hrc'
      rw [← hpath] at hnothing
      exact hnothing

def disabledTree : Tree where
  nodes := [
    { id := 0, parent := none, name := "soc", fullName := "/soc", phandle := 0, props := [] },
    { id := 1, parent := some 0, name := "qcom,pcie", fullName := "/soc/qcom,pcie@1c00000", phandle := 1,
      props := [{ name := "status", value := cString "disabled" }] },
    { id := 2, parent := some 1, name := "pcie0_rp", fullName := "/soc/qcom,pcie@1c00000/pcie0_rp", phandle := 2,
      props := [] },
    { id := 3, parent := some 0, name := "qcom,ioss", fullName := "/soc/qcom,ioss", phandle := 3, props := [] },
    { id := 4, parent := some 0, name := "ipa_eth_group1", fullName := "/soc/ipa_eth_group1", phandle := 4,
      props := [] }]
  next := 5
  fresh := by decide
  nodup := by decide

def findByFullName (t : Tree) (path : String) : Option Node := t.nodes.find? (·.fullName = path)

theorem failed_load_enables_root_complex :
    (exec (pcieAttachRuntimeNodes (lateFailure findByFullName) 1) ⟨disabledTree, 0, 0⟩).1 = .error .noMem ∧
    (exec (pcieAttachRuntimeNodes (lateFailure findByFullName) 1) ⟨disabledTree, 0, 0⟩).2.tree ≠ disabledTree ∧
    (exec (pcieEnablerNonEsInit ⟨lateFailure findByFullName, true, fun _ => true, fun _ _ => none⟩)
      ⟨disabledTree, 0, 0⟩).1 = .error .noMem ∧
    (exec (pcieEnablerNonEsInit ⟨lateFailure findByFullName, true, fun _ => true, fun _ _ => none⟩)
      ⟨disabledTree, 0, 0⟩).2.tree ≠ disabledTree := by
  refine ⟨by decide +kernel, fun h => ?_, by decide +kernel, fun h => ?_⟩
  · have hnodes := congrArg Tree.nodes h
    revert hnodes
    decide +kernel
  · have hnodes := congrArg Tree.nodes h
    revert hnodes
    decide +kernel

end IpaOffload.DeviceTree
