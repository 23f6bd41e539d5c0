import IpaOffload.DeviceTree.Enabler

/-!
# What a successful load leaves

`pcieAttachRuntimeNodes` succeeds either because the three nodes are there, or
because it has attached them: then the tree is the old one with `status` set on
the root complex and the three nodes, each with all its properties.
-/

namespace IpaOffload.DeviceTree

open Fallible

-- ---------------------------------------------------------------------------
-- Allocations
-- ---------------------------------------------------------------------------

/-- `x` gives `a` or nothing, and does not touch the tree. -/
def Allocates (x : Enabler (Option α)) (a : α) : Prop :=
  ∀ s, ∃ r s', exec x s = (.ok r, s') ∧ s'.tree = s.tree ∧ (r = none ∨ r = some a)

variable {k : Kernel}

theorem exec_kalloc (s : St) : exec (kalloc k) s = (.ok (k.alloc s.allocs), { s with allocs := s.allocs + 1 }) := rfl

theorem Allocates.pure (a : α) : Allocates (Pure.pure (some a) : Enabler (Option α)) a :=
  fun s => ⟨some a, s, rfl, rfl, .inr rfl⟩

theorem Allocates.guard {x : Enabler (Option α)} {a : α} (hx : Allocates x a) :
    Allocates (kalloc k >>= fun b => if (!b) = true then Pure.pure none else x) a := by
  intro s
  rw [exec_bind_of_ok (exec_kalloc s)]
  cases k.alloc s.allocs with
  | false => exact ⟨none, _, rfl, rfl, .inl rfl⟩
  | true => exact hx { s with allocs := s.allocs + 1 }

theorem pcieAllocProperty_allocates (name : String) (value : Bytes) :
    Allocates (pcieAllocProperty k name value) { name, value } := by
  unfold pcieAllocProperty
  refine Allocates.guard (Allocates.guard ?_)
  by_cases hlen : 0 < value.length
  · simp only [if_pos hlen]
    exact Allocates.guard (Allocates.pure _)
  · simp only [if_neg hlen]
    exact Allocates.pure _

def PropSpec.property : PropSpec → Property
  | .bool name => { name, value := [] }
  | .string name value => { name, value := cString value }
  | .u32 name value => { name, value := be32 value }
  | .u32Array name values => { name, value := values.flatMap be32 }
  | .stringList name values => { name, value := values.flatMap cString }

theorem PropSpec.alloc_allocates (spec : PropSpec) : Allocates (spec.alloc k) spec.property := by
  cases spec with
  | bool name => exact pcieAllocProperty_allocates name []
  | string name value => exact pcieAllocProperty_allocates name _
  | u32 name value => exact pcieAllocProperty_allocates name _
  | u32Array name values => exact Allocates.guard (pcieAllocProperty_allocates name _)
  | stringList name values => exact Allocates.guard (pcieAllocProperty_allocates name _)

theorem pcieAllocNode_allocates (parent : Node) (name unitName : String) (phandle : UInt32) :
    Allocates (pcieAllocNode k parent name unitName phandle)
      { parent := parent.id, name, fullName := parent.fullName ++ "/" ++ unitName, phandle, props := [] } :=
  Allocates.guard (Allocates.guard (Allocates.guard (Allocates.pure _)))

-- ---------------------------------------------------------------------------
-- Setting properties
-- ---------------------------------------------------------------------------

theorem pcieSetProperty_cases (prop : Option Property) (put : Property → Enabler α) (s : St) :
    (∃ e s', exec (pcieSetProperty k prop put) s = (.error e, s') ∧ s'.tree = s.tree) ∨
    ∃ p s₁, prop = some p ∧ s₁.tree = s.tree ∧ exec (pcieSetProperty k prop put) s = exec (put p) s₁ := by
  unfold pcieSetProperty
  cases prop with
  | none => exact .inl ⟨_, _, rfl, rfl⟩
  | some p =>
    dsimp only
    cases hsym : k.symbols with
    | false => exact .inl ⟨_, _, rfl, rfl⟩
    | true =>
      simp only [Bool.not_true, Bool.false_eq_true, ↓reduceIte, exec_bind, exec_get, exec_set]
      cases k.setProperty s.calls with
      | some e => exact .inl ⟨_, _, rfl, rfl⟩
      | none => exact .inr ⟨p, { s with calls := s.calls + 1 }, rfl, rfl, rfl⟩

theorem pcieSetProperty_ok {prop : Option Property} {put : Property → Enabler α}
    (h : exec (pcieSetProperty k prop put) s = (.ok a, s')) :
    ∃ p s₁, prop = some p ∧ s₁.tree = s.tree ∧ exec (put p) s₁ = (.ok a, s') := by
  obtain ⟨e, s₁, hexec, -⟩ | ⟨p, s₁, hp, htree, hexec⟩ := pcieSetProperty_cases (k := k) prop put s
  · rw [hexec] at h
    cases h
  · exact ⟨p, s₁, hp, htree, hexec ▸ h⟩

theorem alloc_ok {x : Enabler (Option α)} (hx : Allocates x b) (h : exec x s = (.ok r, s')) :
    s'.tree = s.tree ∧ (r = none ∨ r = some b) := by
  obtain ⟨r', s₁, hexec, htree, hr⟩ := hx s
  rw [h] at hexec
  cases hexec
  exact ⟨htree, hr⟩

theorem setProperties_ok {d d' : Draft} {specs : List PropSpec}
    (h : exec (setProperties k d specs) s = (.ok d', s')) :
    s'.tree = s.tree ∧ d' = { d with props := specs.foldl (fun ps spec => putProp spec.property ps) d.props } := by
  induction specs generalizing d s with
  | nil =>
    cases h
    exact ⟨rfl, rfl⟩
  | cons spec specs ih =>
    obtain ⟨r, s₁, halloc, h⟩ := exec_bind_ok h
    obtain ⟨ht₁, hr⟩ := alloc_ok spec.alloc_allocates halloc
    obtain ⟨d₁, s₂, hset, h⟩ := exec_bind_ok h
    obtain ⟨p, s₃, hp, ht₃, hput⟩ := pcieSetProperty_ok hset
    obtain rfl : p = spec.property := by
      rcases hr with rfl | rfl
      · cases hp
      · exact (Option.some.inj hp).symm
    cases hput
    obtain ⟨ht, rfl⟩ := ih h
    exact ⟨ht.trans (ht₃.trans ht₁), rfl⟩

-- ---------------------------------------------------------------------------
-- The runtime nodes
-- ---------------------------------------------------------------------------

def draftOf (parent : Node) (name unitName : String) (phandle : UInt32) (specs : List PropSpec) : Draft where
  parent := parent.id
  name := name
  fullName := parent.fullName ++ "/" ++ unitName
  phandle := phandle
  props := specs.foldl (fun ps spec => putProp spec.property ps) []

def rxDraft (soc : Node) : Draft := draftOf soc "r8125_rx" "r8125_rx@eth0" rtl8125PhandleRx rxProps

def txDraft (soc : Node) : Draft := draftOf soc "r8125_tx" "r8125_tx@eth0" rtl8125PhandleTx txProps

def rtl8125Draft (rp : Node) (iossRoot iommuGroup : UInt32) : Draft :=
  draftOf rp "realtek,rtl8125" "realtek,rtl8125@0,0" 0 (rtl8125Props iossRoot iommuGroup)

def injected (t : Tree) (pcieNode : Nat) (soc iossRoot iommuGroup rp : Node) : Tree :=
  (((t.put pcieNode (PropSpec.string "status" "okay").property).attach (rxDraft soc)).attach
    (txDraft soc)).attach (rtl8125Draft rp iossRoot.phandle iommuGroup.phandle)

theorem attachRuntimeNodes_ok {pcieNode : Nat} {soc iossRoot iommuGroup rp : Node}
    (h : exec (attachRuntimeNodes k pcieNode soc iossRoot iommuGroup rp) s = (.ok u, s')) :
    s'.tree = injected s.tree pcieNode soc iossRoot iommuGroup rp := by
  unfold attachRuntimeNodes at h
  obtain ⟨status, s₁, h₁, h⟩ := exec_bind_ok h
  obtain ⟨ht₁, hstatus⟩ := alloc_ok (PropSpec.string "status" "okay").alloc_allocates h₁
  obtain ⟨u₂, s₂, h₂, h⟩ := exec_bind_ok h
  obtain ⟨p, s₂', hp, ht₂, hput⟩ := pcieSetProperty_ok h₂
  obtain rfl : p = (PropSpec.string "status" "okay").property := by
    rcases hstatus with rfl | rfl
    · cases hp
    · exact (Option.some.inj hp).symm
  obtain ⟨rx, s₃, h₃, h⟩ := exec_bind_ok h
  obtain ⟨ht₃, hrx⟩ := alloc_ok (pcieAllocNode_allocates _ _ _ _) h₃
  obtain ⟨tx, s₄, h₄, h⟩ := exec_bind_ok h
  obtain ⟨ht₄, htx⟩ := alloc_ok (pcieAllocNode_allocates _ _ _ _) h₄
  obtain ⟨rtl8125, s₅, h₅, h⟩ := exec_bind_ok h
  obtain ⟨ht₅, hrtl⟩ := alloc_ok (pcieAllocNode_allocates _ _ _ _) h₅
  rcases hrx with rfl | rfl
  · cases h
  rcases htx with rfl | rfl
  · cases h
  rcases hrtl with rfl | rfl
  · cases h
  obtain ⟨rx', s₆, h₆, h⟩ := exec_bind_ok h
  obtain ⟨ht₆, rfl⟩ := setProperties_ok h₆
  obtain ⟨tx', s₇, h₇, h⟩ := exec_bind_ok h
  obtain ⟨ht₇, rfl⟩ := setProperties_ok h₇
  obtain ⟨rtl', s₈, h₈, hattach⟩ := exec_bind_ok h
  obtain ⟨ht₈, rfl⟩ := setProperties_ok h₈
  cases hattach
  cases hput
  have htree : s₈.tree = s.tree.put pcieNode (PropSpec.string "status" "okay").property := by
    rw [ht₈, ht₇, ht₆, ht₅, ht₄, ht₃]
    dsimp only
    rw [ht₂, ht₁]
  dsimp only
  rw [htree]
  rfl

theorem pcieAttachRuntimeNodes_ok {pcieNode : Nat}
    (h : exec (pcieAttachRuntimeNodes k pcieNode) s = (.ok u, s')) :
    ∃ soc iossRoot iommuGroup rp,
      k.findByPath s.tree "/soc" = some soc ∧ k.findByPath s.tree "/soc/qcom,ioss" = some iossRoot ∧
      pcieFindChildByName s.tree pcieNode "pcie0_rp" = some rp ∧
      (runtimeNodesPresent s.tree soc.id rp.id = true ∧ s' = s ∨
        runtimeNodesPresent s.tree soc.id rp.id = false ∧
          s'.tree = injected s.tree pcieNode soc iossRoot iommuGroup rp) := by
  unfold pcieAttachRuntimeNodes at h
  obtain ⟨t, s₁, hget, h⟩ := exec_bind_ok h
  cases hget
  dsimp only at h
  split at h
  · rename_i soc iossRoot iommuGroup rp hsoc hioss hiommu hrp
    refine ⟨soc, iossRoot, iommuGroup, rp, hsoc, hioss, hrp, ?_⟩
    split at h
    · rename_i hpresent
      cases h
      exact .inl ⟨hpresent, rfl⟩
    · rename_i hpresent
      exact .inr ⟨by simpa using hpresent, attachRuntimeNodes_ok h⟩
  · cases h

end IpaOffload.DeviceTree
