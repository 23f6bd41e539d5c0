import IpaOffload.Lib.Runs
import Mathlib.Logic.Function.Basic

/-!
# The page tables of IPA's SMMU devices

`pcie_enabler_non_es_v1` makes the two Ethernet context banks use the page
middle directories of the AP context bank: once when it is loaded and then from
a delayed work that arms itself again. In between, devices come and go and
their page tables change.
-/

namespace IpaOffload.Smmu

open Runs Function

/-- `struct av8l_fast_io_pgtable`: `pmds`, `base`, `end`. -/
structure FastTable where
  pmds : Nat
  base : Nat
  stop : Nat
  deriving DecidableEq, Repr

structure SmmuDevice where
  id : Nat
  name : String
  domain : Option Nat
  deriving Repr

structure Iommu where
  /-- In the order of the bus. -/
  bus : List SmmuDevice
  /-- `pgtbl_ops[0]` of a domain: its page table. -/
  pgtblOps : Nat → Option Nat
  table : Nat → FastTable
  /-- The references that the module has taken on a device. -/
  held : Nat → Nat

def Iommu.getDevice (s : Iommu) (dev : Option SmmuDevice) : Iommu :=
  match dev with
  | none => s
  | some dev => { s with held := update s.held dev.id (s.held dev.id + 1) }

def Iommu.putDevice (s : Iommu) (dev : Option SmmuDevice) : Iommu :=
  match dev with
  | none => s
  | some dev => { s with held := update s.held dev.id (s.held dev.id - 1) }

def smmuDevMatch (suffix : String) (dev : SmmuDevice) : Bool := suffix.toList.isSuffixOf dev.name.toList

/-- `find_ipa_smmu_dev`, less the reference that it takes. -/
def Iommu.findIpaSmmuDev (s : Iommu) (suffix : String) : Option SmmuDevice := s.bus.find? (smmuDevMatch suffix)

def Iommu.tableOf (s : Iommu) (dev : Option SmmuDevice) : Option Nat := (dev.bind (·.domain)).bind s.pgtblOps

def apSuffix : String := ":ipa_smmu_ap"

def slaveSuffixes : List String := [":ipa_smmu_eth", ":ipa_smmu_eth1"]

/-- The body of `fix_one_slave_pmds`, between taking and giving back the devices:
whether it has fixed something. -/
def Iommu.fixTable (isVmallocAddr : Nat → Bool) (s : Iommu) (ap slave : Option SmmuDevice) : Bool × Iommu :=
  match s.tableOf ap, s.tableOf slave with
  | some a, some t =>
    if !isVmallocAddr (s.table a).pmds then (false, s)
    else if s.table t ≠ s.table a then (true, { s with table := update s.table t (s.table a) })
    else (false, s)
  | _, _ => (false, s)

def Iommu.fixOneSlavePmds (isVmallocAddr : Nat → Bool) (s : Iommu) (suffix : String) : Bool × Iommu :=
  let ap := s.findIpaSmmuDev apSuffix
  let s := s.getDevice ap
  let slave := s.findIpaSmmuDev suffix
  let s := s.getDevice slave
  let (fixed, s) := s.fixTable isVmallocAddr ap slave
  (fixed, (s.putDevice ap).putDevice slave)

/-- `run_pmds_fix_pass`: whether it changed anything. -/
def Iommu.runPmdsFixPass (isVmallocAddr : Nat → Bool) (s : Iommu) : Bool × Iommu :=
  let (eth, s) := s.fixOneSlavePmds isVmallocAddr ":ipa_smmu_eth"
  let (eth1, s) := s.fixOneSlavePmds isVmallocAddr ":ipa_smmu_eth1"
  (eth || eth1, s)

-- ---------------------------------------------------------------------------
-- The module
-- ---------------------------------------------------------------------------

def pmdsRecheckMax : Nat := 15

/-- `armed` says that the recheck work is pending; `passes` counts those since the
module was loaded, `touched` says that something else changed since the last one. -/
structure Module where
  smmu : Iommu
  loaded : Bool
  armed : Bool
  pmdsRecheckCount : Nat
  passes : Nat
  touched : Bool

def Module.pass (isVmallocAddr : Nat → Bool) (s : Module) : Module :=
  { s with smmu := (s.smmu.runPmdsFixPass isVmallocAddr).2, passes := s.passes + 1, touched := false }

/-- The end of `pcie_enabler_non_es_init`: a pass, and `start_pmds_recheck`. -/
def Module.init (isVmallocAddr : Nat → Bool) (s : Module) : Module :=
  if s.loaded then s
  else
    let s := ({ s with passes := 0 } : Module).pass isVmallocAddr
    { s with loaded := true, pmdsRecheckCount := 0, armed := true }

def Module.pmdsRecheckFn (isVmallocAddr : Nat → Bool) (s : Module) : Module :=
  if !s.armed then s
  else
    let s := s.pass isVmallocAddr
    let count := s.pmdsRecheckCount + 1
    { s with pmdsRecheckCount := count, armed := count < pmdsRecheckMax }

inductive Event
  | init
  | recheck
  | exit
  /-- Devices, domains and page tables change. -/
  | change (bus : List SmmuDevice) (pgtblOps : Nat → Option Nat) (table : Nat → FastTable)

def Module.step (isVmallocAddr : Nat → Bool) (s : Module) : Event → Module
  | .init => s.init isVmallocAddr
  | .recheck => s.pmdsRecheckFn isVmallocAddr
  | .exit => { s with loaded := false, armed := false }
  | .change bus pgtblOps table => { s with smmu := { s.smmu with bus, pgtblOps, table }, touched := true }

-- ---------------------------------------------------------------------------
-- One slave
-- ---------------------------------------------------------------------------

section
variable {isVmallocAddr : Nat → Bool}

def Iommu.apTable (s : Iommu) : Option Nat := s.tableOf (s.findIpaSmmuDev apSuffix)

def Iommu.slaveTable (s : Iommu) (suffix : String) : Option Nat := s.tableOf (s.findIpaSmmuDev suffix)

def Aligned (isVmallocAddr : Nat → Bool) (s : Iommu) (suffix : String) : Prop :=
  ∀ a t, s.apTable = some a → s.slaveTable suffix = some t → isVmallocAddr (s.table a).pmds = true →
    s.table t = s.table a

theorem held_put_get (held : Nat → Nat) (i j : Nat) :
    let h1 := update held i (held i + 1)
    let h2 := update h1 j (h1 j + 1)
    let h3 := update h2 i (h2 i - 1)
    update h3 j (h3 j - 1) = held := by
  intro h1 h2 h3
  funext x
  by_cases hj : x = j <;> by_cases hi : x = i <;> simp_all [h1, h2, h3, update_apply]

inductive Fixes (isVmallocAddr : Nat → Bool) (s : Iommu) (suffix : String) : Iommu → Prop
  | kept (h : Aligned isVmallocAddr s suffix) : Fixes isVmallocAddr s suffix s
  | fixed {a t : Nat} (ha : s.apTable = some a) (ht : s.slaveTable suffix = some t)
      (hv : isVmallocAddr (s.table a).pmds = true) :
      Fixes isVmallocAddr s suffix { s with table := update s.table t (s.table a) }

theorem fixTable_fixes (s : Iommu) (suffix : String) :
    Fixes isVmallocAddr s suffix
      (s.fixTable isVmallocAddr (s.findIpaSmmuDev apSuffix) (s.findIpaSmmuDev suffix)).2 := by
  unfold Iommu.fixTable
  split
  case h_1 a t ha ht =>
    split
    case isTrue hv =>
      refine .kept fun a' t' ha' _ hv' => ?_
      obtain rfl : a = a' := Option.some.inj (ha.symm.trans ha')
      rw [hv'] at hv
      cases hv
    case isFalse hv =>
      have hv : isVmallocAddr (s.table a).pmds = true := by simpa using hv
      split
      case isTrue => exact .fixed ha ht hv
      case isFalse heq =>
        refine .kept fun a' t' ha' ht' _ => ?_
        obtain rfl : a = a' := Option.some.inj (ha.symm.trans ha')
        obtain rfl : t = t' := Option.some.inj (ht.symm.trans ht')
        exact not_not.mp heq
  case h_2 hnone => exact .kept fun a t ha ht _ => absurd ht (hnone a t ha)

theorem getDevice_getDevice (s : Iommu) (ap slave : Option SmmuDevice) :
    (s.getDevice ap).getDevice slave = { s with held := ((s.getDevice ap).getDevice slave).held } := by
  cases ap <;> cases slave <;> rfl

theorem putDevice_putDevice (s r : Iommu) (ap slave : Option SmmuDevice)
    (h : r.held = ((s.getDevice ap).getDevice slave).held) :
    (r.putDevice ap).putDevice slave = { r with held := s.held } := by
  obtain ⟨bus, pgtblOps, table, held⟩ := r
  obtain rfl : held = _ := h
  have hone : ∀ i : Nat, update (update s.held i (s.held i + 1)) i (update s.held i (s.held i + 1) i - 1) = s.held := by
    intro i
    simp
  cases ap with
  | none =>
    cases slave with
    | none => rfl
    | some slave => simp only [Iommu.putDevice, Iommu.getDevice, hone]
  | some ap =>
    cases slave with
    | none => simp only [Iommu.putDevice, Iommu.getDevice, hone]
    | some slave =>
      have hboth := held_put_get s.held ap.id slave.id
      simp only at hboth
      simp only [Iommu.putDevice, Iommu.getDevice, hboth]

theorem findIpaSmmuDev_getDevice (s : Iommu) (dev : Option SmmuDevice) (suffix : String) :
    (s.getDevice dev).findIpaSmmuDev suffix = s.findIpaSmmuDev suffix := by
  cases dev <;> rfl

theorem fixOneSlave_fixes (s : Iommu) (suffix : String) :
    Fixes isVmallocAddr s suffix (s.fixOneSlavePmds isVmallocAddr suffix).2 := by
  let ap := s.findIpaSmmuDev apSuffix
  let slave := s.findIpaSmmuDev suffix
  let s2 : Iommu := { s with held := ((s.getDevice ap).getDevice slave).held }
  have hsame : (s.fixOneSlavePmds isVmallocAddr suffix).2 =
      ((s2.fixTable isVmallocAddr ap slave).2.putDevice ap).putDevice slave := by
    unfold Iommu.fixOneSlavePmds
    simp only [findIpaSmmuDev_getDevice]
    rw [getDevice_getDevice]
  have hfix : Fixes isVmallocAddr s2 suffix (s2.fixTable isVmallocAddr ap slave).2 := fixTable_fixes s2 suffix
  rw [hsame]
  generalize (s2.fixTable isVmallocAddr ap slave).2 = r at hfix ⊢
  have hheld : r.held = s2.held := by cases hfix <;> rfl
  rw [putDevice_putDevice s r ap slave hheld]
  cases hfix with
  | kept h => exact .kept h
  | fixed ha ht hv => exact .fixed ha ht hv

-- ---------------------------------------------------------------------------
-- A pass
-- ---------------------------------------------------------------------------

theorem Fixes.ap {s s' : Iommu} {suffix : String} (h : Fixes isVmallocAddr s suffix s') :
    s'.apTable = s.apTable ∧ (∀ suffix', s'.slaveTable suffix' = s.slaveTable suffix') ∧
      ∀ a, s.apTable = some a → s'.table a = s.table a := by
  cases h with
  | kept => exact ⟨rfl, fun _ => rfl, fun _ _ => rfl⟩
  | @fixed a t ha ht hv =>
    refine ⟨rfl, fun _ => rfl, fun a' ha' => ?_⟩
    obtain rfl : a = a' := Option.some.inj (ha.symm.trans ha')
    by_cases hat : a = t
    · subst hat
      exact update_self _ _ _
    · exact update_of_ne hat _ _

theorem Fixes.aligned {s s' : Iommu} {suffix : String} (h : Fixes isVmallocAddr s suffix s') :
    Aligned isVmallocAddr s' suffix := by
  cases h with
  | kept h => exact h
  | @fixed a t ha ht hv =>
    intro a' t' ha' ht' _
    obtain rfl : a = a' := Option.some.inj (ha.symm.trans ha')
    obtain rfl : t = t' := Option.some.inj (ht.symm.trans ht')
    have hself : update s.table t (s.table a) a = s.table a := (Fixes.fixed ha ht hv).ap.2.2 a ha
    exact (update_self _ _ _).trans hself.symm

theorem Fixes.keeps {s s' : Iommu} {suffix suffix' : String} (h : Fixes isVmallocAddr s suffix s')
    (hs : Aligned isVmallocAddr s suffix') : Aligned isVmallocAddr s' suffix' := by
  obtain ⟨hap, hslave, htable⟩ := h.ap
  intro a t' ha ht' hv
  rw [hap] at ha
  rw [hslave] at ht'
  rw [htable a ha] at hv ⊢
  have hold := hs a t' ha ht' hv
  cases h with
  | kept => exact hold
  | @fixed a' t ha' ht hv' =>
    obtain rfl : a' = a := Option.some.inj (ha'.symm.trans ha)
    by_cases htt : t' = t
    · subst htt
      exact update_self _ _ _
    · exact (update_of_ne htt _ _).trans hold

theorem Fixes.frame {s s' : Iommu} {suffix : String} (h : Fixes isVmallocAddr s suffix s') (t : Nat) :
    s'.table t = s.table t ∨
      s.slaveTable suffix = some t ∧ ∃ a, s.apTable = some a ∧ s'.table t = s.table a := by
  cases h with
  | kept => exact .inl rfl
  | @fixed a t' ha ht' hv =>
    by_cases htt : t = t'
    · subst htt
      exact .inr ⟨ht', a, ha, update_self _ _ _⟩
    · exact .inl (update_of_ne htt _ _)

theorem Fixes.held {s s' : Iommu} {suffix : String} (h : Fixes isVmallocAddr s suffix s') : s'.held = s.held := by
  cases h <;> rfl

structure PassSpec (isVmallocAddr : Nat → Bool) (s s' : Iommu) : Prop where
  aligned : ∀ suffix ∈ slaveSuffixes, Aligned isVmallocAddr s' suffix
  apTable : s'.apTable = s.apTable
  slaveTable : ∀ suffix, s'.slaveTable suffix = s.slaveTable suffix
  ap : ∀ a, s.apTable = some a → s'.table a = s.table a
  frame : ∀ t, s'.table t = s.table t ∨
    (∃ suffix ∈ slaveSuffixes, s.slaveTable suffix = some t) ∧ ∃ a, s.apTable = some a ∧ s'.table t = s.table a
  held : s'.held = s.held

theorem runPmdsFixPass_spec (isVmallocAddr : Nat → Bool) (s : Iommu) :
    PassSpec isVmallocAddr s (s.runPmdsFixPass isVmallocAddr).2 := by
  have heth : Fixes isVmallocAddr s ":ipa_smmu_eth" (s.fixOneSlavePmds isVmallocAddr ":ipa_smmu_eth").2 :=
    fixOneSlave_fixes s _
  let s1 := (s.fixOneSlavePmds isVmallocAddr ":ipa_smmu_eth").2
  have heth1 : Fixes isVmallocAddr s1 ":ipa_smmu_eth1" (s.runPmdsFixPass isVmallocAddr).2 := fixOneSlave_fixes s1 _
  have hap := heth.ap
  have hap1 := heth1.ap
  constructor
  · intro suffix hsuffix
    rcases List.mem_cons.mp hsuffix with rfl | hsuffix
    · exact heth1.keeps heth.aligned
    · obtain rfl := List.mem_singleton.mp hsuffix
      exact heth1.aligned
  · exact hap1.1.trans hap.1
  · exact fun suffix => (hap1.2.1 suffix).trans (hap.2.1 suffix)
  · exact fun a ha => (hap1.2.2 a (hap.1.trans ha)).trans (hap.2.2 a ha)
  · intro t
    rcases heth1.frame t with hsame | ⟨hslave, a, ha, htable⟩
    · rw [hsame]
      rcases heth.frame t with hsame' | ⟨hslave, hrest⟩
      · exact .inl hsame'
      · exact .inr ⟨⟨_, by simp [slaveSuffixes], hslave⟩, hrest⟩
    · have ha' : s.apTable = some a := hap.1.symm.trans ha
      refine .inr ⟨⟨_, by simp [slaveSuffixes], (hap.2.1 _).symm.trans hslave⟩, a, ha', ?_⟩
      exact htable.trans (hap.2.2 a ha')
  · exact heth1.held.trans heth.held

-- ---------------------------------------------------------------------------
-- Over runs
-- ---------------------------------------------------------------------------

def Module.new (bus : List SmmuDevice) (pgtblOps : Nat → Option Nat) (table : Nat → FastTable) : Module where
  smmu := { bus, pgtblOps, table, held := fun _ => 0 }
  loaded := false
  armed := false
  pmdsRecheckCount := 0
  passes := 0
  touched := true

structure Module.Inv (isVmallocAddr : Nat → Bool) (s : Module) : Prop where
  held : ∀ dev, s.smmu.held dev = 0
  armed : s.armed = true →
    s.loaded = true ∧ s.passes = s.pmdsRecheckCount + 1 ∧ s.pmdsRecheckCount < pmdsRecheckMax
  bound : s.passes ≤ pmdsRecheckMax + 1
  aligned : s.touched = false → ∀ suffix ∈ slaveSuffixes, Aligned isVmallocAddr s.smmu suffix

theorem Module.step_inv (s : Module) (e : Event) (h : s.Inv isVmallocAddr) :
    (s.step isVmallocAddr e).Inv isVmallocAddr := by
  have hpass := runPmdsFixPass_spec isVmallocAddr s.smmu
  have hheld : ∀ dev, (s.smmu.runPmdsFixPass isVmallocAddr).2.held dev = 0 := fun dev => by
    rw [hpass.held]
    exact h.held dev
  cases e with
  | init =>
    rw [Module.step, Module.init]
    split
    · exact h
    · refine ⟨hheld, fun _ => ⟨rfl, rfl, Nat.zero_lt_succ _⟩, ?_, fun _ => hpass.aligned⟩
      exact Nat.succ_le_succ (Nat.zero_le _)
  | recheck =>
    rw [Module.step, Module.pmdsRecheckFn]
    split
    · exact h
    case isFalse harmed =>
      obtain ⟨hloaded, hpasses, hcount⟩ := h.armed (by simpa using harmed)
      have hbound : s.passes + 1 ≤ pmdsRecheckMax + 1 := by omega
      refine ⟨hheld, fun hagain => ⟨hloaded, ?_, by simpa using hagain⟩, hbound, fun _ => hpass.aligned⟩
      exact congrArg (· + 1) hpasses
  | exit => exact ⟨h.held, fun harmed => Bool.noConfusion harmed, h.bound, h.aligned⟩
  | change bus pgtblOps table => exact ⟨h.held, h.armed, h.bound, fun htouched => Bool.noConfusion htouched⟩

/-- In every run: the module holds no device, it makes at most 16 passes for each
time it is loaded, and unless something has changed since the last pass, the
slaves are in line with the AP. -/
theorem slaves_in_line_since_last_pass (isVmallocAddr : Nat → Bool) (bus : List SmmuDevice)
    (pgtblOps : Nat → Option Nat) (table : Nat → FastTable) (es : List Event) :
    let s := run (Module.step isVmallocAddr) (.new bus pgtblOps table) es
    (∀ dev, s.smmu.held dev = 0) ∧ s.passes ≤ 16 ∧
      (s.touched = false → ∀ suffix ∈ slaveSuffixes, ∀ a t, s.smmu.apTable = some a →
        s.smmu.slaveTable suffix = some t → isVmallocAddr (s.smmu.table a).pmds = true →
        s.smmu.table t = s.smmu.table a) := by
  intro s
  have hinv : s.Inv isVmallocAddr := by
    refine run_invariant Module.step_inv ?_ es
    exact ⟨fun _ => rfl, fun h => Bool.noConfusion h, Nat.zero_le _, fun h => Bool.noConfusion h⟩
  exact ⟨hinv.held, hinv.bound, hinv.aligned⟩

structure OnlyAligns (s s' : Iommu) : Prop where
  apTable : s'.apTable = s.apTable
  slaveTable : ∀ suffix, s'.slaveTable suffix = s.slaveTable suffix
  ap : ∀ a, s.apTable = some a → s'.table a = s.table a
  frame : ∀ t, s'.table t = s.table t ∨
    (∃ suffix ∈ slaveSuffixes, s.slaveTable suffix = some t) ∧ ∃ a, s.apTable = some a ∧ s'.table t = s.table a

theorem OnlyAligns.refl (s : Iommu) : OnlyAligns s s := ⟨rfl, fun _ => rfl, fun _ _ => rfl, fun _ => .inl rfl⟩

theorem OnlyAligns.trans {s s' s'' : Iommu} (h : OnlyAligns s s') (h' : OnlyAligns s' s'') : OnlyAligns s s'' := by
  refine ⟨h'.apTable.trans h.apTable, fun suffix => (h'.slaveTable suffix).trans (h.slaveTable suffix),
    fun a ha => (h'.ap a (h.apTable.trans ha)).trans (h.ap a ha), fun t => ?_⟩
  rcases h'.frame t with hsame | ⟨⟨suffix, hsuffix, hslave⟩, a, ha, htable⟩
  · rw [hsame]
    exact h.frame t
  · have ha' : s.apTable = some a := h.apTable.symm.trans ha
    exact .inr ⟨⟨suffix, hsuffix, (h.slaveTable suffix).symm.trans hslave⟩, a, ha', htable.trans (h.ap a ha')⟩

theorem PassSpec.onlyAligns {s s' : Iommu} (h : PassSpec isVmallocAddr s s') : OnlyAligns s s' :=
  ⟨h.apTable, h.slaveTable, h.ap, h.frame⟩

def Event.isChange : Event → Bool
  | .change .. => true
  | _ => false

theorem Module.step_onlyAligns (s : Module) {e : Event} (h : e.isChange = false) :
    OnlyAligns s.smmu (s.step isVmallocAddr e).smmu := by
  have hpass := (runPmdsFixPass_spec isVmallocAddr s.smmu).onlyAligns
  cases e with
  | init =>
    rw [Module.step, Module.init]
    split
    · exact .refl _
    · exact hpass
  | recheck =>
    rw [Module.step, Module.pmdsRecheckFn]
    split
    · exact .refl _
    · exact hpass
  | exit => exact .refl _
  | change => cases h

/-- However often the module is loaded, rechecks and is removed while nothing else
changes: the AP's table stays as it is, and any other one is as it was or is a
slave's and holds what the AP's holds. -/
theorem passes_only_align_slaves (isVmallocAddr : Nat → Bool) (s : Module) (es : List Event)
    (hes : ∀ e ∈ es, e.isChange = false) :
    let s' := run (Module.step isVmallocAddr) s es
    (∀ a, s.smmu.apTable = some a → s'.smmu.table a = s.smmu.table a) ∧
      ∀ t, s'.smmu.table t = s.smmu.table t ∨
        (∃ suffix ∈ slaveSuffixes, s.smmu.slaveTable suffix = some t) ∧
          ∃ a, s.smmu.apTable = some a ∧ s'.smmu.table t = s.smmu.table a := by
  intro s'
  have honly : OnlyAligns s.smmu s'.smmu := by
    refine run_inv (I := fun s' : Module => OnlyAligns s.smmu s'.smmu) (C := fun _ e => Event.isChange e = false)
      ?_ (.refl _) (Meets.of_forall (fun e he _ => hes e he) s)
    exact fun s1 e h1 he => h1.trans (s1.step_onlyAligns he)
  exact ⟨honly.ap, honly.frame⟩

/-- A load and two rechecks. -/
theorem passes_only_align_slaves_two_rechecks :
    let device (id : Nat) (name : String) : SmmuDevice := { id, name, domain := some id }
    let bus := [device 0 "soc:ipa_smmu_ap", device 1 "soc:ipa_smmu_eth", device 2 "soc:ipa_smmu_eth1"]
    let ap : FastTable := { pmds := 0xe0000000, base := 0, stop := 0x100000 }
    let table : Nat → FastTable := fun t => if t = 1 then { pmds := 0, base := 0, stop := 0 } else ap
    (run (Module.step fun _ => true) (.new bus some table) [.init, .recheck, .recheck]).smmu.table 0 = ap := by
  intro device bus ap table
  have honly := passes_only_align_slaves (fun _ => true) (.new bus some table) [.init, .recheck, .recheck]
    (by simp [Event.isChange])
  exact honly.1 0 (by decide)

end

end IpaOffload.Smmu
