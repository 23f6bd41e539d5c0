import IpaOffload.Lib.Runs
import IpaOffload.Ioss.Net
import Mathlib.Data.Set.Insert
import Mathlib.Logic.Function.Basic

/-!
# Who owns the TCM

The TCM is taken while a configuration is chosen and given back when the
configuration is dropped, by the allocator that the configuration names. The
two agree unless the memory granted makes a ring that is refused, or a channel
that owns the TCM is allocated again.
-/

namespace IpaOffload.Ioss

open DeviceTree Fallible Runs

variable {D C : Type}

def NetChannel.UsesLlcc (ch : NetChannel D) : Prop := ch.config.buffAlctr = some .llcc

instance (ch : NetChannel D) : Decidable ch.UsesLlcc := inferInstanceAs (Decidable (_ = _))

-- ---------------------------------------------------------------------------
-- One channel
-- ---------------------------------------------------------------------------

def granted (env : ConfigEnv) (tcm : Option TcmData) : Option TcmData :=
  if env.disableTcm = false ∧ tcm = none then env.tcmActivate else none

def offered (env : ConfigEnv) (s : OnChannel D) : Option TcmData :=
  if env.wantsLlcc s.ch then granted env s.tcm else none

def llccConfig (config : ChannelConfig) (data : TcmData) : ChannelConfig :=
  if isPowerOf2 (llccRingSize data.memSize config) then
    { config with ringSize := llccRingSize data.memSize config, buffAlctr := some .llcc }
  else config

def withConfig (s : OnChannel D) (config : ChannelConfig) : OnChannel D :=
  { s with ch := { s.ch with config := config } }

def selected (env : ConfigEnv) (s : OnChannel D) : OnChannel D :=
  match offered env s with
  | none => withConfig s s.ch.defaultConfig
  | some data => { withConfig s (llccConfig s.ch.defaultConfig data) with tcm := some data }

def deselected (s : OnChannel D) : OnChannel D :=
  { withConfig s s.ch.defaultConfig with tcm := if s.ch.UsesLlcc then none else s.tcm }

theorem isPowerOf2_llccRingSize_zero (config : ChannelConfig) : isPowerOf2 (llccRingSize 0 config) = false := by
  unfold llccRingSize
  rw [Nat.zero_div]
  rfl

theorem exec_llccMemGet (env : ConfigEnv) (s : OnChannel D) :
    exec (llccMemGet env) s =
      match if s.tcm = none then env.tcmActivate else none with
      | none => (.ok 0, s)
      | some data => (.ok data.memSize, { s with tcm := some data }) := by
  unfold llccMemGet
  rw [exec_bind_of_ok (exec_get s)]
  cases htcm : s.tcm with
  | some data => simp
  | none =>
    cases hact : env.tcmActivate with
    | none => simp
    | some data =>
      rw [if_neg (by simp), exec_bind_of_ok (exec_set _ _)]
      simp

theorem selectLlccConfig_refused {env : ConfigEnv} {s : OnChannel D} (h : granted env s.tcm = none) :
    (exec (iossNetSelectLlccConfig env) s).2 = s := by
  unfold iossNetSelectLlccConfig
  cases hdis : env.disableTcm with
  | true => simp
  | false =>
    have hget : exec (llccMemGet env) s = (.ok 0, s) := by
      rw [exec_llccMemGet]
      simp only [granted, hdis, true_and] at h
      rw [h]
    rw [if_neg (by simp)]
    dsimp only
    rw [exec_bind_of_ok hget]
    simp

theorem selectLlccConfig_granted {env : ConfigEnv} {s : OnChannel D} {data : TcmData}
    (h : granted env s.tcm = some data) :
    (exec (iossNetSelectLlccConfig env) s).2 =
      { withConfig s (llccConfig s.ch.config data) with tcm := some data } := by
  obtain ⟨⟨hdis, htcm⟩, hact⟩ : (env.disableTcm = false ∧ s.tcm = none) ∧ env.tcmActivate = some data := by
    unfold granted at h
    split at h
    · exact ⟨‹_›, h⟩
    · cases h
  have hget : exec (llccMemGet env) s = (.ok data.memSize, { s with tcm := some data }) := by
    rw [exec_llccMemGet, if_pos htcm, hact]
  unfold iossNetSelectLlccConfig llccConfig
  rw [if_neg (by simp [hdis])]
  dsimp only
  rw [exec_bind_of_ok hget]
  by_cases hzero : data.memSize = 0
  · simp [hzero, isPowerOf2_llccRingSize_zero, withConfig]
  · cases hpow : isPowerOf2 (llccRingSize data.memSize s.ch.config) <;>
      simp [exec_bind, hzero, hpow, withConfig, exec_setConfig]

theorem exec_selectChannelConfig (env : ConfigEnv) (s : OnChannel D) :
    exec (iossNetSelectChannelConfig env) s = (.ok (), selected env s) := by
  unfold iossNetSelectChannelConfig selected offered
  rw [exec_bind_of_ok (exec_setConfig _ s), exec_bind_of_ok (exec_get _)]
  change exec (if env.wantsLlcc s.ch = true then _ else _) _ = _
  by_cases hwants : env.wantsLlcc s.ch = true
  swap
  · rw [if_neg hwants, if_neg hwants]
    rfl
  rw [if_pos hwants, if_pos hwants, exec_tryCatch_pure]
  cases hgrant : granted env s.tcm with
  | none =>
    rw [selectLlccConfig_refused (by exact hgrant)]
    rfl
  | some data =>
    rw [selectLlccConfig_granted (by exact hgrant)]
    rfl

theorem exec_deselectChannelConfig (s : OnChannel D) :
    exec iossNetDeselectChannelConfig s = (.ok (), deselected s) := by
  unfold iossNetDeselectChannelConfig deselected
  rw [exec_bind_of_ok (exec_get s)]
  by_cases huses : s.ch.UsesLlcc
  · rw [if_pos (show s.ch.config.buffAlctr = some .llcc from huses), if_pos huses]
    rfl
  · rw [if_neg (show ¬ s.ch.config.buffAlctr = some .llcc from huses), if_neg huses]
    rfl

theorem selected_driven (env : ConfigEnv) (s : OnChannel D) :
    (selected env s).ch.driven = s.ch.driven := by
  unfold selected
  split <;> rfl

def SameMemory (s s' : OnChannel D) : Prop := s'.ch.config = s.ch.config ∧ s'.tcm = s.tcm

variable (ops : ChannelOps D)

def OnChannel.drive (s : OnChannel D) (driven : D) : OnChannel D := { s with ch := { s.ch with driven } }

def OnChannel.allocate (s : OnChannel D) (allocated : Bool) : OnChannel D := { s with ch := { s.ch with allocated } }

theorem exec_allocChannel (env : ConfigEnv) (debugfs : Option Errno) (s : OnChannel D) :
    exec (iossNetAllocChannel ops env debugfs) s =
      match ops.requestChannel (selected env s).ch, debugfs with
      | (.error e, d), _ => (.error e, deselected ((selected env s).drive d))
      | (.ok _, d), none => (.ok (), ((selected env s).drive d).allocate true)
      | (.ok _, d), some e =>
        let s' := ((selected env s).drive d).allocate true
        (.error e, deselected ((s'.drive (ops.releaseChannel s'.ch).2).allocate false)) := by
  unfold iossNetAllocChannel
  rw [exec_bind_of_ok (exec_selectChannelConfig env s), exec_bind_of_ok (exec_iossDevOp _ _)]
  rcases hreq : ops.requestChannel (selected env s).ch with ⟨e | _, d⟩
  · dsimp only
    rw [exec_bind_of_ok (exec_deselectChannelConfig _)]
    rfl
  · cases debugfs with
    | none => rfl
    | some e =>
      dsimp only
      rw [exec_bind_of_ok (exec_setCh _ _), exec_bind_of_ok (exec_iossDevOp _ _),
        exec_bind_of_ok (exec_setCh _ _), exec_bind_of_ok (exec_deselectChannelConfig _)]
      rfl

theorem exec_freeChannel (s : OnChannel D) :
    exec (iossNetFreeChannel ops) s =
      match ops.releaseChannel s.ch with
      | (.error e, d) => (.error e, s.drive d)
      | (.ok _, d) => (.ok (), deselected ((s.drive d).allocate false)) := by
  unfold iossNetFreeChannel
  rw [exec_bind_of_ok (exec_iossDevOp _ _)]
  rcases ops.releaseChannel s.ch with ⟨e | _, d⟩
  · rfl
  · dsimp only
    rw [exec_bind_of_ok (exec_setCh _ _), exec_deselectChannelConfig]
    rfl

theorem allocChannel_memory (env : ConfigEnv) (debugfs : Option Errno) (s : OnChannel D) :
    SameMemory (selected env s) (exec (iossNetAllocChannel ops env debugfs) s).2 ∨
      SameMemory (deselected (selected env s)) (exec (iossNetAllocChannel ops env debugfs) s).2 := by
  rw [exec_allocChannel]
  generalize selected env s = s₁
  rcases ops.requestChannel s₁.ch with ⟨e | _, d⟩
  · exact .inr ⟨rfl, rfl⟩
  · cases debugfs with
    | none => exact .inl ⟨rfl, rfl⟩
    | some e => exact .inr ⟨rfl, rfl⟩

theorem freeChannel_memory (s : OnChannel D) :
    SameMemory s (exec (iossNetFreeChannel ops) s).2 ∨
      SameMemory (deselected s) (exec (iossNetFreeChannel ops) s).2 := by
  rw [exec_freeChannel]
  rcases ops.releaseChannel s.ch with ⟨e | _, d⟩
  · exact .inl ⟨rfl, rfl⟩
  · exact .inr ⟨rfl, rfl⟩

-- ---------------------------------------------------------------------------
-- All channels
-- ---------------------------------------------------------------------------

structure NetState (C D : Type) where
  chan : C → NetChannel D
  tcm : Option TcmData

/-- The calls that change a configuration. The driver is any. -/
inductive NetAction (C D : Type)
  | alloc (c : C) (ops : ChannelOps D) (env : ConfigEnv) (debugfs : Option Errno)
  | free (c : C) (ops : ChannelOps D)

section
variable [DecidableEq C]

def NetState.on (s : NetState C D) (c : C) (x : Net D Unit) : NetState C D :=
  let r := (exec x { ch := s.chan c, tcm := s.tcm }).2
  { chan := Function.update s.chan c r.ch, tcm := r.tcm }

def NetState.step (s : NetState C D) : NetAction C D → NetState C D
  | .alloc c ops env debugfs => s.on c (iossNetAllocChannel ops env debugfs)
  | .free c ops => s.on c (iossNetFreeChannel ops)

end

def NetState.init (chs : C → Channel) (driven : C → D) : NetState C D where
  chan c := (chs c).toNet (driven c)
  tcm := none

def NetState.users (s : NetState C D) : Set C := { c | (s.chan c).UsesLlcc }

/-- The TCM is active just if exactly one channel uses it. -/
def NetState.Balanced (s : NetState C D) : Prop := s.tcm.isSome ↔ ∃! c, (s.chan c).UsesLlcc

def NetState.Owned (s : NetState C D) : Prop := if s.tcm.isSome then ∃ c, s.users = {c} else s.users = ∅

theorem NetState.balanced_of_owned {s : NetState C D} (h : s.Owned) : s.Balanced := by
  unfold Owned at h
  unfold Balanced
  split at h
  · rename_i hsome
    obtain ⟨c, hc⟩ := h
    refine iff_of_true hsome ⟨c, ?_, fun c' hc' => ?_⟩
    · exact hc.ge (Set.mem_singleton c)
    · exact hc.le hc'
  · rename_i hnone
    refine iff_of_false hnone ?_
    rintro ⟨c, hc, -⟩
    exact h.le hc

theorem NetState.init_owned (chs : C → Channel) (driven : C → D) : (init chs driven).Owned := by
  refine Set.eq_empty_iff_forall_notMem.mpr fun c hc => ?_
  cases hc

/-- A TCM that nobody uses is lost. -/
theorem NetState.not_balanced_of_lost {s : NetState C D} (hsome : s.tcm.isSome) (h : s.users = ∅) :
    ¬ s.Balanced := by
  intro hbal
  obtain ⟨c, hc, -⟩ := hbal.mp hsome
  exact h.le hc

/-- What a call makes of the TCM, seen from its channel. -/
inductive Transfer (s s' : OnChannel D) : Prop
  | keep (h : s'.ch.UsesLlcc ↔ s.ch.UsesLlcc) (htcm : s'.tcm = s.tcm)
  | take (hfree : s.tcm = none) (huses : s'.ch.UsesLlcc) (htcm : s'.tcm.isSome)
  | drop (hused : s.ch.UsesLlcc) (huses : ¬ s'.ch.UsesLlcc) (htcm : s'.tcm = none)

/-- The calls that the TCM survives: a channel that uses it is not allocated
again, and what is granted makes a ring of a power of two. -/
def NetAction.Sound (s : NetState C D) : NetAction C D → Prop
  | .alloc c _ env _ =>
    ¬ (s.chan c).UsesLlcc ∧
      ∀ data, offered env { ch := s.chan c, tcm := s.tcm } = some data →
        isPowerOf2 (llccRingSize data.memSize (s.chan c).defaultConfig)
  | .free _ _ => True

theorem NetChannel.default_not_llcc (ch : NetChannel D) : ch.defaultConfig.buffAlctr ≠ some .llcc := by
  rw [ch.default_plain]
  decide

theorem SameMemory.uses {s s' : OnChannel D} (h : SameMemory s s') : s'.ch.UsesLlcc ↔ s.ch.UsesLlcc := by
  unfold NetChannel.UsesLlcc
  rw [h.1]

theorem deselected_not_uses (s : OnChannel D) : ¬ (deselected s).ch.UsesLlcc := s.ch.default_not_llcc

theorem selected_refused {env : ConfigEnv} {s : OnChannel D} (h : offered env s = none) :
    ¬ (selected env s).ch.UsesLlcc ∧ (selected env s).tcm = s.tcm := by
  unfold selected
  rw [h]
  exact ⟨s.ch.default_not_llcc, rfl⟩

theorem selected_granted {env : ConfigEnv} {s : OnChannel D} {data : TcmData} (h : offered env s = some data) :
    ((selected env s).ch.UsesLlcc ↔ isPowerOf2 (llccRingSize data.memSize s.ch.defaultConfig)) ∧
      (selected env s).tcm = some data := by
  unfold selected
  rw [h]
  refine ⟨?_, rfl⟩
  change (llccConfig s.ch.defaultConfig data).buffAlctr = _ ↔ _
  unfold llccConfig
  split
  · exact iff_of_true rfl ‹_›
  · exact iff_of_false s.ch.default_not_llcc ‹_›

theorem offered_free {env : ConfigEnv} {s : OnChannel D} {data : TcmData} (h : offered env s = some data) :
    s.tcm = none := by
  unfold offered granted at h
  split at h
  · split at h
    · rename_i hfree
      exact hfree.2
    · cases h
  · cases h

theorem deselected_tcm {s : OnChannel D} (h : ¬ s.ch.UsesLlcc) : (deselected s).tcm = s.tcm := if_neg h

theorem deselected_tcm_uses {s : OnChannel D} (h : s.ch.UsesLlcc) : (deselected s).tcm = none := if_pos h

-- ---------------------------------------------------------------------------
-- One call
-- ---------------------------------------------------------------------------

theorem allocChannel_of_not_uses {env : ConfigEnv} {s : OnChannel D} (debugfs : Option Errno)
    (h : ¬ (selected env s).ch.UsesLlcc) :
    ¬ (exec (iossNetAllocChannel ops env debugfs) s).2.ch.UsesLlcc ∧
      (exec (iossNetAllocChannel ops env debugfs) s).2.tcm = (selected env s).tcm := by
  rcases allocChannel_memory ops env debugfs s with hmem | hmem
  · exact ⟨mt hmem.uses.mp h, hmem.2⟩
  · exact ⟨mt hmem.uses.mp (deselected_not_uses _), hmem.2.trans (deselected_tcm h)⟩

theorem allocChannel_transfer {env : ConfigEnv} {s : OnChannel D} (debugfs : Option Errno)
    (hnot : ¬ s.ch.UsesLlcc)
    (hpow : ∀ data, offered env s = some data → isPowerOf2 (llccRingSize data.memSize s.ch.defaultConfig)) :
    Transfer s (exec (iossNetAllocChannel ops env debugfs) s).2 := by
  cases hoffer : offered env s with
  | none =>
    obtain ⟨hsel, htcm⟩ := selected_refused hoffer
    obtain ⟨huses, hkeep⟩ := allocChannel_of_not_uses ops debugfs hsel
    exact .keep (iff_of_false huses hnot) (hkeep.trans htcm)
  | some data =>
    obtain ⟨hsel, htcm⟩ := selected_granted hoffer
    have huses := hsel.mpr (hpow data hoffer)
    rcases allocChannel_memory ops env debugfs s with hmem | hmem
    · refine .take (offered_free hoffer) (hmem.uses.mpr huses) ?_
      rw [hmem.2, htcm]
      rfl
    · refine .keep (iff_of_false (mt hmem.uses.mp (deselected_not_uses _)) hnot) ?_
      rw [hmem.2, deselected_tcm_uses huses, offered_free hoffer]

/-- The two ways an allocation loses the TCM. -/
theorem allocChannel_lost {env : ConfigEnv} {s : OnChannel D} (debugfs : Option Errno)
    (hbad : (s.ch.UsesLlcc ∧ s.tcm.isSome) ∨
      ∃ data, offered env s = some data ∧ ¬ isPowerOf2 (llccRingSize data.memSize s.ch.defaultConfig)) :
    ¬ (exec (iossNetAllocChannel ops env debugfs) s).2.ch.UsesLlcc ∧
      (exec (iossNetAllocChannel ops env debugfs) s).2.tcm.isSome := by
  have hsel : ¬ (selected env s).ch.UsesLlcc ∧ (selected env s).tcm.isSome := by
    rcases hbad with ⟨-, hsome⟩ | ⟨data, hoffer, hpow⟩
    · have hoffer : offered env s = none := by
        cases h : offered env s with
        | none => rfl
        | some data => simp [offered_free h] at hsome
      obtain ⟨hnot, htcm⟩ := selected_refused hoffer
      exact ⟨hnot, htcm ▸ hsome⟩
    · obtain ⟨huses, htcm⟩ := selected_granted hoffer
      exact ⟨mt huses.mp hpow, htcm ▸ rfl⟩
  obtain ⟨hnot, htcm⟩ := allocChannel_of_not_uses ops debugfs hsel.1
  exact ⟨hnot, htcm ▸ hsel.2⟩

theorem freeChannel_transfer (s : OnChannel D) : Transfer s (exec (iossNetFreeChannel ops) s).2 := by
  rcases freeChannel_memory ops s with hmem | hmem
  · exact .keep hmem.uses hmem.2
  · have hnot := mt hmem.uses.mp (deselected_not_uses s)
    by_cases huses : s.ch.UsesLlcc
    · exact .drop huses hnot (hmem.2.trans (deselected_tcm_uses huses))
    · exact .keep (iff_of_false hnot huses) (hmem.2.trans (deselected_tcm huses))

-- ---------------------------------------------------------------------------
-- Runs
-- ---------------------------------------------------------------------------

variable [DecidableEq C]

theorem NetState.mem_users_on (s : NetState C D) (c c' : C) (x : Net D Unit) :
    c' ∈ (s.on c x).users ↔
      if c' = c then (exec x { ch := s.chan c, tcm := s.tcm }).2.ch.UsesLlcc else c' ∈ s.users := by
  change (Function.update s.chan c _ c').UsesLlcc ↔ _
  by_cases hc : c' = c
  · rw [if_pos hc, hc, Function.update_self]
  · rw [if_neg hc, Function.update_of_ne hc]
    rfl

theorem NetState.owned_on {s : NetState C D} {c : C} {x : Net D Unit} (h : s.Owned)
    (htransfer : Transfer { ch := s.chan c, tcm := s.tcm } (exec x { ch := s.chan c, tcm := s.tcm }).2) :
    (s.on c x).Owned := by
  cases htransfer with
  | keep huses htcm =>
    have husers : (s.on c x).users = s.users := by
      ext c'
      rw [mem_users_on]
      split
      · rename_i hc
        exact hc ▸ huses
      · rfl
    unfold Owned at h ⊢
    rw [husers, show (s.on c x).tcm = s.tcm from htcm]
    exact h
  | take hfree huses htcm =>
    have hempty : s.users = ∅ := by simpa [Owned, show s.tcm = none from hfree] using h
    unfold Owned
    rw [if_pos (show (s.on c x).tcm.isSome from htcm)]
    refine ⟨c, Set.ext fun c' => ?_⟩
    rw [mem_users_on, Set.mem_singleton_iff]
    split
    · rename_i hc
      exact iff_of_true huses hc
    · rename_i hc
      exact iff_of_false (hempty ▸ Set.notMem_empty c') hc
  | drop hused huses htcm =>
    have hnone : (s.on c x).tcm = none := htcm
    have hsub : s.users ⊆ {c} := by
      unfold Owned at h
      split at h
      · obtain ⟨c₀, hc₀⟩ := h
        have hc : c = c₀ := hc₀.le hused
        exact hc ▸ hc₀.le
      · exact absurd (h.le hused) (Set.notMem_empty c)
    unfold Owned
    rw [hnone, if_neg (by simp)]
    refine Set.eq_empty_iff_forall_notMem.mpr fun c' hc' => ?_
    rw [mem_users_on] at hc'
    split at hc'
    · exact huses hc'
    · rename_i hc
      exact hc (hsub hc')

theorem NetState.step_owned (s : NetState C D) (a : NetAction C D) (h : s.Owned) (ha : a.Sound s) :
    (s.step a).Owned := by
  cases a with
  | alloc c ops env debugfs => exact owned_on h (allocChannel_transfer ops debugfs ha.1 ha.2)
  | free c ops => exact owned_on h (freeChannel_transfer ops _)

theorem NetState.sound_of_step_balanced (s : NetState C D) (a : NetAction C D) (h : s.Owned)
    (hbal : (s.step a).Balanced) : a.Sound s := by
  cases a with
  | free c ops => trivial
  | alloc c ops env debugfs =>
    by_contra hbad
    -- the other channels do not use the TCM: it was free, or the channel's own
    have hlost : ((s.chan c).UsesLlcc ∧ s.tcm.isSome ∨
        ∃ data, offered env { ch := s.chan c, tcm := s.tcm } = some data ∧
          ¬ isPowerOf2 (llccRingSize data.memSize (s.chan c).defaultConfig)) ∧ s.users ⊆ {c} := by
      unfold Owned at h
      by_cases huses : (s.chan c).UsesLlcc
      · split at h
        · rename_i hsome
          obtain ⟨c₀, hc₀⟩ := h
          have hc : c = c₀ := hc₀.le huses
          exact ⟨.inl ⟨huses, hsome⟩, hc ▸ hc₀.le⟩
        · exact absurd (h.le huses) (Set.notMem_empty c)
      · simp only [NetAction.Sound, not_and, not_forall] at hbad
        obtain ⟨data, hoffer, hpow⟩ := hbad huses
        have hfree : s.tcm = none := offered_free hoffer
        rw [hfree, if_neg (by simp)] at h
        exact ⟨.inr ⟨data, hoffer, hpow⟩, h.le.trans (Set.empty_subset _)⟩
    obtain ⟨hnot, hsome⟩ := allocChannel_lost (s := { ch := s.chan c, tcm := s.tcm }) ops debugfs hlost.1
    refine not_balanced_of_lost (s := s.step (.alloc c ops env debugfs)) hsome ?_ hbal
    refine Set.eq_empty_iff_forall_notMem.mpr fun c' hc' => ?_
    have hmem := (mem_users_on s c c' _).mp hc'
    split at hmem
    · exact hnot hmem
    · rename_i hc
      exact hc (hlost.2 hmem)

/-- The TCM is active just when exactly one channel uses it, all along a run,
if and only if no channel that uses it is allocated again and no ring is
refused. -/
theorem tcm_balanced_iff (chs : C → Channel) (driven : C → D) (as : List (NetAction C D)) :
    (∀ pre, pre <+: as → (run NetState.step (NetState.init chs driven) pre).Balanced) ↔
      Meets NetState.step (fun s a => a.Sound s) (NetState.init chs driven) as :=
  run_inv_iff (fun _ => NetState.balanced_of_owned) NetState.step_owned NetState.sound_of_step_balanced
    (NetState.init_owned chs driven) as

/-- A transmit channel with buffers of 2 KiB is granted one KiB less than 2 MiB:
the ring of 1023 is refused, and the TCM stays active with nobody using it. -/
theorem tcm_lost_on_refused_ring :
    let ops : ChannelOps Unit :=
      { requestChannel := fun _ => (.ok (), ()), releaseChannel := fun _ => (.ok (), ())
        enableChannel := fun _ => (.ok (), ()), disableChannel := fun _ => (.ok (), ())
        requestEvent := fun _ => (.ok (), ()), releaseEvent := fun _ => (.ok (), ())
        enableEvent := fun _ => (.ok (), ()), disableEvent := fun _ => (.ok (), ()) }
    let tx : Channel :=
      { direction := .tx, ringSize := 1024, buffSize := 2048, modCountMin := 0, modCountMax := 0
        modUsecsMin := 0, modUsecsMax := 0, filterTypes := 0 }
    let env : ConfigEnv :=
      { linkSpeed := 2500, maxDdrBandwidth := 1000, disableTcm := false
        tcmActivate := some { memSize := 0x1ffc00, virtAddr := 0xd0000000, physAddr := 0x15800000 } }
    let s := (NetState.init (fun _ : Unit => tx) fun _ => ()).step (.alloc () ops env none)
    s.tcm.isSome ∧ ¬ (s.chan ()).UsesLlcc ∧ ¬ s.Balanced := by
  intro ops tx env s
  have hsome : s.tcm.isSome := by decide +kernel
  have hnot : ¬ (s.chan ()).UsesLlcc := by decide +kernel
  refine ⟨hsome, hnot, fun hbal => ?_⟩
  obtain ⟨c, hc, -⟩ := hbal.mp hsome
  exact hnot hc

end IpaOffload.Ioss
