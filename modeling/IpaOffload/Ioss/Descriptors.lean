import IpaOffload.Ioss.Iova

/-!
# The description of a channel at the default ceiling

The default ceiling has bit 31 and the low 29 bits set. A 32-bit address above
it has bit 31 too, so that its bits in the ceiling are never all zero and the
physical address is never used in its place; and the low bits, with them the
alignment, stay. What can go wrong is then missing memory, too many buffers, a
physical address of zero and the HAL.
-/

namespace IpaOffload.Ioss

open DeviceTree Fallible

variable {p : IpaParams} {m : Platform 32} {ch : IpaChannel 32}

-- ---------------------------------------------------------------------------
-- Addresses
-- ---------------------------------------------------------------------------

structure DefaultRemap (p : IpaParams) : Prop where
  fixHighIova : p.fixHighIova = true
  iovaCeiling : p.iovaCeiling = 0x9fffffff

theorem DefaultRemap.ceiling (h : DefaultRemap p) : dmaAddr 32 p.iovaCeiling = 0x9fffffff := by
  rw [h.iovaCeiling]
  rfl

/-- The address is too high and has no bits in the ceiling that could be used
for it: the branch that takes the physical address. -/
def TakesPa (p : IpaParams) (daddr : BitVec 32) : Prop :=
  (p.fixHighIova = true ∧ daddr > dmaAddr 32 p.iovaCeiling) ∧
    (daddr &&& dmaAddr 32 p.iovaCeiling = 0 ∨ daddr &&& dmaAddr 32 p.iovaCeiling > dmaAddr 32 p.iovaCeiling)

structure Remapped (p : IpaParams) (daddr iova : BitVec 32) : Prop where
  ceiling : iova ≤ 0x9fffffff
  low : daddr ≤ 0x9fffffff → iova = daddr
  aligned : ∀ k ≤ 29, iova.toNat % 2 ^ k = daddr.toNat % 2 ^ k
  notPa : ¬ TakesPa p daddr

theorem and_ceiling_ne_zero {a : BitVec 32} (h : a > 0x9fffffff) : a &&& 0x9fffffff ≠ 0 := by
  have hlt : 0x9fffffff < a.toNat := BitVec.lt_def.mp h
  have hmsb : a.msb = true := by
    rw [BitVec.msb_eq_decide, decide_eq_true_eq]
    omega
  intro hzero
  have hand := congrArg BitVec.msb hzero
  rw [BitVec.msb_and, hmsb] at hand
  cases hand

theorem and_ceiling_mod (a : BitVec 32) {k : Nat} (hk : k ≤ 29) :
    (a &&& 0x9fffffff).toNat % 2 ^ k = a.toNat % 2 ^ k := by
  have hones : ∀ k ≤ 29, 0x9fffffff % 2 ^ k = 2 ^ k - 1 := by decide
  rw [BitVec.toNat_and, Nat.and_mod_two_pow, show (0x9fffffff : BitVec 32).toNat = 0x9fffffff from rfl, hones k hk,
    Nat.and_two_pow_sub_one_eq_mod, Nat.mod_mod]

theorem DefaultRemap.not_takesPa (h : DefaultRemap p) (daddr : BitVec 32) : ¬ TakesPa p daddr := by
  unfold TakesPa
  rw [h.ceiling]
  rintro ⟨⟨-, hhigh⟩, hzero | habove⟩
  · exact and_ceiling_ne_zero hhigh hzero
  · exact BitVec.not_lt.mpr (and_le_right _ _) habove

theorem DefaultRemap.remapIova_eq (h : DefaultRemap p) (daddr : BitVec 32) (pa : Nat) :
    remapIova p daddr pa = if daddr > 0x9fffffff then daddr &&& 0x9fffffff else daddr := by
  have hnot := h.not_takesPa daddr
  unfold TakesPa at hnot
  rw [h.ceiling] at hnot
  unfold remapIova
  simp only [h.fixHighIova, h.ceiling, true_and]
  by_cases hhigh : daddr > 0x9fffffff
  · rw [if_pos hhigh, if_pos hhigh, if_neg fun hbad => hnot ⟨⟨h.fixHighIova, hhigh⟩, hbad⟩]
  · rw [if_neg hhigh, if_neg hhigh]

theorem DefaultRemap.remapped (h : DefaultRemap p) (daddr : BitVec 32) (pa : Nat) :
    Remapped p daddr (remapIova p daddr pa) := by
  rw [h.remapIova_eq]
  by_cases hhigh : daddr > 0x9fffffff
  · rw [if_pos hhigh]
    refine ⟨and_le_right _ _, fun hlow => ?_, fun k hk => and_ceiling_mod daddr hk, h.not_takesPa daddr⟩
    exact absurd hhigh (BitVec.not_lt.mpr hlow)
  · rw [if_neg hhigh]
    exact ⟨BitVec.not_lt.mp hhigh, fun _ => rfl, fun _ _ => rfl, h.not_takesPa daddr⟩

theorem DefaultRemap.remapIova_le (h : DefaultRemap p) (daddr : BitVec 32) (pa : Nat) :
    remapIova p daddr pa ≤ dmaAddr 32 p.iovaCeiling := by
  rw [h.ceiling]
  exact (h.remapped daddr pa).ceiling

-- ---------------------------------------------------------------------------
-- What stands in the way
-- ---------------------------------------------------------------------------

inductive Unfit (m : Platform 32) (ch : IpaChannel 32) (alloc : Nat) : Prop
  | noDescMem (h : ch.descMem = [])
  | descPa (desc : Mem 32) (hhead : ch.descMem.head? = some desc) (h : ch.descPa desc = 0)
  | noList (h : m.kcalloc alloc = false)
  | overflow (h : ch.ringSize.toNat < ch.buffMem.length)
  | buffPa (mem : Mem 32) (hmem : mem ∈ ch.buffMem) (h : buffPaOf m ch mem = 0)

theorem Unfit.not_buildable {alloc : Nat} (h : Unfit m ch alloc) (desc : Mem 32) : ¬ Buildable p m ch alloc desc := by
  intro hb
  cases h with
  | noDescMem hnil => simpa [hnil] using hb.head
  | descPa desc' hhead hpa =>
    cases hhead.symm.trans hb.head
    exact hb.descPa hpa
  | noList hk => simpa [hk] using hb.list
  | overflow hlt => exact Nat.not_lt.mpr hb.room hlt
  | buffPa mem hmem hpa => exact (hb.buffs mem hmem).pa hpa

theorem DefaultRemap.buildable (h : DefaultRemap p) {alloc : Nat} (hfit : ¬ Unfit m ch alloc) :
    ∃ desc, Buildable p m ch alloc desc := by
  cases hdesc : ch.descMem with
  | nil => exact absurd (.noDescMem hdesc) hfit
  | cons desc rest =>
    have hhead : ch.descMem.head? = some desc := by rw [hdesc, List.head?_cons]
    refine ⟨desc, hhead, fun hpa => hfit (.descPa desc hhead hpa), h.remapIova_le _ _, ?_, ?_, fun mem hmem => ⟨?_, ?_⟩⟩
    · exact eq_true_of_ne_false fun hk => hfit (.noList hk)
    · exact Nat.not_lt.mp fun hlt => hfit (.overflow hlt)
    · exact fun hpa => hfit (.buffPa mem hmem hpa)
    · exact h.remapIova_le _ _

-- ---------------------------------------------------------------------------
-- The description
-- ---------------------------------------------------------------------------

/-- The ring and, in their order, the buffers of the channel, one entry each and
no more than the list has room for. -/
structure Complete (p : IpaParams) (m : Platform 32) (ch : IpaChannel 32) (pi : PipeInfo 32) : Prop where
  ring : ∃ desc, ch.descMem.head? = some desc ∧ Remapped p desc.daddr pi.transferRingBase
  list : ∃ list, pi.dataBuffList = some list ∧
    List.Forall₂ (fun mem b => Remapped p mem.daddr b.iova ∧ b.pa = buffPaOf m ch mem) ch.buffMem list.entries
  size : pi.dataBuffListSize.toNat = ch.buffMem.length
  room : ch.buffMem.length ≤ ch.ringSize.toNat

theorem Buildable.complete {alloc : Nat} {desc : Mem 32} (h : DefaultRemap p) (hb : Buildable p m ch alloc desc)
    (id : Nat) (pi : PipeInfo 32) : Complete p m ch (describe p m ch desc id pi) := by
  refine ⟨⟨desc, hb.head, h.remapped _ _⟩, ⟨_, rfl, ?_⟩, ?_, hb.room⟩
  · rw [List.forall₂_map_right_iff, List.forall₂_same]
    exact fun mem _ => ⟨h.remapped _ _, rfl⟩
  · have hlt : ch.buffMem.length < 2 ^ 32 := Nat.lt_of_le_of_lt hb.room ch.ringSize.toNat_lt
    unfold describe
    rw [List.length_map]
    exact UInt32.toNat_ofNat_of_lt' hlt

/-- What was allocated is freed, and the description has no list, or the one it
had before where none was allocated. -/
structure NoDangling (m : Platform 32) (i : Nat) (s s' : IpaState 32) : Prop where
  freed : s'.freed = s.freed ++ allocated m s s'
  list : ∀ pi ∈ s.pipes[i]?, ∀ pi' ∈ s'.pipes[i]?,
    pi'.dataBuffList = none ∨ s'.allocs = s.allocs ∧ pi'.dataBuffList = pi.dataBuffList

theorem FillFails.noDangling {i : Nat} {s s' : IpaState 32} (h : FillFails m i s s') : NoDangling m i s s' := by
  obtain ⟨⟨g, hpipes, hg⟩, hfreed⟩ := h
  refine ⟨hfreed, ?_⟩
  intro pi hpi pi' hpi'
  rw [hpipes, List.getElem?_modify_eq, Option.mem_def, Option.mem_def.mp hpi] at hpi'
  cases hpi'
  exact (hg pi).2

/-- Describing a channel with the default parameters: a success is complete, the
reasons for a failure are these, and but for the HAL's refusal no list is left
behind. -/
theorem pipe_info_complete (p : IpaParams) (m : Platform 32) (i : Nat) (ch : IpaChannel 32) (s : IpaState 32)
    (h : DefaultRemap p) (hi : i < s.pipes.length) :
    (∀ s', exec (iossIpaFillPipeInfo p m i ch) s = (.ok (), s') →
      ∃ pi, s'.pipes[i]? = some pi ∧ Complete p m ch pi) ∧
    ((∃ e s', exec (iossIpaFillPipeInfo p m i ch) s = (.error e, s')) ↔
      Unfit m ch s.allocs ∨ m.halFillSi ch = false) ∧
    (Unfit m ch s.allocs → ∀ e s', exec (iossIpaFillPipeInfo p m i ch) s = (.error e, s') → NoDangling m i s s') := by
  refine ⟨?_, ?_, ?_⟩
  · intro s' hok
    obtain ⟨desc, hb, -, rfl⟩ := iossIpaFillPipeInfo_ok.mp hok
    exact ⟨_, filled_getElem? desc hi, hb.complete h _ _⟩
  · rcases fillPipeInfo_cases p m i ch s with
      ⟨desc, hb, hhal, hexec⟩ | ⟨desc, -, hhal, hexec⟩ | ⟨hnot, e, s₁, hexec, -⟩
    · have hfit : ¬ Unfit m ch s.allocs := fun hu => hu.not_buildable desc hb
      simp [hexec, hfit, hhal]
    · simp [hexec, hhal]
    · have hfit : Unfit m ch s.allocs := by
        by_contra hfit
        obtain ⟨desc, hb⟩ := h.buildable hfit
        exact hnot desc hb
      simp [hexec, hfit]
  · intro hfit e s' hexec
    obtain ⟨e', s₁, hfails, hclean⟩ := fillPipeInfo_fails (p := p) (i := i) hfit.not_buildable
    rw [hfails] at hexec
    cases hexec
    exact hclean.noDangling

def highChannel : IpaChannel 32 := ringChannel .rx 0xff930000 0xff200000

theorem pipe_info_complete_high :
    ∃ s', exec (iossIpaFillPipeInfo {} plainPlatform 0 highChannel) unregistered = (.ok (), s') ∧
      ∃ pi, s'.pipes[0]? = some pi ∧ Complete {} plainPlatform highChannel pi :=
  ⟨_, rfl, (pipe_info_complete {} plainPlatform 0 _ unregistered ⟨rfl, rfl⟩ (by decide)).1 _ rfl⟩

end IpaOffload.Ioss
