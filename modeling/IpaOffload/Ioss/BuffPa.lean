import IpaOffload.Ioss.IpaLaws
import IpaOffload.Ioss.R8125
import IpaOffload.Ioss.Tcm

/-!
# The physical addresses that IPA is given

The allocator in a channel's configuration translates addresses; the memory
itself is always coherent memory, whatever that allocator is.
-/

namespace IpaOffload.Ioss

open DeviceTree Fallible

variable {w : Nat}

-- ---------------------------------------------------------------------------
-- The buffers of a channel
-- ---------------------------------------------------------------------------

theorem allocChannel_ok {D : Type} {ops : ChannelOps D} {env : ConfigEnv} {debugfs : Option Errno}
    {s s' : OnChannel D} (h : exec (iossNetAllocChannel ops env debugfs) s = (.ok (), s')) :
    (ops.requestChannel (selected env s).ch).1 = .ok () ∧ SameMemory (selected env s) s' ∧
      s'.ch.driven = (ops.requestChannel (selected env s).ch).2 := by
  rw [exec_allocChannel] at h
  generalize selected env s = s₁ at h ⊢
  rcases hreq : ops.requestChannel s₁.ch with ⟨e | _, d⟩
  · rw [hreq] at h
    cases h
  · rw [hreq] at h
    cases debugfs with
    | some e => cases h
    | none =>
      cases h
      exact ⟨rfl, ⟨rfl, rfl⟩, rfl⟩

theorem addMems_ok {env : R8125Env w} {mems : List (Mem w)} {i : Nat} {s s' : R8125Channel w}
    (h : exec (addMems env i mems) s = (.ok (), s')) : s' = { s with buffMem := s.buffMem ++ mems } := by
  induction mems generalizing i s with
  | nil =>
    cases h
    simp
  | cons mem mems ih =>
    unfold addMems at h
    cases hadd : env.addBuffMem i with
    | some e =>
      rw [hadd] at h
      cases h
    | none =>
      rw [hadd] at h
      dsimp only at h
      rw [exec_bind_of_ok (exec_modify _ _)] at h
      rw [ih h]
      simp

theorem rtl8125RequestRing_ok {env : R8125Env w} {ringSize buffSize : UInt32} {s s' : R8125Channel w}
    {ring : Ring w} (h : exec (rtl8125RequestRing env ringSize buffSize) s = (.ok ring, s')) :
    (∃ base dma, env.buffAlloc = some (base, dma) ∧ ring.bufs = contigBufs base dma ringSize buffSize) ∧
      s' = { s with held := Function.update s.held .ring true } := by
  unfold rtl8125RequestRing at h
  cases hfree : env.freeRing with
  | none =>
    rw [hfree] at h
    cases h
  | some lib =>
    rw [hfree] at h
    dsimp only at h
    cases hmem : rtl8125AllocRingMem env { lib with ringSize, buffSize } with
    | none =>
      rw [hmem] at h
      cases h
    | some ring' =>
      rw [hmem] at h
      cases h
      refine ⟨?_, rfl⟩
      unfold rtl8125AllocRingMem at hmem
      split at hmem
      · cases hmem
      · split at hmem
        · rename_i hbuff
          cases hmem
          exact ⟨_, _, hbuff, rfl⟩
        · cases hmem

theorem requestChannel_ok {env : R8125Env w} {ch : NetChannel (R8125Channel w)} {s s' : R8125Channel w}
    (hgate : env.skipRequestChannel = false) (h : exec (r8125IossRequestChannel env ch) s = (.ok (), s')) :
    ∃ base dma, env.buffAlloc = some (base, dma) ∧
      s'.buffMem = s.buffMem ++ contigBufs base dma ch.config.ringSize ch.config.buffSize := by
  unfold r8125IossRequestChannel at h
  rw [if_neg (by simp [hgate])] at h
  obtain ⟨ring, s₁, hring, h⟩ := exec_bind_ok h
  obtain ⟨⟨base, dma, hbuff, hbufs⟩, rfl⟩ := rtl8125RequestRing_ok hring
  cases hadd : env.addDescMem with
  | some e =>
    rw [hadd] at h
    cases h
  | none =>
    rw [hadd] at h
    dsimp only at h
    rw [exec_bind_of_ok (exec_modify _ _)] at h
    obtain ⟨u, s₂, hmems, h⟩ := exec_bind_ok h
    rw [exec_tryCatch] at hmems
    split at hmems
    · rename_i u' s₃ hadded
      cases hmems
      cases h
      refine ⟨base, dma, hbuff, ?_⟩
      rw [addMems_ok hadded, hbufs]
    · cases hmems

-- ---------------------------------------------------------------------------
-- Their physical addresses
-- ---------------------------------------------------------------------------

/-- The memory as it is: `phys` is the physical address behind a virtual one. The
buffers are coherent memory, which is not in the TCM, and the TCM's addresses
are its own. -/
structure Coherent (k : AddressMap) (phys : Nat → Nat) (tcm : Option TcmData) (bufs : List (Mem w)) : Prop where
  page : ∀ mem ∈ bufs, defaultMemPa k mem.addr = phys mem.addr
  window : ∀ data, tcm = some data → ∀ addr,
    phys addr = (data.physAddr + data.offset k addr) % 2 ^ k.physBits → data.offset k addr < data.memSize
  apart : ∀ data, tcm = some data → ∀ mem ∈ bufs, data.memSize ≤ data.offset k mem.addr

/-- Where the address of a buffer comes out right. The default allocator knows
it, and an address above `PAGE_OFFSET` is replaced; that of the TCM does not, so
that it has to be replaced. What replaces it is right for the linear map. -/
def PaKnown (k : AddressMap) (m : Platform w) (phys : Nat → Nat) (tcm : Option TcmData) (addr : Nat) :
    Alctr → Prop
  | .default => phys addr % 2 ^ m.longBits < m.pageOffset ∨ m.virtToPhys addr = phys addr
  | .llcc => m.pageOffset ≤ llccMemPa k tcm addr % 2 ^ m.longBits ∧ m.virtToPhys addr = phys addr

def TruePas (phys : Nat → Nat) (bufs : List (Mem w)) (i : Nat) (t : IpaState w) : Prop :=
  ∃ pi list, t.pipes[i]? = some pi ∧ pi.dataBuffList = some list ∧
    List.Forall₂ (fun mem e => e.pa = phys mem.addr) bufs list.entries

variable {k : AddressMap} {m : Platform w} {phys : Nat → Nat}

theorem llccMemPa_ne {tcm : Option TcmData} {bufs : List (Mem w)} (h : Coherent k phys tcm bufs) {mem : Mem w}
    (hmem : mem ∈ bufs) (hpa : llccMemPa k tcm mem.addr ≠ 0) : llccMemPa k tcm mem.addr ≠ phys mem.addr := by
  cases htcm : tcm with
  | none =>
    rw [htcm] at hpa
    exact absurd rfl hpa
  | some data =>
    rw [htcm] at hpa
    unfold llccMemPa at hpa ⊢
    dsimp only at hpa ⊢
    split at hpa
    · exact absurd rfl hpa
    · rename_i hvirt
      rw [if_neg hvirt]
      intro heq
      have hin := h.window data htcm mem.addr heq.symm
      have hout := h.apart data htcm mem hmem
      omega

theorem buffPaOf_toIpa {s : OnChannel (R8125Channel w)} {alctr : Alctr} (halctr : s.ch.config.buffAlctr = some alctr)
    (mem : Mem w) :
    buffPaOf m (s.toIpa k) mem =
      if alctr.pa k s.tcm mem.addr % 2 ^ m.longBits ≥ m.pageOffset then m.virtToPhys mem.addr
      else alctr.pa k s.tcm mem.addr := by
  unfold buffPaOf OnChannel.toIpa
  rw [halctr]
  rfl

theorem buffPaOf_eq_iff {s : OnChannel (R8125Channel w)} {alctr : Alctr} {bufs : List (Mem w)}
    (halctr : s.ch.config.buffAlctr = some alctr) (hcoh : Coherent k phys s.tcm bufs) {mem : Mem w}
    (hmem : mem ∈ bufs) (hpa : buffPaOf m (s.toIpa k) mem ≠ 0) :
    buffPaOf m (s.toIpa k) mem = phys mem.addr ↔ PaKnown k m phys s.tcm mem.addr alctr := by
  rw [buffPaOf_toIpa halctr] at hpa ⊢
  cases alctr with
  | default =>
    have hpage : Alctr.default.pa k s.tcm mem.addr = phys mem.addr := hcoh.page mem hmem
    rw [hpage]
    by_cases hhigh : phys mem.addr % 2 ^ m.longBits ≥ m.pageOffset
    · rw [if_pos hhigh]
      exact ⟨.inr, fun h => h.resolve_left (Nat.not_lt.mpr hhigh)⟩
    · rw [if_neg hhigh]
      exact iff_of_true rfl (.inl (Nat.not_le.mp hhigh))
  | llcc =>
    by_cases hhigh : Alctr.llcc.pa k s.tcm mem.addr % 2 ^ m.longBits ≥ m.pageOffset
    · rw [if_pos hhigh]
      exact ⟨fun h => ⟨hhigh, h⟩, And.right⟩
    · rw [if_neg hhigh] at hpa ⊢
      exact iff_of_false (llccMemPa_ne hcoh hmem hpa) fun h => hhigh h.1

theorem selected_alctr {D : Type} (env : ConfigEnv) (s : OnChannel D) :
    ∃ alctr, (selected env s).ch.config.buffAlctr = some alctr := by
  unfold selected
  split
  · exact ⟨.default, s.ch.default_plain⟩
  · rename_i data _
    change ∃ alctr, (llccConfig s.ch.defaultConfig data).buffAlctr = some alctr
    unfold llccConfig
    split
    · exact ⟨.llcc, rfl⟩
    · exact ⟨.default, s.ch.default_plain⟩

theorem truePas_iff {p : IpaParams} {ch : IpaChannel w} {i : Nat} {t t' : IpaState w}
    (hfill : exec (iossIpaFillPipeInfo p m i ch) t = (.ok (), t')) (hi : i < t.pipes.length) :
    TruePas phys ch.buffMem i t' ↔ ∀ mem ∈ ch.buffMem, buffPaOf m ch mem = phys mem.addr := by
  obtain ⟨desc, -, -, rfl⟩ := iossIpaFillPipeInfo_ok.mp hfill
  have hget : (filled p m i ch desc t).pipes[i]? = some (describe p m ch desc t.allocs t.pipes[i]) :=
    filled_getElem? desc hi
  have hlist : (describe p m ch desc t.allocs t.pipes[i]).dataBuffList =
      some { id := t.allocs, entries := ch.buffMem.map (entryOf p m ch) } := rfl
  have hforall : List.Forall₂ (fun (mem : Mem w) (e : BuffMap w) => e.pa = phys mem.addr) ch.buffMem
      (ch.buffMem.map (entryOf p m ch)) ↔ ∀ mem ∈ ch.buffMem, buffPaOf m ch mem = phys mem.addr := by
    rw [List.forall₂_map_right_iff, List.forall₂_same]
    rfl
  rw [← hforall]
  constructor
  · rintro ⟨pi', list, hpi, hlist', h⟩
    rw [hget] at hpi
    cases hpi
    rw [hlist] at hlist'
    cases hlist'
    exact h
  · intro h
    exact ⟨_, _, hget, hlist, h⟩

/-- For a channel that has been allocated and described, IPA has the physical
address of every buffer if and only if each address is known to the allocator
that the configuration names. -/
theorem buff_pa_iff {p : IpaParams} {cfg : ConfigEnv} {env : R8125Env w} {debugfs : Option Errno}
    {s s' : OnChannel (R8125Channel w)} {i : Nat} {t t' : IpaState w}
    (hgate : env.skipRequestChannel = false) (hempty : s.ch.driven.buffMem = [])
    (halloc : exec (iossNetAllocChannel (r8125IossOps env) cfg debugfs) s = (.ok (), s'))
    (hcoh : ∀ base dma, env.buffAlloc = some (base, dma) →
      Coherent k phys s'.tcm (contigBufs base dma s'.ch.config.ringSize s'.ch.config.buffSize))
    (hfill : exec (iossIpaFillPipeInfo p m i (s'.toIpa k)) t = (.ok (), t')) (hi : i < t.pipes.length) :
    TruePas phys s'.ch.driven.buffMem i t' ↔
      ∀ alctr, s'.ch.config.buffAlctr = some alctr →
        ∀ mem ∈ s'.ch.driven.buffMem, PaKnown k m phys s'.tcm mem.addr alctr := by
  obtain ⟨hreq, hmemory, hdriven⟩ := allocChannel_ok halloc
  obtain ⟨base, dma, hbuff, hbufs⟩ := requestChannel_ok hgate (Prod.ext hreq hdriven.symm)
  rw [selected_driven, hempty, List.nil_append, ← hmemory.1] at hbufs
  have hcoh' : Coherent k phys s'.tcm s'.ch.driven.buffMem := hbufs ▸ hcoh base dma hbuff
  obtain ⟨alctr, halctr⟩ := selected_alctr cfg s
  rw [← hmemory.1] at halctr
  obtain ⟨desc, hbuildable, -, -⟩ := iossIpaFillPipeInfo_ok.mp hfill
  have hknown : ∀ mem ∈ s'.ch.driven.buffMem,
      (buffPaOf m (s'.toIpa k) mem = phys mem.addr ↔ PaKnown k m phys s'.tcm mem.addr alctr) :=
    fun mem hmem => buffPaOf_eq_iff halctr hcoh' hmem (hbuildable.buffs mem hmem).pa
  refine (truePas_iff hfill hi).trans ⟨fun h alctr' halctr' mem hmem => ?_, fun h mem hmem => ?_⟩
  · rw [halctr] at halctr'
    cases halctr'
    exact (hknown mem hmem).mp (h mem hmem)
  · exact (hknown mem hmem).mpr (h alctr halctr mem hmem)

-- Two buffers of 2 KiB on a 32-bit kernel, and a TCM that both fit in.

def sampleMap : AddressMap where
  pagePhys addr := addr / 4096 * 4096 - 0x40000000
  pageSize := 4096
  physBits := 32
  longBits := 32

def sampleTcm : TcmData := { memSize := 4096, virtAddr := 0xd0000000, physAddr := 0x15800000 }

def samplePhys (addr : Nat) : Nat :=
  if 0xd0000000 ≤ addr ∧ addr < 0xd0001000 then addr - 0xd0000000 + 0x15800000 else addr - 0x40000000

def samplePlatform : Platform 32 where
  longBits := 32
  pageOffset := 0xc0000000
  virtToPhys addr := addr - 0x40000000
  kcalloc _ := true
  ctype := true
  halFillSi _ := true
  connPipes _ := true
  voteBw := true
  regIntf := true

def sampleConfig (linkSpeed : UInt32) : ConfigEnv :=
  { linkSpeed, maxDdrBandwidth := 1000, disableTcm := false, tcmActivate := some sampleTcm }

def sampleTx : OnChannel (R8125Channel 32) where
  ch :=
    { direction := .tx, filterTypes := 0, driven := {}, default_plain := rfl
      defaultConfig := { ringSize := 2, buffSize := 2048, descAlctr := some .default, buffAlctr := some .default } }
  tcm := none

def sampleEnv : R8125Env 32 :=
  { descAlloc := some (0xe8000000, 0x80000000), buffAlloc := some (0xe0000000, 0x90000000) }

def sampleAlloc (linkSpeed : UInt32) : OnChannel (R8125Channel 32) :=
  (exec (iossNetAllocChannel (r8125IossOps sampleEnv) (sampleConfig linkSpeed) none) sampleTx).2

def sampleFill (linkSpeed : UInt32) : IpaState 32 :=
  (exec (iossIpaFillPipeInfo {} samplePlatform 0 ((sampleAlloc linkSpeed).toIpa sampleMap)) { pipes := [{}] }).2

theorem sampleTcm_window (addr : Nat)
    (h : samplePhys addr = (sampleTcm.physAddr + sampleTcm.offset sampleMap addr) % 2 ^ sampleMap.physBits) :
    sampleTcm.offset sampleMap addr < sampleTcm.memSize := by
  have hoff : sampleTcm.offset sampleMap addr = (addr + 2 ^ 32 - 0xd0000000) % 2 ^ 32 := rfl
  have hphys : samplePhys addr = (0x15800000 + (addr + 2 ^ 32 - 0xd0000000) % 2 ^ 32) % 2 ^ 32 := h
  rw [hoff]
  change _ < 4096
  unfold samplePhys at hphys
  split at hphys <;> omega

theorem sampleBufs_forall {P : Nat → Prop} (h0 : P 0xe0000000) (h1 : P 0xe0000800) :
    ∀ mem ∈ contigBufs (w := 32) 0xe0000000 0x90000000 2 2048, P mem.addr := by
  intro mem hmem
  have haddr : mem.addr ∈ [0xe0000000, 0xe0000800] := by
    have hmap : (contigBufs (w := 32) 0xe0000000 0x90000000 2 2048).map (·.addr) = [0xe0000000, 0xe0000800] := by
      decide +kernel
    rw [← hmap]
    exact List.mem_map_of_mem hmem
  rcases List.mem_cons.mp haddr with h | h
  · exact h ▸ h0
  · exact List.mem_singleton.mp h ▸ h1

theorem buff_pa_iff_slow_link : TruePas samplePhys (sampleAlloc 1000).ch.driven.buffMem 0 (sampleFill 1000) := by
  have htcm : (sampleAlloc 1000).tcm = none := rfl
  have halloc : exec (iossNetAllocChannel (r8125IossOps sampleEnv) (sampleConfig 1000) none) sampleTx =
      (.ok (), sampleAlloc 1000) := Prod.ext rfl rfl
  have hfill : exec (iossIpaFillPipeInfo {} samplePlatform 0 ((sampleAlloc 1000).toIpa sampleMap)) { pipes := [{}] } =
      (.ok (), sampleFill 1000) := Prod.ext rfl rfl
  refine (buff_pa_iff rfl rfl halloc ?_ hfill (by decide)).mpr ?_
  · intro base dma hbuff
    cases hbuff
    refine ⟨sampleBufs_forall (P := fun addr => defaultMemPa sampleMap addr = samplePhys addr)
      (by decide +kernel) (by decide +kernel), ?_, ?_⟩
    · rw [htcm]
      nofun
    · rw [htcm]
      nofun
  · intro alctr halctr
    cases halctr
    exact sampleBufs_forall (P := fun addr => PaKnown sampleMap samplePlatform samplePhys none addr .default)
      (.inl (by decide +kernel)) (.inl (by decide +kernel))

/-- On a fast link the ring is given to the TCM's allocator, and both buffers are
given addresses that are not theirs. -/
theorem coherent_buffer_given_tcm_pa :
    (exec (iossIpaFillPipeInfo {} samplePlatform 0 ((sampleAlloc 2500).toIpa sampleMap)) { pipes := [{}] }).1 = .ok () ∧
      Coherent sampleMap samplePhys (sampleAlloc 2500).tcm (sampleAlloc 2500).ch.driven.buffMem ∧
      (sampleFill 2500).pipes.map (fun pi => pi.dataBuffList.map fun list => list.entries.map (·.pa)) =
        [some [0x25800000, 0x25800800]] ∧
      (sampleAlloc 2500).ch.driven.buffMem.map (fun mem => samplePhys mem.addr) = [0xa0000000, 0xa0000800] ∧
      ¬ TruePas samplePhys (sampleAlloc 2500).ch.driven.buffMem 0 (sampleFill 2500) := by
  have htcm : (sampleAlloc 2500).tcm = some sampleTcm := rfl
  have hpas : (sampleFill 2500).pipes.map (fun pi => pi.dataBuffList.map fun list => list.entries.map (·.pa)) =
      [some [0x25800000, 0x25800800]] := by decide +kernel
  have htrue : (sampleAlloc 2500).ch.driven.buffMem.map (fun mem => samplePhys mem.addr) = [0xa0000000, 0xa0000800] := by
    decide +kernel
  refine ⟨rfl, ⟨?_, ?_, ?_⟩, hpas, htrue, ?_⟩
  · exact sampleBufs_forall (P := fun addr => defaultMemPa sampleMap addr = samplePhys addr)
      (by decide +kernel) (by decide +kernel)
  · intro data hdata
    rw [htcm] at hdata
    cases hdata
    exact sampleTcm_window
  · intro data hdata
    rw [htcm] at hdata
    cases hdata
    exact sampleBufs_forall (P := fun addr => sampleTcm.memSize ≤ sampleTcm.offset sampleMap addr)
      (by decide +kernel) (by decide +kernel)
  · rintro ⟨pi, list, hpi, hlist, hall⟩
    have hentries : list.entries.map (·.pa) = [0x25800000, 0x25800800] := by
      have hget := congrArg (·[0]?) hpas
      simp only [List.getElem?_map, hpi, hlist, Option.map_some] at hget
      simpa using hget
    have hmap : (sampleAlloc 2500).ch.driven.buffMem.map (fun mem => samplePhys mem.addr) =
        list.entries.map (·.pa) := by
      rw [← List.forall₂_eq_eq_eq, List.forall₂_map_left_iff, List.forall₂_map_right_iff]
      exact hall.imp fun _ _ h => h.symm
    rw [htrue, hentries] at hmap
    exact absurd hmap (by decide)

end IpaOffload.Ioss
